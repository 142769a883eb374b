import LiveQuery.Binary64.Decimal
import LiveQuery.Field.Timestamp
import LiveQuery.Field.Uuid
import LiveQuery.Value.Basic

/-!
# Fields

A field type is a type of data that fits in one column: its data have a form as stored values and
are read back from them.

## Main definitions

* `DecodeError`: why a stored value cannot be read, with its message.
* `Field`: the class of field types.
-/

namespace LiveQuery

/-- Why stored data cannot be read. -/
inductive DecodeError where
  /-- The value has the wrong storage class. -/
  | typeMismatch (expected found : String)
  /-- The row has no such column. -/
  | missingColumn (name : String)
  /-- The value has the right storage class and does not stand for anything. -/
  | invalidValue (reason : String)
deriving DecidableEq, Repr

/-- The message of an error. -/
def DecodeError.message : DecodeError → String
  | typeMismatch expected found => s!"Type mismatch: expected {expected}, found {found}"
  | missingColumn name => s!"Missing column: {name}"
  | invalidValue reason => s!"Invalid value: {reason}"

/-- Data that fit in one column. -/
class Field (α : Type) where
  /-- The type of the columns that hold such data. -/
  dataType : DataType
  /-- Whether null stands for one of the data. -/
  nullable : Bool := false
  /-- The stored form. -/
  encode : α → Value
  /-- Reads a stored value. -/
  decode : Value → Except DecodeError α

namespace Field

/-- The error for a value of the wrong storage class. -/
def mismatch {α : Type} (expected : String) (v : Value) : Except DecodeError α :=
  .error (.typeMismatch expected v.className)

/-- Reads an integer. -/
def decodeInteger : Value → Except DecodeError Int64
  | .integer i => .ok i
  | v => mismatch "integer" v

/-- Reads a real.  An integer is read as the real nearest to it, since integral reals may come
back from storage as integers. -/
def decodeReal : Value → Except DecodeError Binary64
  | .real x => .ok x
  | .integer i => .ok (.ofInt i.toInt)
  | v => mismatch "real" v

/-- Reads a moment. -/
def decodeTimestamp (v : Value) : Except DecodeError Timestamp :=
  (decodeReal v).bind fun seconds =>
    match Timestamp.ofSeconds? seconds with
    | some t => .ok t
    | none => .error (.invalidValue s!"timestamp {seconds.text .plain} out of range")

/-- Reads an identifier, from a text or from its bytes. -/
def decodeUuid : Value → Except DecodeError Uuid
  | .text s =>
    match Uuid.parse? s with
    | some u => .ok u
    | none => .error (.invalidValue "not an identifier")
  | .blob b =>
    match Uuid.ofBytes? b with
    | some u => .ok u
    | none => .error (.invalidValue "not sixteen bytes")
  | v => mismatch "uuid" v

instance : Field Int64 where
  dataType := .integer
  encode := .integer
  decode := decodeInteger

instance : Field Int32 where
  dataType := .integer
  encode i := .integer i.toInt64
  decode v := (decodeInteger v).bind fun i =>
    if -0x80000000 ≤ i.toInt ∧ i.toInt < 0x80000000 then .ok i.toInt32
    else .error (.invalidValue s!"{i.toInt} out of range for i32")

instance : Field Bool where
  dataType := .integer
  encode b := .integer (if b then 1 else 0)
  decode v := (decodeInteger v).map (· != 0)

instance : Field Binary64 where
  dataType := .real
  encode := .real
  decode := decodeReal

instance : Field String where
  dataType := .text
  encode := .text
  decode
    | .text s => .ok s
    | v => mismatch "text" v

instance : Field (List UInt8) where
  dataType := .blob
  encode := .blob
  decode
    | .blob b => .ok b
    | v => mismatch "blob" v

instance : Field Timestamp where
  dataType := .real
  encode t := .real t.seconds
  decode := decodeTimestamp

instance : Field Uuid where
  dataType := .text
  encode u := .text u.toString
  decode := decodeUuid

/-- Optional data, null standing for absence. -/
instance {α : Type} [Field α] : Field (Option α) where
  dataType := Field.dataType α
  nullable := true
  encode
    | some a => Field.encode a
    | none => .null
  decode
    | .null => .ok none
    | v => (Field.decode v).map some

end Field

end LiveQuery
