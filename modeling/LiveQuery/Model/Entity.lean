import LiveQuery.Binary64.Basic
import LiveQuery.Field.Uuid
import LiveQuery.Model.Error

/-!
# Entities

An entity is a kind of data with one table: its properties hold values or refer to other
entities.  Entities refer to each other by index, so they may refer to themselves and to each
other in cycles; a model gives the entity of every index.

A to-one property has a column that holds the identifier of the related row.  A to-many property
has no column.

## Main definitions

* `Property`, `Entity`, `Model`: properties, entities, and all entities together.
* `Entity.targetId`: the identifying property that a relationship refers to.
* `Entity.schema`: the table of an entity.
* `Entity.requiredForInsert`: the properties that an insertion has to assign.
-/

namespace LiveQuery

/-- What an insertion assigns to a property that is left open. -/
inductive Default where
  /-- The current moment. -/
  | now
  | integer (i : Int64)
  | real (x : Binary64)
  | text (s : String)
  /-- A fresh identifier. -/
  | uuid
deriving DecidableEq

/-- What a property holds. -/
inductive PropertyKind (ι : Type) where
  /-- A value of a type. -/
  | value (dataType : DataType)
  /-- A reference to one row of another entity. -/
  | toOne (target : ι)
  /-- References from any number of rows of another entity. -/
  | toMany (target : ι)

/-- A property of an entity. -/
structure Property (ι : Type) where
  /-- The name. -/
  name : String
  /-- What the property holds. -/
  kind : PropertyKind ι
  /-- Whether the property may be null. -/
  nullable : Bool
  /-- What is assigned when an insertion leaves the property open. -/
  default : Option Default

/-- An entity. -/
structure Entity (ι : Type) where
  /-- The name, which is also the name of the table. -/
  name : String
  /-- The name of the identifying property. -/
  id : String
  /-- The properties. -/
  properties : List (Property ι)

/-- All entities, by index. -/
abbrev Model (ι : Type) : Type := ι → Entity ι

namespace Property

variable {ι : Type}

/-- A property that holds values and may not be null. -/
def value (name : String) (dataType : DataType) : Property ι := ⟨name, .value dataType, false, none⟩

/-- A reference to one row, which may not be null. -/
def toOne (name : String) (target : ι) : Property ι := ⟨name, .toOne target, false, none⟩

/-- References from any number of rows.  They may be missing altogether. -/
def toMany (name : String) (target : ι) : Property ι := ⟨name, .toMany target, true, none⟩

/-- The property that may be null. -/
def asNullable (p : Property ι) : Property ι := { p with nullable := true }

/-- The property with a default. -/
def withDefault (p : Property ι) (default : Default) : Property ι :=
  { p with default := some default }

/-- Whether the property has a column. -/
def hasColumn (p : Property ι) : Bool :=
  match p.kind with
  | .toMany _ => false
  | _ => true

/-- Whether an insertion has to assign the property. -/
def isRequired (p : Property ι) : Bool := p.hasColumn && !p.nullable && p.default.isNone

end Property

namespace Entity

variable {ι : Type}

/-- The first property of a name. -/
def property? (e : Entity ι) (name : String) : Option (Property ι) :=
  e.properties.find? (·.name == name)

/-- The first property of a name, which has to exist. -/
def lookup (e : Entity ι) (name : String) : Except CompileError (Property ι) :=
  match e.property? name with
  | some p => .ok p
  | none => .error (.unknownProperty e.name name)

/-- The error for a relationship whose target cannot be referred to. -/
def unresolvable (e target : Entity ι) (relationship : Property ι) : CompileError :=
  .unresolvableTarget e.name relationship.name target.name target.id

/-- The identifying property of the target of a relationship, which has to have a column. -/
def targetId (e target : Entity ι) (relationship : Property ι) :
    Except CompileError (Property ι) :=
  match target.property? target.id with
  | some id => if id.hasColumn then .ok id else .error (e.unresolvable target relationship)
  | none => .error (e.unresolvable target relationship)

/-- The type of the column of a property, if it has one.  A to-one property has the type of the
identifier it refers to, which may not itself be a relationship. -/
def columnType (m : Model ι) (e : Entity ι) (p : Property ι) :
    Except CompileError (Option DataType) :=
  match p.kind with
  | .value t => .ok (some t)
  | .toOne target =>
    (e.targetId (m target) p).bind fun id =>
      match id.kind with
      | .value t => .ok (some t)
      | _ => .error (e.unresolvable (m target) p)
  | .toMany _ => .ok none

/-- The column of a property with a type.  The identifying property is the primary key. -/
def columnDef (e : Entity ι) (p : Property ι) (t : DataType) : ColumnDef :=
  let c : ColumnDef := { name := p.name, dataType := t, nullable := p.nullable }
  if p.name == e.id then c.asPrimaryKey else c

/-- The columns of some properties of an entity. -/
def columnDefs (m : Model ι) (e : Entity ι) :
    List (Property ι) → Except CompileError (List ColumnDef)
  | [] => .ok []
  | p :: rest =>
    match e.columnType m p with
    | .error err => .error err
    | .ok none => e.columnDefs m rest
    | .ok (some t) => (e.columnDefs m rest).map (e.columnDef p t :: ·)

/-- The table of an entity.  The identifying property has to exist. -/
def schema (m : Model ι) (e : Entity ι) : Except CompileError Schema :=
  (e.lookup e.id).bind fun _ =>
    (e.columnDefs m e.properties).bind fun columns =>
      match Schema.ofColumns e.name columns with
      | .ok s => .ok s
      | .error err => .error (.invalidSchema err)

/-- The properties that an insertion has to assign. -/
def requiredForInsert (e : Entity ι) : List (Property ι) := e.properties.filter Property.isRequired

end Entity

end LiveQuery
