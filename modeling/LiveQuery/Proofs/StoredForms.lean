import LiveQuery.Field.Basic
import LiveQuery.Text.Caseless

/-!
# Stored forms of fields

What is put into a column has to come out of it again, and a column of some type may only be given
values of that type.  Null stands for absence and for nothing else: an optional field could not be
read back if one of the data inside it were stored as null, too.

Identifiers are the one type of field with more than one stored form.  They are kept as hyphenated
text, but sixteen bytes and four kinds of text in any mix of cases are read.  So it has to be said
which values stand for which identifier (`Uuid.Denotes`); that the hyphenated text is among them is
not enough, as the reader could take other values for some identifier as well.

## Main definitions

* `Field.Lossless`: no datum is lost, and null stands only for what is absent.
* `Uuid.hyphenated`, `Uuid.forms`: the texts of an identifier, from its groups of bytes.
* `Uuid.Denotes`: the values that stand for an identifier.

## Main results

* `Uuid.parse?_eq_some_iff`: which texts are read, and as what.
* `Field.lossless_types`: nothing is lost by storing a field.
-/

namespace LiveQuery

/-! ### Identifiers -/

namespace Uuid

variable {u : Uuid} {cs : List Char}

/-- The bytes in groups of four, two, two, two and six. -/
def groups (u : Uuid) : List (List UInt8) :=
  [u.bytes.take 4, (u.bytes.drop 4).take 2, (u.bytes.drop 6).take 2, (u.bytes.drop 8).take 2,
    u.bytes.drop 10]

/-- The digits of the groups, with hyphens between them. -/
def hyphenated (u : Uuid) : List Char := ['-'].intercalate (u.groups.map Hex.encode)

/-- The texts of an identifier: the digits alone, with hyphens, in braces and as a resource name. -/
def forms (u : Uuid) : List (List Char) :=
  [Hex.encode u.bytes, u.hyphenated, '\x7b' :: (u.hyphenated ++ ['\x7d']),
    "urn:uuid:".toList ++ u.hyphenated]

/-- The values that stand for an identifier: its bytes, and its texts in any mix of cases. -/
inductive Denotes (u : Uuid) : Value → Prop
  | bytes : Denotes u (.blob u.bytes)
  | text {s : String} (h : (Caseless.fold s).toList ∈ u.forms) : Denotes u (.text s)

/-! ### Hyphens -/

theorem length_digits (u : Uuid) : (Hex.encode u.bytes).length = 32 := by
  rw [Hex.length_encode, u.length_bytes]

/-- Hyphens stand after the digits of each group of bytes but the last. -/
theorem hyphenate_digits (u : Uuid) : hyphenate (Hex.encode u.bytes) = u.hyphenated := by
  have htake (k : Nat) := Hex.take_encode k u.bytes
  have hdrop (k : Nat) := Hex.drop_encode k u.bytes
  have hgroup (j k : Nat) : ((Hex.encode u.bytes).drop (2 * j)).take (2 * k) =
      Hex.encode ((u.bytes.drop j).take k) := by
    rw [hdrop, Hex.take_encode]
  rw [hyphenate, htake 4, hgroup 4 2, hgroup 6 2, hgroup 8 2, hdrop 10]
  simp [hyphenated, groups, List.intercalate, List.intersperse]

theorem toList_toString (u : Uuid) : u.toString.toList = u.hyphenated := by
  rw [toString, String.toList_ofList, hyphenate_digits]

theorem length_hyphenated (u : Uuid) : u.hyphenated.length = 36 := by
  rw [← hyphenate_digits]
  simp [hyphenate, length_digits]

/-- Where the hyphens go depends on nothing but the lengths of the parts. -/
theorem hyphenate_append {a b c d : List Char} (e : List Char) (ha : a.length = 8)
    (hb : b.length = 4) (hc : c.length = 4) (hd : d.length = 4) :
    hyphenate (a ++ (b ++ (c ++ (d ++ e)))) =
      a ++ '-' :: (b ++ '-' :: (c ++ '-' :: (d ++ '-' :: e))) := by
  have hnil {l : List Char} {k : Nat} (h : l.length ≤ k) : l.drop k = [] :=
    List.drop_eq_nil_of_le h
  simp [hyphenate, List.drop_append, ha, hb, hc, hd, hnil]

theorem map_hyphenate (ds : List Char) :
    (hyphenate ds).map Char.toLower = hyphenate (ds.map Char.toLower) := by
  simp [hyphenate, List.map_take, List.map_drop]

/-- Nothing but a hyphen becomes one by a change of case. -/
theorem filter_eq_self_of_map {part ds : List Char} (h : part.map Char.toLower = ds)
    (hds : '-' ∉ ds) : part.filter (· != '-') = part := by
  refine List.filter_eq_self.mpr fun c hc => bne_iff_ne.mpr ?_
  rintro rfl
  exact hds (h ▸ List.mem_map_of_mem hc)

/-- The part of a text before a hyphen, without regard to case. -/
theorem exists_part {ds rest : List Char} (hds : '-' ∉ ds)
    (h : cs.map Char.toLower = ds ++ '-' :: rest) :
    ∃ part cs', cs = part ++ '-' :: cs' ∧ part.filter (· != '-') = part ∧
      part.map Char.toLower = ds ∧ cs'.map Char.toLower = rest := by
  obtain ⟨part, tail, rfl, hpart, h⟩ := List.map_eq_append_iff.mp h
  obtain ⟨c, cs', rfl, hc, hrest⟩ := List.map_eq_cons_iff.mp h
  obtain rfl := (Caseless.toLower_eq_iff (show '-'.isAlpha = false from rfl)).mp hc
  exact ⟨part, cs', rfl, filter_eq_self_of_map hpart hds, hpart, hrest⟩

/-- A text that has hyphens in the places of the hyphens in a text of digits is hyphenated, and the
rest of it are these digits. -/
theorem exists_digits_of_map {ds : List Char} (hlength : ds.length = 32) (hds : '-' ∉ ds)
    (h : cs.map Char.toLower = hyphenate ds) :
    cs = hyphenate (cs.filter (· != '-')) ∧ (cs.filter (· != '-')).map Char.toLower = ds := by
  have hnot (j k : Nat) : '-' ∉ (ds.drop j).take k := fun hmem =>
    hds (List.mem_of_mem_drop (List.mem_of_mem_take hmem))
  obtain ⟨a, t, rfl, ha, hads, h⟩ := exists_part (hnot 0 8) h
  obtain ⟨b, t, rfl, hb, hbds, h⟩ := exists_part (hnot 8 4) h
  obtain ⟨c, t, rfl, hc, hcds, h⟩ := exists_part (hnot 12 4) h
  obtain ⟨d, e, rfl, hd, hdds, heds⟩ := exists_part (hnot 16 4) h
  have he := filter_eq_self_of_map heds fun hmem => hds (List.mem_of_mem_drop hmem)
  have hfilter : (a ++ '-' :: (b ++ '-' :: (c ++ '-' :: (d ++ '-' :: e)))).filter (· != '-') =
      a ++ (b ++ (c ++ (d ++ e))) := by
    simp [ha, hb, hc, hd, he]
  have hsize {part : List Char} {j k : Nat} (h : part.map Char.toLower = (ds.drop j).take k)
      (hjk : j + k ≤ 32) : part.length = k := by
    rw [← List.length_map Char.toLower, h, List.length_take, List.length_drop, hlength]
    omega
  rw [hfilter, hyphenate_append e (hsize hads (by decide)) (hsize hbds (by decide))
    (hsize hcds (by decide)) (hsize hdds (by decide))]
  have hjoin (j k : Nat) : (ds.drop j).take k ++ ds.drop (j + k) = ds.drop j := by
    rw [← List.drop_drop, List.take_append_drop]
  refine ⟨rfl, ?_⟩
  rw [List.map_append, List.map_append, List.map_append, List.map_append, hads, hbds, hcds, hdds,
    heds]
  calc
    (ds.drop 0).take 8 ++ ((ds.drop 8).take 4 ++ ((ds.drop 12).take 4 ++
        ((ds.drop 16).take 4 ++ ds.drop 20))) =
      (ds.drop 0).take 8 ++ ((ds.drop 8).take 4 ++ ((ds.drop 12).take 4 ++ ds.drop 16)) := by
        rw [hjoin 16 4]
    _ = (ds.drop 0).take 8 ++ ((ds.drop 8).take 4 ++ ds.drop 12) := by rw [hjoin 12 4]
    _ = (ds.drop 0).take 8 ++ ds.drop 8 := by rw [hjoin 8 4]
    _ = ds := hjoin 0 8

/-! ### Reading -/

theorem ofBytes?_eq_some_iff {bytes : List UInt8} : ofBytes? bytes = some u ↔ bytes = u.bytes := by
  rw [ofBytes?]
  split
  next h =>
    constructor
    · intro hu
      rw [← Option.some.inj hu]
    · rintro rfl
      rfl
  next h =>
    refine iff_of_false (by simp) ?_
    rintro rfl
    exact h u.length_bytes

theorem ofDigits?_eq_some_iff :
    ofDigits? cs = some u ↔ cs.map Char.toLower = Hex.encode u.bytes := by
  simp only [ofDigits?, Option.bind_eq_some_iff, Hex.decode_eq_some_iff, ofBytes?_eq_some_iff]
  constructor
  · rintro ⟨_, h, rfl⟩
    exact h
  · intro h
    exact ⟨_, h, rfl⟩

theorem ofHyphenated?_eq_some_iff :
    ofHyphenated? cs = some u ↔ cs.map Char.toLower = u.hyphenated := by
  rw [← hyphenate_digits]
  constructor
  · intro h
    simp only [ofHyphenated?] at h
    split at h
    next hcs => rw [hcs, map_hyphenate, ofDigits?_eq_some_iff.mp h]
    next => cases h
  · intro h
    obtain ⟨hcs, hdigits⟩ := exists_digits_of_map u.length_digits (Hex.hyphen_notMem_encode _) h
    rw [ofHyphenated?, if_pos hcs, ofDigits?_eq_some_iff, hdigits]

/-- The hyphenated form is read between braces. -/
theorem ofBraces_eq_some_iff :
    (if cs.head? = some '\x7b' ∧ cs.getLast? = some '\x7d' then
      ofHyphenated? (cs.drop 1).dropLast else none) = some u ↔
      cs.map Char.toLower = '\x7b' :: (u.hyphenated ++ ['\x7d']) := by
  have hopen (c : Char) : c.toLower = '\x7b' ↔ c = '\x7b' := Caseless.toLower_eq_iff rfl
  have hclose (c : Char) : c.toLower = '\x7d' ↔ c = '\x7d' := Caseless.toLower_eq_iff rfl
  constructor
  · intro h
    split at h
    next hbraces =>
      obtain ⟨front, rfl⟩ := List.getLast?_eq_some_iff.mp hbraces.2
      cases front with
      | nil => cases hbraces.1
      | cons x inside =>
        obtain rfl : x = '\x7b' := Option.some.inj hbraces.1
        have hinside : ((('\x7b' :: inside) ++ ['\x7d']).drop 1).dropLast = inside :=
          List.dropLast_concat
        rw [hinside, ofHyphenated?_eq_some_iff] at h
        rw [List.cons_append, List.map_cons, List.map_append, h]
        rfl
    next => cases h
  · intro h
    obtain ⟨x, rest, rfl, hx, hrest⟩ := List.map_eq_cons_iff.mp h
    obtain ⟨inside, last, rfl, hinside, hlast⟩ := List.map_eq_append_iff.mp hrest
    obtain ⟨y, rfl, hy⟩ := List.map_eq_singleton_iff.mp hlast
    obtain rfl := (hopen x).mp hx
    obtain rfl := (hclose y).mp hy
    have hbraces : ('\x7b' :: (inside ++ ['\x7d'])).getLast? = some '\x7d' := by
      rw [← List.cons_append, List.getLast?_concat]
    rw [if_pos ⟨rfl, hbraces⟩, List.drop_one, List.tail_cons, List.dropLast_concat]
    exact ofHyphenated?_eq_some_iff.mpr hinside

/-- The hyphenated form is read behind the name of the scheme. -/
theorem ofName_eq_some_iff :
    (if (cs.take 9).map Char.toLower = "urn:uuid:".toList then ofHyphenated? (cs.drop 9)
      else none) = some u ↔ cs.map Char.toLower = "urn:uuid:".toList ++ u.hyphenated := by
  constructor
  · intro h
    split at h
    next hname =>
      rw [← hname, ← ofHyphenated?_eq_some_iff.mp h, ← List.map_append, List.take_append_drop]
    next => cases h
  · intro h
    have hlength : "urn:uuid:".toList.length = 9 := by decide
    have hname : (cs.take 9).map Char.toLower = "urn:uuid:".toList := by
      rw [List.map_take, h, List.take_left' hlength]
    have hrest : (cs.drop 9).map Char.toLower = u.hyphenated := by
      rw [List.map_drop, h, List.drop_left' hlength]
    rw [if_pos hname, ofHyphenated?_eq_some_iff, hrest]

theorem mem_forms {text : List Char} : text ∈ u.forms ↔
    text = Hex.encode u.bytes ∨ text = u.hyphenated ∨
      text = '\x7b' :: (u.hyphenated ++ ['\x7d']) ∨ text = "urn:uuid:".toList ++ u.hyphenated := by
  simp only [forms, List.mem_cons, List.not_mem_nil, or_false]

/-- **Which texts are read, and as what.**  The length of a text tells which form it may have. -/
theorem parse?_eq_some_iff {s : String} :
    parse? s = some u ↔ (Caseless.fold s).toList ∈ u.forms := by
  have hlength : s.toList.length = (s.toList.map Char.toLower).length :=
    (List.length_map _).symm
  rw [Caseless.toList_fold, mem_forms]
  constructor
  · intro h
    simp only [parse?] at h
    split at h
    next => exact Or.inl (ofDigits?_eq_some_iff.mp h)
    next => exact Or.inr (Or.inl (ofHyphenated?_eq_some_iff.mp h))
    next => exact Or.inr (Or.inr (Or.inl (ofBraces_eq_some_iff.mp h)))
    next => exact Or.inr (Or.inr (Or.inr (ofName_eq_some_iff.mp h)))
    next => cases h
  · rintro (h | h | h | h)
    · rw [h, length_digits] at hlength
      simp only [parse?, hlength]
      exact ofDigits?_eq_some_iff.mpr h
    · rw [h, length_hyphenated] at hlength
      simp only [parse?, hlength]
      exact ofHyphenated?_eq_some_iff.mpr h
    · rw [h, List.length_cons, List.length_append, length_hyphenated] at hlength
      simp only [parse?, hlength]
      exact ofBraces_eq_some_iff.mpr h
    · rw [h, List.length_append, length_hyphenated] at hlength
      simp only [parse?, hlength]
      exact ofName_eq_some_iff.mpr h

example : (parse? "URN:uuid:67E55044-10b1-426F-9247-bb680e5fe0c8").map toString =
    some "67e55044-10b1-426f-9247-bb680e5fe0c8" := by
  decide +kernel

/-- **Which values are read, and as what.** -/
theorem decode_eq_ok_iff {v : Value} : Field.decode v = .ok u ↔ u.Denotes v := by
  change Field.decodeUuid v = .ok u ↔ _
  constructor
  · intro h
    cases v with
    | text s =>
      cases hs : parse? s with
      | none =>
        simp only [Field.decodeUuid, hs] at h
        cases h
      | some u' =>
        simp only [Field.decodeUuid, hs] at h
        obtain rfl := Except.ok.inj h
        exact .text (parse?_eq_some_iff.mp hs)
    | blob b =>
      cases hb : ofBytes? b with
      | none =>
        simp only [Field.decodeUuid, hb] at h
        cases h
      | some u' =>
        simp only [Field.decodeUuid, hb] at h
        obtain rfl := Except.ok.inj h
        obtain rfl := ofBytes?_eq_some_iff.mp hb
        exact .bytes
    | null => cases h
    | integer i => cases h
    | real x => cases h
  · rintro (_ | ⟨h⟩)
    · simp only [Field.decodeUuid, ofBytes?_eq_some_iff.mpr rfl]
    · simp only [Field.decodeUuid, parse?_eq_some_iff.mpr h]

/-- The stored form of an identifier is one of its forms. -/
theorem denotes_encode (u : Uuid) : u.Denotes (Field.encode u) := by
  have hlower : (Caseless.fold u.toString).toList = u.hyphenated := by
    rw [Caseless.toList_fold, toList_toString, ← hyphenate_digits, map_hyphenate,
      Hex.decode_eq_some_iff.mp (Hex.decode_encode u.bytes)]
  exact .text (mem_forms.mpr (Or.inr (Or.inl hlower)))

/-- The stored form of the identifier that a value stands for. -/
def restored (v : Value) : Except DecodeError Value :=
  (Field.decode v : Except DecodeError Uuid).map Field.encode

/-- What was stored anew stays as it is. -/
theorem restored_restored (v : Value) : (restored v).bind restored = restored v := by
  cases hv : (Field.decode v : Except DecodeError Uuid) with
  | error e => rw [restored, hv, Except.map, Except.bind]
  | ok u => rw [restored, hv, Except.map, Except.bind, restored,
      decode_eq_ok_iff.mpr u.denotes_encode, Except.map]

end Uuid

/-! ### Fields -/

namespace Field

/-- No datum of a type of fields is lost by storing it: it is read back as it was, its stored form
is a value of the type's storage class or null, and null stands for just the data that count as
absent. -/
structure Lossless (α : Type) [Field α] (absent : α → Prop) : Prop where
  decode_encode : ∀ a : α, decode (encode a) = .ok a
  dataType?_encode : ∀ a : α, (encode a).dataType? = some (dataType α) ∨ encode a = .null
  encode_eq_null_iff : ∀ a : α, encode a = .null ↔ absent a

/-- A type of fields of which no datum is absent, with its optional data. -/
structure Kept (α : Type) [Field α] : Prop where
  present : Lossless α fun _ => False
  optional : Lossless (Option α) (· = none)

theorem decode_option {α : Type} [Field α] {v : Value} (h : v ≠ .null) :
    (decode v : Except DecodeError (Option α)) = (decode v).map some := by
  cases v with
  | null => exact absurd rfl h
  | integer i => rfl
  | real x => rfl
  | text s => rfl
  | blob b => rfl

/-- If null stands for no datum of a type, it can stand for absence. -/
theorem Lossless.option {α : Type} [Field α] (h : Lossless α fun _ => False) :
    Lossless (Option α) (· = none) where
  decode_encode
    | none => rfl
    | some a => by
      have hnull : encode a ≠ .null := (h.encode_eq_null_iff a).mp
      rw [show encode (some a) = encode a from rfl, decode_option hnull, h.decode_encode]
      rfl
  dataType?_encode
    | none => Or.inr rfl
    | some a => h.dataType?_encode a
  encode_eq_null_iff
    | none => iff_of_true rfl rfl
    | some a => iff_of_false (h.encode_eq_null_iff a).mp nofun

/-- It is enough that data are read back and are never stored as null. -/
theorem kept_of_dataType? {α : Type} [Field α] (hread : ∀ a : α, decode (encode a) = .ok a)
    (htype : ∀ a : α, (encode a).dataType? = some (dataType α)) : Kept α := by
  have hnull : ∀ a : α, encode a ≠ .null := by
    intro a h
    have htypea := htype a
    rw [h] at htypea
    cases htypea
  have hpresent : Lossless α fun _ => False :=
    ⟨hread, fun a => Or.inl (htype a), fun a => iff_of_false (hnull a) not_false⟩
  exact ⟨hpresent, hpresent.option⟩

theorem decode_encode_int32 (i : Int32) : decode (encode i) = .ok i := by
  have hbounds : -0x80000000 ≤ i.toInt64.toInt ∧ i.toInt64.toInt < 0x80000000 := by
    rw [Int32.toInt_toInt64]
    exact ⟨i.le_toInt, i.toInt_lt⟩
  change (if -0x80000000 ≤ i.toInt64.toInt ∧ i.toInt64.toInt < 0x80000000 then _ else _) = _
  rw [if_pos hbounds, Int32.toInt32_toInt64]

/-- **Nothing is lost by storing a field.**  The types of fields other than moments keep their data,
and so do their optional types.  Just the values that stand for an identifier are read as it, it is
stored as its hyphenated text, and storing it anew changes nothing any more. -/
theorem lossless_types :
    (Kept Int64 ∧ Kept Int32 ∧ Kept Bool ∧ Kept Binary64 ∧ Kept String ∧ Kept (List UInt8) ∧
        Kept Uuid) ∧
      (∀ (u : Uuid) (v : Value), decode v = .ok u ↔ u.Denotes v) ∧
      (∀ u : Uuid, encode u = .text (String.ofList u.hyphenated)) ∧
      ∀ v, (Uuid.restored v).bind Uuid.restored = Uuid.restored v := by
  refine ⟨⟨?_, ?_, ?_, ?_, ?_, ?_, ?_⟩, fun u v => Uuid.decode_eq_ok_iff, fun u => ?_,
    Uuid.restored_restored⟩
  · exact kept_of_dataType? (fun _ => rfl) (fun _ => rfl)
  · exact kept_of_dataType? decode_encode_int32 (fun _ => rfl)
  · exact kept_of_dataType? (fun b => by cases b <;> rfl) (fun _ => rfl)
  · exact kept_of_dataType? (fun _ => rfl) (fun _ => rfl)
  · exact kept_of_dataType? (fun _ => rfl) (fun _ => rfl)
  · exact kept_of_dataType? (fun _ => rfl) (fun _ => rfl)
  · exact kept_of_dataType? (fun u => Uuid.decode_eq_ok_iff.mpr u.denotes_encode) (fun _ => rfl)
  · rw [← Uuid.toList_toString, String.ofList_toList]
    rfl

end Field

end LiveQuery
