/-!
# Finite maps in key order

A map is kept as its list of entries with strictly increasing keys.  The representation is
canonical: two maps with the same entries are equal as terms, so statements, rows and tables
built from maps inherit decidable structural equality.

## Main definitions

* `SortedMap`: the type, with its order invariant as a proof field.
* `SortedMap.get?`, `SortedMap.insert`, `SortedMap.erase`: point operations.
* `SortedMap.ofList`: the map of a list of entries, where later entries win.

## Main results

* `SortedMap.get?_insert`, `SortedMap.get?_erase`: inserting and removing change one key and nothing
  else.
* `SortedMap.get?_eq_some_iff`: look-up agrees with membership of entries.
* `SortedMap.ext_get?`: maps are equal if every key has the same value in both.
* `SortedMap.perm_ofList`: the map of entries with different keys loses none of them.
-/

namespace LiveQuery

open Std

/-- A finite map, kept as its list of entries in strictly increasing key order. -/
structure SortedMap (κ : Type) (α : Type) [Ord κ] where
  /-- The entries, in key order. -/
  toList : List (κ × α)
  /-- Keys strictly increase, so no key occurs twice. -/
  sorted : toList.Pairwise fun a b => compare a.1 b.1 = .lt

namespace SortedMap

variable {κ α β : Type} [Ord κ]

instance [DecidableEq κ] [DecidableEq α] : DecidableEq (SortedMap κ α) := fun m n =>
  decidable_of_iff (m.toList = n.toList) (by cases m; cases n; simp)

/-! ### Entries -/

/-- Places an entry among ordered entries, replacing the one with the same key. -/
def place (k : κ) (a : α) : List (κ × α) → List (κ × α)
  | [] => [(k, a)]
  | e :: rest =>
    match compare k e.1 with
    | .lt => (k, a) :: e :: rest
    | .eq => (k, a) :: rest
    | .gt => e :: place k a rest

theorem mem_place {k : κ} {a : α} {l : List (κ × α)} {e : κ × α} (h : e ∈ place k a l) :
    e = (k, a) ∨ e ∈ l := by
  induction l with
  | nil => simpa [place] using h
  | cons d rest ih =>
    unfold place at h
    split at h
    · simpa using h
    · rcases List.mem_cons.1 h with h | h <;> simp [h]
    · rcases List.mem_cons.1 h with h | h
      · simp [h]
      · rcases ih h with h | h <;> simp [h]

theorem pairwise_place [TransOrd κ] [LawfulEqOrd κ] (k : κ) (a : α) {l : List (κ × α)}
    (h : l.Pairwise fun a b => compare a.1 b.1 = .lt) :
    (place k a l).Pairwise fun a b => compare a.1 b.1 = .lt := by
  induction l with
  | nil => simp [place]
  | cons d rest ih =>
    obtain ⟨hd, hrest⟩ := List.pairwise_cons.1 h
    unfold place
    split
    next hlt =>
      refine List.pairwise_cons.2 ⟨fun e he => ?_, h⟩
      rcases List.mem_cons.1 he with rfl | he
      · exact hlt
      · exact TransCmp.lt_trans hlt (hd e he)
    next heq =>
      obtain rfl : k = d.1 := LawfulEqCmp.eq_of_compare heq
      exact List.pairwise_cons.2 ⟨fun e he => hd e he, hrest⟩
    next hgt =>
      refine List.pairwise_cons.2 ⟨fun e he => ?_, ih hrest⟩
      rcases mem_place he with rfl | he
      · exact OrientedCmp.lt_of_gt hgt
      · exact hd e he

/-! ### The map interface -/

/-- The map without entries. -/
def empty : SortedMap κ α := ⟨[], .nil⟩

instance : EmptyCollection (SortedMap κ α) := ⟨empty⟩
instance : Inhabited (SortedMap κ α) := ⟨empty⟩

/-- The value stored under a key. -/
def get? (m : SortedMap κ α) (k : κ) : Option α :=
  (m.toList.find? fun e => compare k e.1 == .eq).map (·.2)

/-- Whether a key has a value. -/
def contains (m : SortedMap κ α) (k : κ) : Bool := (m.get? k).isSome

/-- The keys, in order. -/
def keys (m : SortedMap κ α) : List κ := m.toList.map (·.1)

/-- The values, in key order. -/
def values (m : SortedMap κ α) : List α := m.toList.map (·.2)

/-- The number of entries. -/
def size (m : SortedMap κ α) : Nat := m.toList.length

/-- Whether there is no entry. -/
def isEmpty (m : SortedMap κ α) : Bool := m.toList.isEmpty

/-- Keeps the entries that pass a test. -/
def filter (p : κ → α → Bool) (m : SortedMap κ α) : SortedMap κ α :=
  ⟨m.toList.filter fun e => p e.1 e.2, m.sorted.filter _⟩

/-- Removes the entry of a key, if there is one. -/
def erase (m : SortedMap κ α) (k : κ) : SortedMap κ α :=
  m.filter fun k' _ => compare k k' != .eq

/-- Transforms every value. -/
def map (f : κ → α → β) (m : SortedMap κ α) : SortedMap κ β :=
  ⟨m.toList.map fun e => (e.1, f e.1 e.2), List.pairwise_map.2 m.sorted⟩

/-! ### Look-up -/

@[ext] theorem ext_toList {m n : SortedMap κ α} (h : m.toList = n.toList) : m = n := by
  cases m; cases n; simp_all

@[simp] theorem get?_empty (k : κ) : (empty : SortedMap κ α).get? k = none := rfl

/-- A key has a value exactly when the two form an entry. -/
theorem get?_eq_some_iff [LawfulEqOrd κ] (m : SortedMap κ α) (k : κ) (a : α) :
    m.get? k = some a ↔ (k, a) ∈ m.toList := by
  obtain ⟨l, hl⟩ := m
  simp only [get?]
  induction l with
  | nil => simp
  | cons d rest ih =>
    obtain ⟨hd, hrest⟩ := List.pairwise_cons.1 hl
    rw [List.find?_cons]
    by_cases h : k = d.1
    · subst h
      have hno : (d.1, a) ∉ rest := fun hm => by simpa using hd _ hm
      obtain ⟨k, b⟩ := d
      simp [hno, eq_comm]
    · have hf : (compare k d.1 == Ordering.eq) = false := by
        simpa [LawfulEqCmp.compare_eq_iff_eq] using h
      have hne : (k, a) ≠ d := fun hd => h (by simp [← hd])
      simpa [hf, hne] using ih hrest

/-- Maps that agree on every key are equal. -/
theorem ext_get? [TransOrd κ] [LawfulEqOrd κ] {m n : SortedMap κ α}
    (h : ∀ k, m.get? k = n.get? k) : m = n := by
  have hmem (e : κ × α) : e ∈ m.toList ↔ e ∈ n.toList := by
    rw [← get?_eq_some_iff m e.1 e.2, ← get?_eq_some_iff n e.1 e.2, h]
  have hnodup (m : SortedMap κ α) : m.toList.Nodup :=
    m.sorted.imp fun {a b} hlt hab => by simp [hab] at hlt
  have hperm : m.toList.Perm n.toList :=
    (List.perm_ext_iff_of_nodup (hnodup m) (hnodup n)).mpr hmem
  -- No two entries stand both ways round.
  refine ext_toList (hperm.eq_of_pairwise (fun a b _ _ hab hba => ?_) m.sorted n.sorted)
  exact absurd (OrientedCmp.gt_of_lt hab) (by simp [hba])

/-- A key is listed exactly if it has a value. -/
theorem mem_keys_iff [LawfulEqOrd κ] {m : SortedMap κ α} {k : κ} :
    k ∈ m.keys ↔ m.contains k = true := by
  rw [contains, Option.isSome_iff_exists, keys, List.mem_map]
  constructor
  · rintro ⟨⟨k, a⟩, h, rfl⟩
    exact ⟨a, (m.get?_eq_some_iff k a).mpr h⟩
  · rintro ⟨a, h⟩
    exact ⟨(k, a), (m.get?_eq_some_iff k a).mp h, rfl⟩

/-- Transforming the values transforms what every key gives. -/
@[simp] theorem get?_map (f : κ → α → β) [LawfulEqOrd κ] (m : SortedMap κ α) (k : κ) :
    (m.map f).get? k = (m.get? k).map (f k) := by
  obtain ⟨l, hl⟩ := m
  simp only [get?, map]
  induction l with
  | nil => rfl
  | cons d rest ih =>
    obtain ⟨_, hrest⟩ := List.pairwise_cons.1 hl
    by_cases h : k = d.1
    · simp [← h]
    · have hf : (compare k d.1 == Ordering.eq) = false := by
        simpa [LawfulEqCmp.compare_eq_iff_eq] using h
      simpa [hf] using ih hrest

/-- Removing a key changes the look-up of this key and of no other. -/
@[simp] theorem get?_erase [DecidableEq κ] [LawfulEqOrd κ] (m : SortedMap κ α) (k k' : κ) :
    (m.erase k).get? k' = if k' = k then none else m.get? k' := by
  obtain ⟨l, hl⟩ := m
  simp only [get?, erase, filter]
  clear hl
  induction l with
  | nil => simp
  | cons d rest ih =>
    by_cases hd : k = d.1
    · subst hd
      by_cases h : k' = d.1 <;> simp_all [LawfulEqCmp.compare_eq_iff_eq]
    · have hne : d.1 ≠ k := fun e => hd e.symm
      by_cases h : k' = d.1 <;> simp_all [LawfulEqCmp.compare_eq_iff_eq]

/-! ### Insertion -/

variable [TransOrd κ] [LawfulEqOrd κ]

/-- Stores a value under a key, replacing an earlier one. -/
def insert (m : SortedMap κ α) (k : κ) (a : α) : SortedMap κ α :=
  ⟨place k a m.toList, pairwise_place k a m.sorted⟩

/-- Stores several entries in turn, so that a later entry wins. -/
def insertMany (m : SortedMap κ α) (entries : List (κ × α)) : SortedMap κ α :=
  entries.foldl (fun m e => m.insert e.1 e.2) m

/-- The map of a list of entries, where a later entry wins over an earlier one. -/
def ofList (entries : List (κ × α)) : SortedMap κ α := empty.insertMany entries

theorem mem_insert {m : SortedMap κ α} {k : κ} {a : α} {e : κ × α}
    (h : e ∈ (m.insert k a).toList) : e = (k, a) ∨ e ∈ m.toList := mem_place h

omit [TransOrd κ] in
theorem find?_place [DecidableEq κ] (k k' : κ) (a : α) (l : List (κ × α)) :
    ((place k a l).find? fun e => compare k' e.1 == .eq).map (·.2) =
      if k' = k then some a
      else (l.find? fun e => compare k' e.1 == .eq).map (·.2) := by
  induction l with
  | nil =>
    by_cases h : k' = k
    · simp [place, h]
    · simp [place, h, LawfulEqCmp.compare_eq_iff_eq]
  | cons d rest ih =>
    unfold place
    split
    next hlt =>
      by_cases h : k' = k
      · simp [h]
      · simp [h, List.find?_cons, LawfulEqCmp.compare_eq_iff_eq]
    next heq =>
      obtain rfl : k = d.1 := LawfulEqCmp.eq_of_compare heq
      by_cases h : k' = d.1
      · simp [h]
      · simp [h, LawfulEqCmp.compare_eq_iff_eq]
    next hgt =>
      rw [List.find?_cons, List.find?_cons]
      by_cases h : k' = d.1
      · subst h
        have hne : d.1 ≠ k := by
          rintro rfl
          simp at hgt
        simp [hne]
      · have hf : (compare k' d.1 == Ordering.eq) = false := by
          simpa [LawfulEqCmp.compare_eq_iff_eq] using h
        simpa [hf] using ih

/-- Storing a value changes the look-up of its own key and of no other. -/
@[simp] theorem get?_insert [DecidableEq κ] (m : SortedMap κ α) (k k' : κ) (a : α) :
    (m.insert k a).get? k' = if k' = k then some a else m.get? k' :=
  find?_place k k' a m.toList

/-- Storing entries under other keys does not change a look-up. -/
theorem get?_insertMany_of_notMem [DecidableEq κ] (m : SortedMap κ α) {k : κ}
    {entries : List (κ × α)} (h : k ∉ entries.map (·.1)) :
    (m.insertMany entries).get? k = m.get? k := by
  induction entries generalizing m with
  | nil => rfl
  | cons e rest ih =>
    obtain ⟨hne, hrest⟩ := not_or.mp (mt List.mem_cons.mpr h)
    change ((m.insert e.1 e.2).insertMany rest).get? k = _
    rw [ih (m.insert e.1 e.2) hrest, get?_insert, if_neg hne]

/-- Of the entries of another map and those that were there, the former win. -/
theorem get?_insertMany_toList [DecidableEq κ] (m n : SortedMap κ α) (k : κ) :
    (m.insertMany n.toList).get? k = (n.get? k).or (m.get? k) := by
  obtain ⟨entries, hsorted⟩ := n
  simp only [get?]
  induction entries generalizing m with
  | nil => rfl
  | cons e rest ih =>
    obtain ⟨he, hrest⟩ := List.pairwise_cons.1 hsorted
    have hinsert := get?_insert m e.1 k e.2
    simp only [get?] at hinsert
    rw [insertMany, List.foldl_cons, ← insertMany, ih (m.insert e.1 e.2) hrest, hinsert,
      List.find?_cons]
    by_cases hk : k = e.1
    · -- The keys behind the entry are greater than its key.
      have hnone : rest.find? (fun d => compare k d.1 == .eq) = none := by
        rw [List.find?_eq_none]
        intro d hd
        simp [hk, he d hd]
      have hself : (compare k e.1 == Ordering.eq) = true := by simp [hk]
      simp only [hnone, hself, if_pos hk, Option.map_none, Option.map_some, Option.none_or,
        Option.some_or]
    · have hother : (compare k e.1 == Ordering.eq) = false := by
        simpa [LawfulEqCmp.compare_eq_iff_eq] using hk
      simp only [hother, if_neg hk]

/-! ### Entries in key order -/

omit [LawfulEqOrd κ] in
/-- An entry behind all others is placed at the end. -/
theorem place_of_forall_lt {k : κ} {a : α} {l : List (κ × α)}
    (h : ∀ e ∈ l, compare e.1 k = .lt) : place k a l = l ++ [(k, a)] := by
  induction l with
  | nil => rfl
  | cons e rest ih =>
    obtain ⟨he, hrest⟩ := List.forall_mem_cons.mp h
    simp only [place, OrientedCmp.gt_of_lt he, ih hrest, List.cons_append]

/-- Storing entries in key order, all behind those of the map, appends them. -/
theorem toList_insertMany (m : SortedMap κ α) {entries : List (κ × α)}
    (h : (m.toList ++ entries).Pairwise fun a b => compare a.1 b.1 = .lt) :
    (m.insertMany entries).toList = m.toList ++ entries := by
  induction entries generalizing m with
  | nil => exact (List.append_nil _).symm
  | cons e rest ih =>
    have hlast : (m.insert e.1 e.2).toList = m.toList ++ [e] :=
      place_of_forall_lt fun d hd => (List.pairwise_append.mp h).2.2 d hd e List.mem_cons_self
    have hsplit : m.toList ++ e :: rest = (m.insert e.1 e.2).toList ++ rest := by
      rw [hlast, List.append_assoc, List.singleton_append]
    rw [hsplit] at h ⊢
    exact ih (m.insert e.1 e.2) h

/-- The map of entries in key order has these entries. -/
theorem toList_ofList {entries : List (κ × α)}
    (h : entries.Pairwise fun a b => compare a.1 b.1 = .lt) :
    (ofList entries).toList = entries := toList_insertMany empty h

/-- A map is the map of its entries. -/
theorem ofList_toList (m : SortedMap κ α) : ofList m.toList = m :=
  ext_toList (toList_ofList m.sorted)

/-! ### Entries as a collection -/

omit [TransOrd κ] [LawfulEqOrd κ] in
/-- Removing a key takes one entry away. -/
theorem perm_erase [LawfulEqOrd κ] {m : SortedMap κ α} {k : κ} {a : α} (h : (k, a) ∈ m.toList) :
    m.toList.Perm ((k, a) :: (m.erase k).toList) := by
  obtain ⟨l, hl⟩ := m
  simp only [erase, filter] at h ⊢
  induction l with
  | nil => cases h
  | cons d rest ih =>
    obtain ⟨hd, hrest⟩ := List.pairwise_cons.1 hl
    by_cases hkd : k = d.1
    · have hnone : ∀ e ∈ rest, (compare k e.1 != .eq) = true := by
        intro e he
        simp [hkd, hd e he]
      have hda : d = (k, a) := by
        rcases List.mem_cons.1 h with h | h
        · exact h.symm
        · have hlt := hd _ h
          simp [hkd] at hlt
      rw [List.filter_cons_of_neg (by simp [hkd]), List.filter_eq_self.2 hnone, hda]
    · have hin : (k, a) ∈ rest := by
        rcases List.mem_cons.1 h with h | h
        · exact absurd (congrArg Prod.fst h) hkd
        · exact h
      rw [List.filter_cons_of_pos (by simpa [LawfulEqCmp.compare_eq_iff_eq] using hkd)]
      exact ((ih hrest hin).cons d).trans (.swap _ _ _)

/-- Storing a value under a new key adds one entry. -/
theorem perm_insert {m : SortedMap κ α} {k : κ} (a : α) (h : m.contains k = false) :
    (m.insert k a).toList.Perm ((k, a) :: m.toList) := by
  have hne : ∀ e ∈ m.toList, k ≠ e.1 := by
    rintro ⟨k', b⟩ he rfl
    simp [contains, (get?_eq_some_iff m k b).2 he] at h
  change (place k a m.toList).Perm _
  generalize m.toList = l at hne
  induction l with
  | nil => exact .refl _
  | cons d rest ih =>
    unfold place
    split
    · exact .refl _
    next heq => exact absurd (LawfulEqCmp.eq_of_compare heq) (hne d List.mem_cons_self)
    · exact ((ih fun e he => hne e (List.mem_cons_of_mem _ he)).cons d).trans (.swap _ _ _)

/-- Storing entries under new keys, all different, adds these entries. -/
theorem perm_insertMany [DecidableEq κ] {m : SortedMap κ α} {entries : List (κ × α)}
    (hnew : ∀ e ∈ entries, m.contains e.1 = false) (hkeys : (entries.map (·.1)).Nodup) :
    (m.insertMany entries).toList.Perm (m.toList ++ entries) := by
  induction entries generalizing m with
  | nil => simp [insertMany]
  | cons e rest ih =>
    obtain ⟨he, hnew⟩ := List.forall_mem_cons.mp hnew
    obtain ⟨hfresh, hkeys⟩ := List.nodup_cons.mp hkeys
    have hnew' : ∀ d ∈ rest, (m.insert e.1 e.2).contains d.1 = false := by
      intro d hd
      have hne : d.1 ≠ e.1 := fun heq => hfresh (List.mem_map.mpr ⟨d, hd, heq⟩)
      rw [contains, get?_insert, if_neg hne]
      exact hnew d hd
    rw [insertMany, List.foldl_cons, ← insertMany]
    refine (ih hnew' hkeys).trans (((perm_insert e.2 he).append_right rest).trans ?_)
    exact List.perm_middle.symm

/-- The map of entries with different keys has these entries. -/
theorem perm_ofList [DecidableEq κ] {entries : List (κ × α)} (hkeys : (entries.map (·.1)).Nodup) :
    (ofList entries).toList.Perm entries := by
  simpa [ofList, empty] using perm_insertMany (m := empty) (fun _ _ => rfl) hkeys

/-- Replacing a value by one with the same image keeps all images in place. -/
theorem map_toList_insert {m : SortedMap κ α} {k : κ} {a b : α} (h : (k, a) ∈ m.toList)
    (f : κ × α → β) (hf : f (k, b) = f (k, a)) :
    (m.insert k b).toList.map f = m.toList.map f := by
  change (place k b m.toList).map f = m.toList.map f
  obtain ⟨l, hl⟩ := m
  simp only at h ⊢
  induction l with
  | nil => cases h
  | cons d rest ih =>
    obtain ⟨hd, hrest⟩ := List.pairwise_cons.1 hl
    rcases List.mem_cons.1 h with rfl | h
    · simp [place, hf]
    · have hgt : compare k d.1 = .gt := OrientedCmp.gt_of_lt (hd _ h)
      simp only [place, hgt, List.map_cons, ih hrest h]

end SortedMap

end LiveQuery
