/-!
# Finite sets in increasing order

A set is kept as the strictly increasing list of its members, so that equal sets are equal
terms and listing a set needs no sorting.

## Main definitions

* `SortedSet`: the type, with its order invariant as a proof field.
* `SortedSet.insert`, `SortedSet.ofList`: adding members.
* `SortedSet.contains`: membership as a test.

## Main results

* `SortedSet.mem_insert`, `SortedSet.mem_ofList`: what the operations do to the members.
* `SortedSet.ext`: a set is determined by its members.
-/

namespace LiveQuery

open Std

/-- A finite set, kept as the strictly increasing list of its members. -/
structure SortedSet (α : Type) [Ord α] where
  /-- The members, in order. -/
  toList : List α
  /-- Members strictly increase, so none occurs twice. -/
  sorted : toList.Pairwise fun a b => compare a b = .lt

namespace SortedSet

variable {α β : Type} [Ord α]

instance [DecidableEq α] : DecidableEq (SortedSet α) := fun s t =>
  decidable_of_iff (s.toList = t.toList) (by cases s; cases t; simp)

/-! ### Members -/

/-- Places a member among ordered members, unless it is there already. -/
def place (a : α) : List α → List α
  | [] => [a]
  | b :: rest =>
    match compare a b with
    | .lt => a :: b :: rest
    | .eq => b :: rest
    | .gt => b :: place a rest

theorem mem_place [LawfulEqOrd α] {a x : α} {l : List α} :
    x ∈ place a l ↔ x = a ∨ x ∈ l := by
  induction l with
  | nil => simp [place]
  | cons b rest ih =>
    unfold place
    split
    · simp
    next heq =>
      obtain rfl : a = b := LawfulEqCmp.eq_of_compare heq
      simp
    · simp only [List.mem_cons, ih]
      grind

theorem pairwise_place [TransOrd α] [LawfulEqOrd α] (a : α) {l : List α}
    (h : l.Pairwise fun a b => compare a b = .lt) :
    (place a l).Pairwise fun a b => compare a b = .lt := by
  induction l with
  | nil => simp [place]
  | cons b rest ih =>
    obtain ⟨hb, hrest⟩ := List.pairwise_cons.1 h
    unfold place
    split
    next hlt =>
      refine List.pairwise_cons.2 ⟨fun x hx => ?_, h⟩
      rcases List.mem_cons.1 hx with rfl | hx
      · exact hlt
      · exact TransCmp.lt_trans hlt (hb x hx)
    · exact h
    next hgt =>
      refine List.pairwise_cons.2 ⟨fun x hx => ?_, ih hrest⟩
      rcases mem_place.1 hx with rfl | hx
      · exact OrientedCmp.lt_of_gt hgt
      · exact hb x hx

/-! ### The set interface -/

/-- The set without members. -/
def empty : SortedSet α := ⟨[], .nil⟩

instance : EmptyCollection (SortedSet α) := ⟨empty⟩
instance : Inhabited (SortedSet α) := ⟨empty⟩
instance : Membership α (SortedSet α) := ⟨fun s a => a ∈ s.toList⟩

/-- Whether something is a member. -/
def contains (s : SortedSet α) (a : α) : Bool := s.toList.any fun b => compare a b == .eq

/-- The number of members. -/
def size (s : SortedSet α) : Nat := s.toList.length

/-- Whether there is no member. -/
def isEmpty (s : SortedSet α) : Bool := s.toList.isEmpty

/-- The least member that passes a test. -/
def find? (p : α → Bool) (s : SortedSet α) : Option α := s.toList.find? p

theorem mem_def {s : SortedSet α} {a : α} : a ∈ s ↔ a ∈ s.toList := Iff.rfl

@[simp] theorem not_mem_empty (a : α) : a ∉ (empty : SortedSet α) := List.not_mem_nil

@[simp] theorem contains_eq_true_iff [LawfulEqOrd α] {s : SortedSet α} {a : α} :
    s.contains a = true ↔ a ∈ s := by
  simp [contains, mem_def, LawfulEqCmp.compare_eq_iff_eq]

section Insert

variable [TransOrd α] [LawfulEqOrd α] [Ord β] [TransOrd β] [LawfulEqOrd β]

/-- Adds a member. -/
def insert (s : SortedSet α) (a : α) : SortedSet α := ⟨place a s.toList, pairwise_place a s.sorted⟩

/-- Adds every element of a list. -/
def insertMany (s : SortedSet α) (l : List α) : SortedSet α := l.foldl insert s

/-- The set of the elements of a list. -/
def ofList (l : List α) : SortedSet α := empty.insertMany l

/-- The set of the images of the members that have one. -/
def filterMap (f : α → Option β) (s : SortedSet α) : SortedSet β := ofList (s.toList.filterMap f)

@[simp] theorem mem_insert {s : SortedSet α} {a x : α} : x ∈ s.insert a ↔ x = a ∨ x ∈ s :=
  mem_place

@[simp] theorem mem_insertMany {s : SortedSet α} {l : List α} {x : α} :
    x ∈ s.insertMany l ↔ x ∈ l ∨ x ∈ s := by
  induction l generalizing s with
  | nil => simp [insertMany]
  | cons a l ih =>
    have h := ih (s := s.insert a)
    simp only [insertMany, List.foldl_cons] at h ⊢
    rw [h, mem_insert, List.mem_cons]
    grind

@[simp] theorem mem_ofList {l : List α} {x : α} : x ∈ ofList l ↔ x ∈ l := by
  simp [ofList]

omit [TransOrd α] [LawfulEqOrd α] in
@[simp] theorem mem_filterMap {f : α → Option β} {s : SortedSet α} {y : β} :
    y ∈ s.filterMap f ↔ ∃ x ∈ s, f x = some y := by
  simp [filterMap, mem_def (s := s)]

end Insert

/-! ### Extensionality -/

@[ext] theorem ext_toList {s t : SortedSet α} (h : s.toList = t.toList) : s = t := by
  cases s; cases t; simp_all

/-- A set is determined by its members. -/
theorem ext_mem [TransOrd α] {s t : SortedSet α} (h : ∀ a, a ∈ s ↔ a ∈ t) : s = t := by
  apply ext_toList
  obtain ⟨l, hl⟩ := s
  obtain ⟨m, hm⟩ := t
  simp only [mem_def] at h ⊢
  induction l generalizing m with
  | nil =>
    cases m with
    | nil => rfl
    | cons b m => simpa using h b
  | cons a l ih =>
    cases m with
    | nil => simpa using h a
    | cons b m =>
      obtain ⟨ha, hl'⟩ := List.pairwise_cons.1 hl
      obtain ⟨hb, hm'⟩ := List.pairwise_cons.1 hm
      have hab : a = b := by
        rcases List.mem_cons.1 ((h a).1 List.mem_cons_self) with hab | ham
        · exact hab
        · rcases List.mem_cons.1 ((h b).2 List.mem_cons_self) with hba | hbl
          · exact hba.symm
          · have h1 := hb a ham
            have h2 := OrientedCmp.gt_of_lt (ha b hbl)
            simp [h1] at h2
      subst hab
      refine congrArg _ (ih hl' m hm' fun x => ?_)
      have hx := h x
      by_cases hxa : x = a
      · subst hxa
        have h1 : x ∉ l := fun hx => by simpa using ha x hx
        have h2 : x ∉ m := fun hx => by simpa using hb x hx
        simp [h1, h2]
      · simpa [hxa] using hx

/-- A set is the set of its members. -/
theorem ofList_toList [TransOrd α] [LawfulEqOrd α] (s : SortedSet α) : ofList s.toList = s :=
  ext_mem fun _ => mem_ofList

end SortedSet

end LiveQuery
