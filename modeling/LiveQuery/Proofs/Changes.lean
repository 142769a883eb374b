import LiveQuery.Proofs.Assignments
import LiveQuery.Proofs.FirstFault

/-!
# Changes without nesting

A value set is built by changes, and a change may be a whole set that is built apart and merged.
Two rules live side by side in a set.  Of several assignments to one property the last one counts,
also if an earlier one does not compile.  Of several assignments that are none to a property of the
entity itself the first one counts, and nothing takes it back.

Neither rule looks at where the borders of the merged sets are.  So a set is what the single
assignments make of it, in order, and merging is concatenation: it can be bracketed in any way, and
the empty set changes nothing.

## Main definitions

* `Change.flatten`: the single assignments of a change.
* `ValueSet.assignAll`: single assignments, one after the other.
* `ValueSet.fault?`: why a set makes no assignments.

## Main results

* `ValueSet.applyAll_eq`: changes do what their single assignments do.
* `ValueSet.get?_assignAll`, `ValueSet.error_assignAll`: the last assignment to a property counts,
  and the first one to anything else.
* `ValueSet.merge_assoc`, `ValueSet.empty_merge`, `ValueSet.merge_empty`: merging is associative.
* `ValueSet.assignments_eq_error_iff`: why a set makes no assignments.
* `ValueSet.changes_concatenate`: all of it together.
-/

namespace LiveQuery

variable {ι : Type} {m : Model ι} {root : ι}

namespace Change

mutual

/-- The single assignments of a change, in order. -/
def flatten : Change → List (KeyPath × Term)
  | assign path term => [(path, term)]
  | merge changes => flattenAll changes

/-- The single assignments of some changes, one change after the other. -/
def flattenAll : List Change → List (KeyPath × Term)
  | [] => []
  | c :: cs => flatten c ++ flattenAll cs

end

end Change

namespace ValueSet

/-- Makes single assignments one after the other. -/
def assignAll (m : Model ι) (root : ι) (s : ValueSet) (l : List (KeyPath × Term)) : ValueSet :=
  l.foldl (fun s a => s.assign a.1 (a.2.compile m root)) s

/-- What a single assignment gives the property of a name, if it is one to this property. -/
def valueFor? (m : Model ι) (root : ι) (name : String) (a : KeyPath × Term) :
    Option (Except CompileError Expr) :=
  if a.1 = .property name then some (a.2.compile m root) else none

/-- The error of a single assignment that is none to a property of the entity itself. -/
def beyond? (a : KeyPath × Term) : Option CompileError :=
  match a.1 with
  | .property _ => none
  | .through .. => some (.relationshipPathAssignment a.1.text)

/-! ### Merging -/

@[ext] theorem ext {s t : ValueSet} (hvalues : ∀ name, s.values.get? name = t.values.get? name)
    (herror : s.error = t.error) : s = t := by
  obtain ⟨values, error⟩ := s
  obtain ⟨values', error'⟩ := t
  obtain rfl : values = values' := SortedMap.ext_get? hvalues
  obtain rfl : error = error' := herror
  rfl

/-- A merged set gives a property its own value, or else the one that was there. -/
@[simp] theorem get?_merge (s t : ValueSet) (name : String) :
    (s.merge t).values.get? name = (t.values.get? name).or (s.values.get? name) :=
  SortedMap.get?_insertMany_toList s.values t.values name

@[simp] theorem error_merge (s t : ValueSet) : (s.merge t).error = s.error.or t.error := rfl

theorem merge_assoc (a b c : ValueSet) : (a.merge b).merge c = a.merge (b.merge c) := by
  ext1
  · simp [Option.or_assoc]
  · simp [Option.or_assoc]

theorem empty_merge (s : ValueSet) : empty.merge s = s := by
  ext1
  · simp [empty]
  · simp [empty]

theorem merge_empty (s : ValueSet) : s.merge empty = s := by
  ext1
  · simp [empty]
  · simp [empty]

/-! ### Single assignments -/

variable {s t : ValueSet} {l l' : List (KeyPath × Term)}

theorem assignAll_append (s : ValueSet) (l l' : List (KeyPath × Term)) :
    assignAll m root s (l ++ l') = assignAll m root (assignAll m root s l) l' :=
  List.foldl_append

/-- An assignment to a merged set is one to the set that was merged last. -/
theorem merge_assign (s t : ValueSet) (path : KeyPath) (value : Except CompileError Expr) :
    s.merge (t.assign path value) = (s.merge t).assign path value := by
  cases path with
  | property name =>
    ext name' : 1
    · by_cases hname : name' = name <;> simp [assign, hname]
    · rfl
  | through name rest =>
    ext1
    · simp [assign]
    · simp [assign]

theorem merge_assignAll (s t : ValueSet) (l : List (KeyPath × Term)) :
    s.merge (assignAll m root t l) = assignAll m root (s.merge t) l := by
  induction l generalizing t with
  | nil => rfl
  | cons a l ih =>
    rw [assignAll, List.foldl_cons, ← assignAll, ih, merge_assign]
    rfl

mutual

/-- A change does what its single assignments do: a set that is merged was built from nothing, and
to build on from nothing behind a set is to build on from the set. -/
theorem apply_eq (s : ValueSet) : (c : Change) →
    apply m root s c = assignAll m root s c.flatten
  | .assign path term => rfl
  | .merge changes => by
    rw [apply, applyAll_eq empty changes, merge_assignAll, merge_empty, Change.flatten]

/-- **Changes do what their single assignments do.** -/
theorem applyAll_eq (s : ValueSet) : (cs : List Change) →
    applyAll m root s cs = assignAll m root s (Change.flattenAll cs)
  | [] => rfl
  | c :: cs => by
    rw [applyAll, apply_eq s c, applyAll_eq _ cs, Change.flattenAll, assignAll_append]

end

/-- The last assignment to a property counts, whether or not it compiles. -/
theorem get?_assignAll (s : ValueSet) (l : List (KeyPath × Term)) (name : String) :
    (assignAll m root s l).values.get? name =
      (l.filterMap (valueFor? m root name)).getLast?.or (s.values.get? name) := by
  induction l generalizing s with
  | nil => rfl
  | cons a l ih =>
    obtain ⟨path, term⟩ := a
    rw [assignAll, List.foldl_cons, ← assignAll, ih]
    cases path with
    | property name' =>
      by_cases hname : name = name'
      · subst hname
        cases hlast : (l.filterMap (valueFor? m root name)).getLast? <;>
          simp [valueFor?, assign, List.getLast?_cons, hlast]
      · have hother : name' ≠ name := Ne.symm hname
        simp [valueFor?, assign, hname, hother]
    | through name' rest => simp [valueFor?, assign]

/-- The first assignment beyond the properties of the entity itself counts. -/
theorem error_assignAll (s : ValueSet) (l : List (KeyPath × Term)) :
    (assignAll m root s l).error = s.error.or (l.filterMap beyond?).head? := by
  induction l generalizing s with
  | nil => simp [assignAll]
  | cons a l ih =>
    obtain ⟨path, term⟩ := a
    rw [assignAll, List.foldl_cons, ← assignAll, ih]
    cases path with
    | property name => rfl
    | through name rest => simp [beyond?, assign]

/-! ### The assignments of a set -/

/-- What is wrong with a value that is assigned to the property of a name: there is no such
property, it has no column, or the value does not compile. -/
def entryFault? (e : Entity ι) (entry : String × Except CompileError Expr) :
    Option CompileError :=
  match e.property? entry.1 with
  | none => some (.unknownProperty e.name entry.1)
  | some p =>
    if p.hasColumn then
      match entry.2 with
      | .ok _ => none
      | .error err => some err
    else some (.toManyTraversal e.name entry.1)

/-- Why a set makes no assignments: the error that was kept, or else the first one in the order of
the names. -/
def fault? (e : Entity ι) (s : ValueSet) : Option CompileError :=
  s.error.or (s.values.toList.findSome? (entryFault? e))

variable {e : Entity ι} {values : Assignments}

/-- Checking fails with the first thing that is wrong. -/
theorem checkAssignments_eq_error_iff {entries : List (String × Except CompileError Expr)}
    {err : CompileError} :
    checkAssignments e entries = .error err ↔ entries.findSome? (entryFault? e) = some err := by
  suffices h : ∃ l, checkAssignments e entries =
      unlessFault (entries.findSome? (entryFault? e)) l by
    obtain ⟨l, hl⟩ := h
    rw [hl]
    cases entries.findSome? (entryFault? e) <;> simp [unlessFault]
  induction entries with
  | nil => exact ⟨[], rfl⟩
  | cons entry rest ih =>
    obtain ⟨name, value⟩ := entry
    obtain ⟨l, hl⟩ := ih
    rw [checkAssignments, List.findSome?_cons, entryFault?, Entity.lookup]
    cases e.property? name with
    | none => exact ⟨[], rfl⟩
    | some p =>
      cases hcolumn : p.hasColumn with
      | false => exact ⟨[], by simp [Except.bind, hcolumn, unlessFault]⟩
      | true =>
        cases value with
        | error err => exact ⟨[], by simp [Except.bind, hcolumn, unlessFault]⟩
        | ok expr =>
          exact ⟨(name, expr) :: l, by simp [Except.bind, hcolumn, hl, map_unlessFault]⟩

/-- **Why a set makes no assignments.** -/
theorem assignments_eq_error_iff {err : CompileError} :
    s.assignments e = .error err ↔ s.fault? e = some err := by
  rw [assignments, fault?]
  cases s.error with
  | some err' => simp
  | none =>
    rw [Option.none_or, ← checkAssignments_eq_error_iff]
    cases checkAssignments e s.values.toList <;> simp [Except.map]

/-- A set with nothing wrong makes the assignments that were kept. -/
theorem assignments_eq_ok_iff_fault? :
    s.assignments e = .ok values ↔
      s.fault? e = none ∧ s.values = values.map fun _ expr => .ok expr := by
  constructor
  · intro h
    refine ⟨?_, (assignments_eq_ok_iff.mp h).2.1⟩
    rw [Option.eq_none_iff_forall_ne_some]
    intro err herr
    rw [assignments_eq_error_iff.mpr herr] at h
    cases h
  · rintro ⟨hfault, hvalues⟩
    cases h : s.assignments e with
    | error err =>
      rw [assignments_eq_error_iff.mp h] at hfault
      cases hfault
    | ok values' =>
      have hkept := hvalues.symm.trans (assignments_eq_ok_iff.mp h).2.1
      refine congrArg Except.ok (SortedMap.ext_get? fun name => ?_)
      have hname := congrArg (fun values => SortedMap.get? values name) hkept
      simp only [SortedMap.get?_map] at hname
      exact (Option.map_injective (fun _ _ => Except.ok.inj) hname).symm

/-- **Changes are concatenated assignments.**  They do what their single assignments do in order:
every property keeps the value of the last one to it, and the error is that of the first one beyond
the properties, or what it was before.  So merging is associative, and the empty set is neutral.
The assignments of a set fail with its error, or else with the first fault in the order of the
names; without any they are the values that were kept. -/
theorem changes_concatenate (m : Model ι) (root : ι) :
    (∀ s cs, applyAll m root s cs = assignAll m root s (Change.flattenAll cs)) ∧
      (∀ s l name, (assignAll m root s l).values.get? name =
        (l.filterMap (valueFor? m root name)).getLast?.or (s.values.get? name)) ∧
      (∀ s l, (assignAll m root s l).error = s.error.or (l.filterMap beyond?).head?) ∧
      (∀ a b c : ValueSet, (a.merge b).merge c = a.merge (b.merge c)) ∧
      (∀ s : ValueSet, empty.merge s = s ∧ s.merge empty = s) ∧
      ∀ (e : Entity ι) (s : ValueSet),
        (∀ err, s.assignments e = .error err ↔ s.fault? e = some err) ∧
          ∀ values, s.assignments e = .ok values ↔
            s.fault? e = none ∧ s.values = values.map fun _ expr => .ok expr :=
  ⟨applyAll_eq, get?_assignAll, error_assignAll, merge_assoc,
    fun s => ⟨empty_merge s, merge_empty s⟩,
    fun _ _ => ⟨fun _ => assignments_eq_error_iff, fun _ => assignments_eq_ok_iff_fault?⟩⟩

end ValueSet

end LiveQuery
