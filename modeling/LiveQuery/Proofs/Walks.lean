import LiveQuery.Proofs.Paths

/-!
# Walks among entities

A path is compiled on the way back: the join of a relationship is made around what the rest of the
path has given.  What the path means is said on the way forth.  Its names but the last lead from one
entity to the next, each through a to-one relationship, in as many steps as there are names, and the
entities may come back to where they were before.  The last name is that of a property with a column
in the entity where the walk ends.

The two directions show in the errors.  A walk that cannot go on is reported where it stands, so of
several such names the first one counts.  That the target of a relationship cannot be referred to is
found on the way back, so it is reported only if the walk came to its end, and then for the last
such target.

## Main definitions

* `KeyPath.along`: the path with given names.
* `Hop`, `Walk`: steps through relationships, and walks made of them.
* `Model.Reaches`: a walk that comes to its end.
* `Entity.Refuses`, `Model.Strays`: a name at which no walk goes on, and walks that come to one.
* `Model.Fails`: what is wrong with a path.

## Main results

* `Model.returns_or_fails`: every walk comes to its end and back, or something is wrong with it.
* `KeyPath.compile_of_resolves`, `KeyPath.compile_of_fails`: what a path compiles to in each case.
* `KeyPath.compile_walks`: all of it together.
-/

namespace LiveQuery

variable {ι : Type}

/-- The path through some relationships to a property. -/
def KeyPath.along (names : List String) (last : String) : KeyPath :=
  names.foldr .through (.property last)

theorem KeyPath.ofSegments?_append (names : List String) (last : String) :
    ofSegments? (names ++ [last]) = some (along names last) := by
  induction names with
  | nil => rfl
  | cons name names ih =>
    -- The rest is not empty, so a longer path is made of it.
    obtain ⟨next, rest, hrest⟩ : ∃ next rest, names ++ [last] = next :: rest :=
      List.exists_cons_of_ne_nil (by simp)
    rw [hrest] at ih
    rw [List.cons_append, hrest, ofSegments?, ih]
    · rfl
    · exact List.cons_ne_nil next rest

theorem KeyPath.exists_eq_along (p : KeyPath) : ∃ names last, p = along names last := by
  induction p with
  | property name => exact ⟨[], name, rfl⟩
  | through name rest ih =>
    obtain ⟨names, last, rfl⟩ := ih
    exact ⟨name :: names, last, rfl⟩

/-! ### Hops and walks -/

/-- A step from one entity to another through a to-one relationship. -/
structure Hop (ι : Type) where
  /-- The entity that has the relationship. -/
  source : ι
  /-- The name of the relationship. -/
  name : String
  /-- The entity that the relationship refers to. -/
  target : ι

namespace Hop

/-- The target can be referred to: its identifier is the name of a property with a column. -/
def Resolves (m : Model ι) (h : Hop ι) : Prop :=
  ∃ id, (m h.target).property? (m h.target).id = some id ∧ id.hasColumn = true

/-- The join that goes along a step, with an expression on its target. -/
def join (m : Model ι) (h : Hop ι) (inner : Expr) : Expr :=
  .join ⟨(m h.source).name, h.name⟩ ⟨(m h.target).name, (m h.target).id⟩ inner

/-- The error for a step whose target cannot be referred to. -/
def unresolvable (m : Model ι) (h : Hop ι) : CompileError :=
  .unresolvableTarget (m h.source).name h.name (m h.target).name (m h.target).id

end Hop

/-- A walk from an entity along some names, each that of a to-one relationship of the entity that
was reached before.  It gives the steps and the entity where it ends. -/
inductive Walk (m : Model ι) : ι → List String → List (Hop ι) → ι → Prop
  | here (i : ι) : Walk m i [] [] i
  | hop {i target j : ι} {name : String} {p : Property ι} {names : List String}
      {hops : List (Hop ι)} (hname : (m i).property? name = some p)
      (hkind : p.kind = .toOne target) (hrest : Walk m target names hops j) :
      Walk m i (name :: names) (⟨i, name, target⟩ :: hops) j

/-- An entity does not let a walk go on at a name, or end there if no names come after it. -/
inductive Entity.Refuses (e : Entity ι) (name : String) (after : List String) :
    CompileError → Prop
  | unknown (hname : e.property? name = none) : Refuses e name after (.unknownProperty e.name name)
  | toMany {p : Property ι} {target : ι} (hname : e.property? name = some p)
      (hkind : p.kind = .toMany target) : Refuses e name after (.toManyTraversal e.name name)
  | value {p : Property ι} {t : DataType} (hname : e.property? name = some p)
      (hkind : p.kind = .value t) (hafter : after ≠ []) :
      Refuses e name after (.traversalThroughValue e.name name)

namespace Model

/-- A walk along some names ends in an entity that has a property with a column for the last one. -/
def Reaches (m : Model ι) (root : ι) (names : List String) (last : String) (hops : List (Hop ι))
    (i : ι) : Prop :=
  Walk m root names hops i ∧ ∃ p, (m i).property? last = some p ∧ p.hasColumn = true

/-- A walk along some names comes to the first one that it cannot go on at. -/
def Strays (m : Model ι) (root : ι) (segments : List String) (err : CompileError) : Prop :=
  ∃ before name after hops i, segments = before ++ name :: after ∧ Walk m root before hops i ∧
    (m i).Refuses name after err

/-- What is wrong with a path: the walk comes to a name at which it cannot go on, or it comes to its
end, and some target on the way cannot be referred to.  The last such target is reported. -/
inductive Fails (m : Model ι) (root : ι) (names : List String) (last : String) :
    CompileError → Prop
  | strays {err : CompileError} (hstrays : m.Strays root (names ++ [last]) err) :
      Fails m root names last err
  | unresolved {hops before after : List (Hop ι)} {h : Hop ι} {i : ι}
      (hreaches : m.Reaches root names last hops i) (hhops : hops = before ++ h :: after)
      (hresolves : ¬ h.Resolves m) (hall : ∀ h' ∈ after, h'.Resolves m) :
      Fails m root names last (h.unresolvable m)

variable {m : Model ι} {root target : ι} {names segments : List String} {name last : String}
  {err : CompileError}

theorem strays_of_refuses (h : (m root).Refuses name segments err) :
    m.Strays root (name :: segments) err :=
  ⟨[], name, segments, [], root, rfl, .here root, h⟩

/-- A walk that strays behind a step strays. -/
theorem Strays.hop {p : Property ι} (hname : (m root).property? name = some p)
    (hkind : p.kind = .toOne target) (h : m.Strays target segments err) :
    m.Strays root (name :: segments) err := by
  obtain ⟨before, name', after, hops, i, rfl, hwalk, hrefuses⟩ := h
  exact ⟨name :: before, name', after, _, i, rfl, .hop hname hkind hwalk, hrefuses⟩

/-- Every walk comes to its end, or to a name at which it cannot go on. -/
theorem reaches_or_strays (m : Model ι) (root : ι) (names : List String) (last : String) :
    (∃ hops i, m.Reaches root names last hops i) ∨ ∃ err, m.Strays root (names ++ [last]) err := by
  induction names generalizing root with
  | nil =>
    cases hname : (m root).property? last with
    | none => exact .inr ⟨_, strays_of_refuses (.unknown hname)⟩
    | some p =>
      cases hkind : p.kind with
      | toMany target => exact .inr ⟨_, strays_of_refuses (.toMany hname hkind)⟩
      | _ => exact .inl ⟨[], root, .here root, p, hname, by rw [Property.hasColumn, hkind]⟩
  | cons name names ih =>
    cases hname : (m root).property? name with
    | none => exact .inr ⟨_, strays_of_refuses (.unknown hname)⟩
    | some p =>
      cases hkind : p.kind with
      | toMany target => exact .inr ⟨_, strays_of_refuses (.toMany hname hkind)⟩
      | value t => exact .inr ⟨_, strays_of_refuses (.value hname hkind (by simp))⟩
      | toOne target =>
        rcases ih target with ⟨hops, i, hwalk, hlast⟩ | ⟨err, hstrays⟩
        · exact .inl ⟨_, i, .hop hname hkind hwalk, hlast⟩
        · exact .inr ⟨err, hstrays.hop hname hkind⟩

end Model

/-- Either all targets of some steps can be referred to, or there is a last one that cannot. -/
theorem Hop.resolves_or_last (m : Model ι) (hops : List (Hop ι)) :
    (∀ h ∈ hops, h.Resolves m) ∨
      ∃ before h after, hops = before ++ h :: after ∧ ¬ h.Resolves m ∧
        ∀ h' ∈ after, h'.Resolves m := by
  induction hops with
  | nil => exact .inl fun h hh => absurd hh List.not_mem_nil
  | cons h hops ih =>
    rcases ih with hall | ⟨before, h', after, rfl, hlast⟩
    · by_cases hresolves : h.Resolves m
      · exact .inl (List.forall_mem_cons.mpr ⟨hresolves, hall⟩)
      · exact .inr ⟨[], h, hops, rfl, hresolves, hall⟩
    · exact .inr ⟨h :: before, h', after, rfl, hlast⟩

/-- Every walk comes to its end with targets that can be referred to, or there is something wrong
with it. -/
theorem Model.returns_or_fails (m : Model ι) (root : ι) (names : List String) (last : String) :
    (∃ hops i, m.Reaches root names last hops i ∧ ∀ h ∈ hops, h.Resolves m) ∨
      ∃ err, m.Fails root names last err := by
  rcases m.reaches_or_strays root names last with ⟨hops, i, hreaches⟩ | ⟨err, hstrays⟩
  · rcases Hop.resolves_or_last m hops with hall | ⟨before, h, after, hhops, hresolves, hall⟩
    · exact .inl ⟨hops, i, hreaches, hall⟩
    · exact .inr ⟨_, .unresolved hreaches hhops hresolves hall⟩
  · exact .inr ⟨err, .strays hstrays⟩

/-! ### Paths -/

namespace Entity

variable {e target : Entity ι} {p : Property ι} {name : String}

theorem lookup_of_property? (h : e.property? name = some p) : e.lookup name = .ok p := by
  rw [lookup, h]

theorem lookup_of_none (h : e.property? name = none) :
    e.lookup name = .error (.unknownProperty e.name name) := by
  rw [lookup, h]

theorem name_of_property? (h : e.property? name = some p) : p.name = name :=
  (lookup_eq_ok (lookup_of_property? h)).2

end Entity

namespace Hop

variable {m : Model ι} {h : Hop ι} {p : Property ι}

/-- The identifier of a target that can be referred to is found. -/
theorem Resolves.targetId (hresolves : h.Resolves m) (p : Property ι) :
    ∃ id, (m h.source).targetId (m h.target) p = .ok id ∧ id.name = (m h.target).id := by
  obtain ⟨id, hid, hcolumn⟩ := hresolves
  refine ⟨id, ?_, Entity.name_of_property? hid⟩
  rw [Entity.targetId, hid]
  exact if_pos hcolumn

/-- The identifier of any other target is not. -/
theorem targetId_of_not_resolves (hresolves : ¬ h.Resolves m) (hname : p.name = h.name) :
    (m h.source).targetId (m h.target) p = .error (h.unresolvable m) := by
  have herror : (m h.source).unresolvable (m h.target) p = h.unresolvable m := by
    rw [Entity.unresolvable, hname, unresolvable]
  rw [Entity.targetId, herror]
  cases hid : (m h.target).property? (m h.target).id with
  | none => rfl
  | some id => exact if_neg fun hcolumn => hresolves ⟨id, hid, hcolumn⟩

end Hop

namespace KeyPath

variable {m : Model ι} {root i : ι} {names segments : List String} {last : String}
  {hops : List (Hop ι)} {err : CompileError}

/-- A path that is a property compiles to its column, if it has one. -/
theorem compile_property {p : Property ι} (hname : (m i).property? last = some p)
    (hcolumn : p.hasColumn = true) :
    (property last).compile m i = .ok (.column ⟨(m i).name, last⟩) := by
  rw [compile, Entity.lookup_of_property? hname]
  cases hkind : p.kind with
  | toMany target => simp [Property.hasColumn, hkind] at hcolumn
  | _ => simp [Except.bind, hkind, Entity.name_of_property? hname]

/-- A longer path compiles to what the rest of it does on the target of its first relationship,
followed by the search for the identifier of the target. -/
theorem compile_through {name : String} {p : Property ι} {target : ι} {rest : KeyPath}
    (hname : (m i).property? name = some p) (hkind : p.kind = .toOne target) :
    (through name rest).compile m i =
      (rest.compile m target).bind fun inner =>
        ((m i).targetId (m target) p).map fun id =>
          .join ⟨(m i).name, name⟩ ⟨(m target).name, id.name⟩ inner := by
  rw [compile, Entity.lookup_of_property? hname, Except.bind]
  simp only [hkind, Entity.name_of_property? hname]

/-- A walk that comes to its end, all of whose targets can be referred to, gives a join for every
step around the column of the last name. -/
theorem compile_of_resolves (hreaches : m.Reaches root names last hops i)
    (hall : ∀ h ∈ hops, h.Resolves m) :
    (along names last).compile m root =
      .ok (hops.foldr (Hop.join m) (.column ⟨(m i).name, last⟩)) := by
  obtain ⟨hwalk, p, hlast, hcolumn⟩ := hreaches
  induction hwalk with
  | here i => exact compile_property hlast hcolumn
  | hop hname hkind _ ih =>
    obtain ⟨hresolves, hall⟩ := List.forall_mem_cons.mp hall
    obtain ⟨id, hid, hidname⟩ := hresolves.targetId _
    refine (compile_through hname hkind).trans ?_
    rw [← along, ih hall hlast, Except.bind, hid, Except.map, hidname]
    rfl

/-- A walk that comes to its end, but not back from there, gives the error of the last step whose
target cannot be referred to. -/
theorem compile_of_unresolved {before after : List (Hop ι)} {h : Hop ι}
    (hreaches : m.Reaches root names last hops i) (hhops : hops = before ++ h :: after)
    (hresolves : ¬ h.Resolves m) (hall : ∀ h' ∈ after, h'.Resolves m) :
    (along names last).compile m root = .error (h.unresolvable m) := by
  obtain ⟨hwalk, hlast⟩ := hreaches
  induction hwalk generalizing before with
  | here i => simp at hhops
  | hop hname hkind hrest ih =>
    refine (compile_through hname hkind).trans ?_
    rw [← along]
    cases before with
    | nil =>
      obtain ⟨rfl, rfl⟩ := List.cons.inj hhops
      rw [compile_of_resolves ⟨hrest, hlast⟩ hall, Except.bind,
        Hop.targetId_of_not_resolves hresolves (Entity.name_of_property? hname)]
      rfl
    | cons h' before =>
      obtain ⟨-, rfl⟩ := List.cons.inj hhops
      rw [ih rfl hlast]
      rfl

/-- A path compiles to the error of its first name if the entity refuses it. -/
theorem compile_of_refuses {name : String} {after : List String}
    (hsegments : names ++ [last] = name :: after) (hrefuses : (m root).Refuses name after err) :
    (along names last).compile m root = .error err := by
  cases names with
  | nil =>
    obtain ⟨rfl, rfl⟩ := List.cons.inj hsegments
    cases hrefuses with
    | unknown hname => simp [along, compile, Entity.lookup_of_none hname, Except.bind]
    | toMany hname hkind =>
      simp [along, compile, Entity.lookup_of_property? hname, Except.bind, hkind,
        Entity.name_of_property? hname]
    | value hname hkind hafter => exact absurd rfl hafter
  | cons name' names =>
    obtain ⟨rfl, -⟩ := List.cons.inj hsegments
    cases hrefuses with
    | unknown hname => simp [along, compile, Entity.lookup_of_none hname, Except.bind]
    | toMany hname hkind =>
      simp [along, compile, Entity.lookup_of_property? hname, Except.bind, hkind,
        Entity.name_of_property? hname]
    | value hname hkind _ =>
      simp [along, compile, Entity.lookup_of_property? hname, Except.bind, hkind,
        Entity.name_of_property? hname]

/-- A walk that cannot go on gives the error of the name where it stands. -/
theorem compile_of_strays (h : m.Strays root (names ++ [last]) err) :
    (along names last).compile m root = .error err := by
  obtain ⟨before, name, after, hops, i, hsegments, hwalk, hrefuses⟩ := h
  induction hwalk generalizing names with
  | here i => exact compile_of_refuses hsegments hrefuses
  | hop hname hkind _ ih =>
    cases names with
    | nil => simp at hsegments
    | cons name' names =>
      obtain ⟨rfl, hrest⟩ := List.cons.inj hsegments
      refine (compile_through hname hkind).trans ?_
      rw [← along, ih hrest hrefuses]
      rfl

/-- A path that does not come to its end and back compiles to the error that says so. -/
theorem compile_of_fails (h : m.Fails root names last err) :
    (along names last).compile m root = .error err := by
  cases h with
  | strays hstrays => exact compile_of_strays hstrays
  | unresolved hreaches hhops hresolves hall =>
    exact compile_of_unresolved hreaches hhops hresolves hall

/-- A path that does not compile does not come to its end and back. -/
theorem fails_of_compile (h : (along names last).compile m root = .error err) :
    m.Fails root names last err := by
  rcases m.returns_or_fails root names last with ⟨hops, i, hreaches, hall⟩ | ⟨err', hfails⟩
  · rw [compile_of_resolves hreaches hall] at h
    cases h
  · rw [compile_of_fails hfails] at h
    exact Except.error.inj h ▸ hfails

/-- **What a path compiles to.**  It compiles exactly if the walk along it comes to its end and all
targets on the way can be referred to, and then to one join for each step around the column of its
last name.  Otherwise the error is that of the first name at which the walk cannot go on, or, if it
comes to its end, that of the last target that cannot be referred to. -/
theorem compile_walks (m : Model ι) (root : ι) (names : List String) (last : String) :
    ofSegments? (names ++ [last]) = some (along names last) ∧
      (∀ e, (along names last).compile m root = .ok e ↔
        ∃ hops i, m.Reaches root names last hops i ∧ (∀ h ∈ hops, h.Resolves m) ∧
          e = hops.foldr (Hop.join m) (.column ⟨(m i).name, last⟩)) ∧
      ∀ err, (along names last).compile m root = .error err ↔ m.Fails root names last err := by
  refine ⟨ofSegments?_append names last, fun e => ⟨fun hcompile => ?_, ?_⟩,
    fun err => ⟨fails_of_compile, compile_of_fails⟩⟩
  · rcases m.returns_or_fails root names last with ⟨hops, i, hreaches, hall⟩ | ⟨err, hfails⟩
    · rw [compile_of_resolves hreaches hall] at hcompile
      exact ⟨hops, i, hreaches, hall, (Except.ok.inj hcompile).symm⟩
    · rw [compile_of_fails hfails] at hcompile
      cases hcompile
  · rintro ⟨hops, i, hreaches, hall, rfl⟩
    exact compile_of_resolves hreaches hall

end KeyPath

end LiveQuery
