import LiveQuery.Schema

/-!
# Compile errors

A query or change that disagrees with the declared entities does not compile.  The error names
the entity and property at fault.

## Main definitions

* `CompileError`: the causes, with their messages and descriptions.
-/

namespace LiveQuery

/-- Why something does not compile. -/
inductive CompileError where
  /-- The entity has no property of this name. -/
  | unknownProperty (entity property : String)
  /-- A path contains a to-many relationship. -/
  | toManyTraversal (entity property : String)
  /-- A path goes on behind a property that is no relationship. -/
  | traversalThroughValue (entity property : String)
  /-- The target of a relationship has no identifying property that could be referred to. -/
  | unresolvableTarget (entity property target id : String)
  /-- An assignment reaches beyond the entity's own properties. -/
  | relationshipPathAssignment (path : String)
  /-- A function has too few arguments. -/
  | tooFewArguments (function : String) (least got : Nat)
  /-- Two results of a selection have the same name. -/
  | duplicateResultName (name : String)
  /-- The properties of an entity do not form a schema. -/
  | invalidSchema (error : SchemaError)
deriving DecidableEq, Repr

/-- The message of an error. -/
def CompileError.message : CompileError → String
  | unknownProperty entity property => s!"Unknown property {entity}.{property}"
  | toManyTraversal entity property =>
    s!"To-many relationship {entity}.{property} cannot appear in a property path"
  | traversalThroughValue entity property =>
    s!"Cannot traverse through value property {entity}.{property}"
  | unresolvableTarget entity property target id =>
    s!"Relationship target {target} of {entity}.{property} has no identifying property {id}"
  | relationshipPathAssignment path => s!"Assignment to {path} traverses a relationship"
  | tooFewArguments function least got =>
    s!"{function} needs at least {least} arguments, got {got}"
  | duplicateResultName name => s!"Result name {name} is selected twice"
  | invalidSchema error => s!"Invalid schema: {error.message}"

/-! ### Compilation in steps -/

/-- If a step that goes on from another one succeeds, both do. -/
theorem exists_of_bind_eq_ok {ε β γ : Type} {x : Except ε β} {f : β → Except ε γ} {c : γ}
    (h : x.bind f = .ok c) : ∃ b, x = .ok b ∧ f b = .ok c := by
  cases x with
  | error e => cases h
  | ok b => exact ⟨b, rfl, h⟩

/-- If something is made of a result, the result is there. -/
theorem exists_of_map_eq_ok {ε β γ : Type} {x : Except ε β} {f : β → γ} {c : γ}
    (h : x.map f = .ok c) : ∃ b, x = .ok b ∧ f b = c := by
  cases x with
  | error e => cases h
  | ok b => exact ⟨b, rfl, Except.ok.inj h⟩

/-! ### Descriptions -/

instance : Inspect CompileError where
  inspect
    | .unknownProperty entity property => Inspect.record "UnknownProperty"
      [("entity", inspect entity), ("property", inspect property)]
    | .toManyTraversal entity property => Inspect.record "ToManyTraversal"
      [("entity", inspect entity), ("property", inspect property)]
    | .traversalThroughValue entity property => Inspect.record "TraversalThroughValue"
      [("entity", inspect entity), ("property", inspect property)]
    | .unresolvableTarget entity property target id => Inspect.record "UnresolvableTarget"
      [("entity", inspect entity), ("property", inspect property), ("target", inspect target),
        ("id", inspect id)]
    | .relationshipPathAssignment path => Inspect.record "RelationshipPathAssignment"
      [("path", inspect path)]
    | .tooFewArguments function least got => Inspect.record "TooFewArguments"
      [("function", inspect function), ("min", inspect least), ("got", inspect got)]
    | .duplicateResultName name => Inspect.call "DuplicateResultName" [inspect name]
    | .invalidSchema error => Inspect.call "Schema" [inspect error]

end LiveQuery
