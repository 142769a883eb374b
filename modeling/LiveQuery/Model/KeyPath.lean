import LiveQuery.Expr.Basic
import LiveQuery.Model.Entity

/-!
# Key paths

A key path names a property of an entity, or a property of a related entity through one or more
to-one relationships.  It compiles to the property's column, behind one join for each
relationship.

## Main definitions

* `KeyPath`: non-empty paths.
* `KeyPath.compile`: the expression of a path.
-/

namespace LiveQuery

/-- A path to a property. -/
inductive KeyPath where
  /-- A property of the entity itself. -/
  | property (name : String)
  /-- A path that starts at the target of a to-one relationship. -/
  | through (relationship : String) (rest : KeyPath)
deriving DecidableEq, Repr

namespace KeyPath

/-- The names along the path. -/
def segments : KeyPath → List String
  | property name => [name]
  | through name rest => name :: rest.segments

/-- The path along some names, of which there has to be one. -/
def ofSegments? : List String → Option KeyPath
  | [] => none
  | [name] => some (property name)
  | name :: rest => (ofSegments? rest).map (through name)

/-- Continues a path that ends in a relationship. -/
def append : KeyPath → KeyPath → KeyPath
  | property name, next => through name next
  | through name rest, next => through name (rest.append next)

/-- The names along the path with points between them. -/
def text (p : KeyPath) : String := ".".intercalate p.segments

instance : Inspect KeyPath := ⟨fun p => Inspect.call "KeyPath" [p.text]⟩

/-- The expression of a path from a root entity.  All names along the path are looked up before
the targets of the relationships are, and these from the last to the first. -/
def compile {ι : Type} (m : Model ι) (root : ι) : KeyPath → Except CompileError Expr
  | property name =>
    ((m root).lookup name).bind fun p =>
      match p.kind with
      | .toMany _ => .error (.toManyTraversal (m root).name p.name)
      | _ => .ok (.column ⟨(m root).name, p.name⟩)
  | through name rest =>
    ((m root).lookup name).bind fun p =>
      match p.kind with
      | .toOne target =>
        (rest.compile m target).bind fun inner =>
          ((m root).targetId (m target) p).map fun id =>
            .join ⟨(m root).name, p.name⟩ ⟨(m target).name, id.name⟩ inner
      | .toMany _ => .error (.toManyTraversal (m root).name p.name)
      | .value _ => .error (.traversalThroughValue (m root).name p.name)

end KeyPath

end LiveQuery
