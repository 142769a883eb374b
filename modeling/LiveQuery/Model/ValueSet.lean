import LiveQuery.Model.Request
import LiveQuery.Sorted.Map

/-!
# Value sets

A value set holds what an insertion or update assigns to the properties of an entity.  It is
built by changes, of which the last one to a property counts.  A path through a relationship
cannot be assigned; the first such attempt is kept as the error of the set.

## Main definitions

* `ValueSet`: compiled assignments by property name.
* `Change`, `ValueSet.apply`: single assignments, and sets merged into a set.
* `ValueSet.missing`: the properties that an insertion would still need.
* `ValueSet.assignments`: the assignments of columns, checked against the entity.
* `ValueSet.insertion`, `ValueSet.updating`: the actions made from a set.
-/

namespace LiveQuery

/-- Values to assign to the properties of an entity. -/
structure ValueSet where
  /-- The assigned expressions, or why they do not compile, by property name. -/
  values : SortedMap String (Except CompileError Expr)
  /-- The first assignment that is none to a property of the entity itself. -/
  error : Option CompileError

/-- A step in building a value set. -/
inductive Change where
  /-- Assigns a term to a property. -/
  | assign (path : KeyPath) (term : Term)
  /-- Builds a set of its own and takes over its assignments. -/
  | merge (changes : List Change)

namespace Change

/-- Lets a to-one relationship refer to the row with a given identifier. -/
def relate (path : KeyPath) (id : Value) : Change := assign path (.literal id)

/-- Lets a to-one relationship refer to no row. -/
def unrelate (path : KeyPath) : Change := assign path (.literal .null)

end Change

namespace ValueSet

variable {ι : Type}

/-- The set without assignments. -/
def empty : ValueSet := ⟨.empty, none⟩

instance : EmptyCollection ValueSet := ⟨empty⟩

/-- Assigns an expression to the property at the end of a path. -/
def assign (s : ValueSet) (path : KeyPath) (value : Except CompileError Expr) : ValueSet :=
  match path with
  | .property name => { s with values := s.values.insert name value }
  | .through .. => { s with error := s.error.or (some (.relationshipPathAssignment path.text)) }

/-- Takes over the assignments of another set, which win over earlier ones.  The error of the set
wins over that of the other. -/
def merge (s other : ValueSet) : ValueSet :=
  ⟨s.values.insertMany other.values.toList, s.error.or other.error⟩

mutual

/-- Applies a change. -/
def apply (m : Model ι) (root : ι) (s : ValueSet) : Change → ValueSet
  | .assign path term => s.assign path (term.compile m root)
  | .merge changes => s.merge (applyAll m root empty changes)

/-- Applies changes one after the other. -/
def applyAll (m : Model ι) (root : ι) (s : ValueSet) : List Change → ValueSet
  | [] => s
  | c :: cs => applyAll m root (apply m root s c) cs

end

/-- The set built by some changes. -/
def ofChanges (m : Model ι) (root : ι) (changes : List Change) : ValueSet :=
  applyAll m root empty changes

/-- The names of the assigned properties. -/
def properties (s : ValueSet) : List String := s.values.keys

/-- The names of the properties that an insertion has to assign and the set does not. -/
def missing (e : Entity ι) (s : ValueSet) : List String :=
  (e.requiredForInsert.map Property.name).filter fun name => !s.values.contains name

/-- Whether the set assigns all that an insertion has to assign. -/
def isSufficient (e : Entity ι) (s : ValueSet) : Bool := (s.missing e).isEmpty

/-- Checks assignments against an entity, in order: the property exists, has a column, and is
assigned an expression that compiles. -/
def checkAssignments (e : Entity ι) :
    List (String × Except CompileError Expr) → Except CompileError (List (String × Expr))
  | [] => .ok []
  | (name, value) :: rest =>
    (e.lookup name).bind fun p =>
      if p.hasColumn then
        value.bind fun expr => (checkAssignments e rest).map ((name, expr) :: ·)
      else .error (.toManyTraversal e.name name)

/-- The assignments of columns.  The error of the set comes first, then those of the assignments
in the order of their names. -/
def assignments (e : Entity ι) (s : ValueSet) : Except CompileError Assignments :=
  match s.error with
  | some err => .error err
  | none => (checkAssignments e s.values.toList).map .ofList

/-- The expression of a default. -/
def defaultExpr (fresh : Uuid) : Default → Expr
  | .now => .now
  | .integer i => .value (.integer i)
  | .real x => .value (.real x)
  | .text s => .value (.text s)
  | .uuid => .value (.text fresh.toString)

/-- Fills in the defaults of properties without assignment.  Each property has a fresh identifier
of its own to draw on. -/
def fillDefaults (fresh : String → Uuid) (values : Assignments) (properties : List (Property ι)) :
    Assignments :=
  properties.foldl (fun values p =>
    match p.default with
    | some d =>
      if values.contains p.name then values else values.insert p.name (defaultExpr (fresh p.name) d)
    | none => values) values

/-- The insertion of a row with the assigned values and defaults.  Whether required properties
are missing is not checked here. -/
def insertion (m : Model ι) (root : ι) (fresh : String → Uuid) (s : ValueSet) :
    Except CompileError Action :=
  (s.assignments (m root)).map fun values =>
    .insert (m root).name (fillDefaults fresh values (m root).properties)

/-- The update of the rows on which a predicate holds, or of all rows.  The predicate is compiled
before the assignments are. -/
def updating (m : Model ι) (root : ι) (predicate : Option Term) (s : ValueSet) :
    Except CompileError Action :=
  (compilePredicate m root predicate).bind fun predicate =>
    (s.assignments (m root)).map fun values => .update (m root).name values predicate

end ValueSet

instance : Inspect ValueSet where
  inspect s := Inspect.record "ValueSet" [("values", inspect s.values), ("error", inspect s.error)]

end LiveQuery
