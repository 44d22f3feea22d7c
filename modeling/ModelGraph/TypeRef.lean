import ModelGraph.Kind
import ModelGraph.Scalar

/-! # Type references

What a field or a union member refers to: a scalar, an entity that was declared before, a name that
was not, or a list of one of these. -/

namespace ModelGraph

/-- A reference to an entity, by its resolved name. -/
structure EntityRef where
  name : String
  kind : Kind
  deriving DecidableEq, Repr

/-- The type of a field or of a union member. -/
inductive TypeRef where
  | scalar (which : Scalar)
  | entity (ref : EntityRef)
  | unresolved (name : String)
  | list (inner : TypeRef)
  deriving DecidableEq, Repr, Nonempty

namespace TypeRef

/-- The type inside all lists. -/
def innermost : TypeRef → TypeRef
  | list inner => inner.innermost
  | type => type

/-- Replace the type inside all lists. -/
def mapInnermost (change : TypeRef → TypeRef) : TypeRef → TypeRef
  | list inner => list (inner.mapInnermost change)
  | type => change type

/-- The type is a list. -/
def isList : TypeRef → Bool
  | list _ => true
  | _ => false

/-- The scalar inside all lists. -/
def scalar? (type : TypeRef) : Option Scalar :=
  match type.innermost with
  | scalar found => some found
  | _ => none

/-- The entity inside all lists. -/
def entity? (type : TypeRef) : Option EntityRef :=
  match type.innermost with
  | entity ref => some ref
  | _ => none

/-- The name inside all lists that no declaration answered. -/
def unresolvedName? (type : TypeRef) : Option String :=
  match type.innermost with
  | unresolved name => some name
  | _ => none

/-- Some declaration, or the language itself, answered the reference. -/
def isResolved (type : TypeRef) : Bool :=
  type.unresolvedName?.isNone

/-- The resolved name that the reference aims at. Scalars have none. -/
def targetName? (type : TypeRef) : Option String :=
  match type.innermost with
  | entity ref => some ref.name
  | unresolved name => some name
  | _ => none

@[simp] theorem innermost_list (inner : TypeRef) : (list inner).innermost = inner.innermost := rfl

/-- Inside all lists there is no list. -/
theorem isList_innermost (type : TypeRef) : type.innermost.isList = false := by
  induction type with
  | list inner ih => exact ih
  | _ => rfl

end TypeRef

end ModelGraph
