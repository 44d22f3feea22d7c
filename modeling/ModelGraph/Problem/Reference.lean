import ModelGraph.Registry

/-! # Unresolved references

A reference stays unresolved if no entity of its name was declared before it. If one is declared
later the reference is a forward one, otherwise it dangles. -/

namespace ModelGraph

/-- What is wrong with a reference. -/
inductive ReferenceStatus where
  /-- Nothing of the name is declared. -/
  | dangling
  /-- The name is declared, but not before the reference. -/
  | forward
  deriving DecidableEq, Repr

/-- The status in one word. -/
def ReferenceStatus.name : ReferenceStatus → String
  | dangling => "dangling"
  | forward => "forward"

/-- A reference that stayed unresolved: whose member it is, and what it aims at. -/
structure UnresolvedReference where
  owner : String
  member : String
  target : String
  status : ReferenceStatus
  deriving DecidableEq, Repr

/-- What the report says about a reference. -/
def UnresolvedReference.message (reference : UnresolvedReference) : String :=
  match reference.status with
  | .dangling => "reference to undeclared type '" ++ reference.target ++ "'"
  | .forward => "reference to '" ++ reference.target ++ "' precedes its declaration"

/-- The members of a body that refer to types, with those types. Members of enums do not. -/
def Body.references : Body → List (String × TypeRef)
  | record fields | input fields =>
      fields.filterMap fun field => field.type.map fun type => (field.name, type)
  | enum _ => []
  | union members => members.map fun member => (member.ident, member.type)

namespace Registry

/-- The status of a reference to a name that was not resolved. -/
def statusOf (registry : Registry) (target : String) : ReferenceStatus :=
  if registry.contains target then .forward else .dangling

/-- The unresolved references of an entity. -/
def unresolvedOf (registry : Registry) (entity : Entity) : List UnresolvedReference :=
  entity.body.references.filterMap fun (member, type) =>
    type.unresolvedName?.map fun target =>
      { owner := entity.name
        member := member
        target := target
        status := registry.statusOf target }

/-- All unresolved references, entity by entity and member by member. -/
def unresolvedReferences (registry : Registry) : List UnresolvedReference :=
  registry.entities.flatMap registry.unresolvedOf

/-- File a message for every unresolved reference, under its owner and member. -/
def reportReferences (registry : Registry) (tree : ProblemTree) : ProblemTree :=
  registry.unresolvedReferences.foldl
    (fun tree reference =>
      tree.mergeFor reference.owner (.addFor .empty reference.member reference.message))
    tree

end Registry

end ModelGraph
