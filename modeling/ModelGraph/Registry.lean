import ModelGraph.Entity
import ModelGraph.ResolutionError

/-! # Registry

The entities of a model in the order of registration, with an index from names to positions. No two
entities have the same name. -/

namespace ModelGraph

/-- The entities in order, and the position of each name. -/
structure Registry where
  entities : List Entity := []
  positions : List (String × Nat) := []
  deriving DecidableEq, Repr

namespace Registry

/-- The registry without entities. -/
def empty : Registry := {}

/-- The position of the entity of a name. -/
def position? (registry : Registry) (name : String) : Option Nat :=
  registry.positions.lookup name

/-- An entity of the name is registered. -/
def contains (registry : Registry) (name : String) : Bool :=
  (registry.position? name).isSome

/-- The entity of a name. -/
def get? (registry : Registry) (name : String) : Option Entity :=
  (registry.position? name).bind fun i => registry.entities[i]?

/-- The entity of a name, if it is of the given kind. -/
def getKind? (registry : Registry) (name : String) (kind : Kind) : Option Entity :=
  (registry.get? name).filter (·.kind == kind)

/-- The entities of a kind, in order. -/
def ofKind (registry : Registry) (kind : Kind) : List Entity :=
  registry.entities.filter (·.kind == kind)

/-- The names of the entities, in order. -/
def names (registry : Registry) : List String :=
  registry.entities.map Entity.name

/-- The number of entities. -/
def size (registry : Registry) : Nat :=
  registry.entities.length

/-- Register an entity under its name, which must be new. The registry that is left comes with the
answer, also if the answer is an error. -/
def tryRegister (registry : Registry) (entity : Entity) : Except ResolutionError Unit × Registry :=
  if registry.contains entity.name then (.error (.duplicateEntity entity.name), registry)
  else
    (.ok (),
      { entities := registry.entities ++ [entity]
        positions := (entity.name, registry.entities.length) :: registry.positions })

/-- The registry with an entity registered, or the error that forbids it. -/
def register (registry : Registry) (entity : Entity) : Except ResolutionError Registry :=
  match registry.tryRegister entity with
  | (.ok (), next) => .ok next
  | (.error error, _) => .error error

@[simp] theorem entities_empty : empty.entities = [] := rfl

@[simp] theorem names_empty : empty.names = [] := rfl

@[simp] theorem contains_empty (name : String) : empty.contains name = false := rfl

/-- A registration asks for a new name first, and then adds to the entities and to the index. -/
theorem register_eq (registry : Registry) (entity : Entity) :
    registry.register entity =
      if registry.contains entity.name then .error (.duplicateEntity entity.name)
      else
        .ok
          { entities := registry.entities ++ [entity]
            positions := (entity.name, registry.entities.length) :: registry.positions } := by
  rw [register, tryRegister]
  cases registry.contains entity.name <;> rfl

/-- A registration adds the entity at the end. -/
theorem entities_of_register {registry next : Registry} {entity : Entity}
    (h : registry.register entity = .ok next) :
    next.entities = registry.entities ++ [entity] := by
  rw [register_eq] at h
  split at h
  · cases h
  · cases h; rfl

end Registry

end ModelGraph
