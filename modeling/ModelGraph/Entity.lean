import ModelGraph.Naming
import ModelGraph.TypeRef

/-! # Entities

The nodes of a model: records, inputs, enums and unions, with their fields and members and with the
capabilities that unions give to their members. -/

namespace ModelGraph

/-- What an entity is called: as declared, as resolved, and in which package. -/
structure Definition where
  ident : String
  name : String
  package : String := ""
  deriving DecidableEq, Repr

/-- The resolved name, behind its package if there is one. -/
def Definition.path (definition : Definition) : String :=
  if definition.package = "" then definition.name
  else definition.package ++ "." ++ definition.name

/-- What an entity can stand for: the union of the given name. -/
structure Capability where
  name : String
  package : String := ""
  deriving DecidableEq, Repr

/-- One of the types that a union may be. -/
structure UnionMember where
  ident : String
  type : TypeRef
  deriving DecidableEq, Repr

/-- A field of a record or input, or a member of an enum. Only fields have a type. -/
structure Field where
  ident : String
  name : String
  wireName : String
  type : Option TypeRef := none
  required : Bool := false
  unionTyped : Bool := false
  branches : List UnionMember := []
  deriving DecidableEq, Repr

namespace Field

/-- A field with a type. -/
def typed (name : FieldName) (type : TypeRef) (required : Bool) : Field where
  ident := name.wireName
  name := name.name
  wireName := name.wireName
  type := some type
  required := required

/-- A member of an enum. Members keep their spelling. -/
def member (ident : String) : Field where
  ident := ident
  name := ident
  wireName := ident

/-- The field with the members of the union that is its type. -/
def withBranches (field : Field) (branches : List UnionMember) : Field :=
  { field with unionTyped := true, branches := branches }

/-- The type of the field is a list. -/
def isList (field : Field) : Bool :=
  field.type.any TypeRef.isList

end Field

/-- What an entity consists of. -/
inductive Body where
  | record (fields : List Field)
  | input (fields : List Field)
  | enum (members : List Field)
  | union (members : List UnionMember)
  deriving DecidableEq, Repr

namespace Body

/-- The kind of the entity. -/
def kind : Body → Kind
  | record _ => .record
  | input _ => .input
  | enum _ => .enum
  | union _ => .union

/-- The body of a kind that has nothing in it. -/
def empty : Kind → Body
  | .record => record []
  | .input => input []
  | .enum => enum []
  | .union => union []

/-- Only records and inputs can stand for a union. -/
def acceptsCapabilities : Body → Bool
  | record _ | input _ => true
  | enum _ | union _ => false

/-- The fields of a record or input, or the members of an enum. -/
def fields : Body → List Field
  | record fields | input fields => fields
  | enum members => members
  | union _ => []

/-- The members of a union. -/
def unionMembers? : Body → Option (List UnionMember)
  | union members => some members
  | _ => none

@[simp] theorem kind_empty (kind : Kind) : (empty kind).kind = kind := by
  cases kind <;> rfl

theorem acceptsCapabilities_iff {body : Body} :
    body.acceptsCapabilities = true ↔ body.kind = .record ∨ body.kind = .input := by
  cases body <;> simp [acceptsCapabilities, kind]

end Body

/-- An entity of the model. -/
structure Entity where
  definition : Definition
  capabilities : List Capability := []
  body : Body
  deriving DecidableEq, Repr

namespace Entity

/-- The resolved name. -/
def name (entity : Entity) : String :=
  entity.definition.name

/-- The kind of the entity. -/
def kind (entity : Entity) : Kind :=
  entity.body.kind

/-- How fields and members refer to the entity. -/
def ref (entity : Entity) : EntityRef :=
  ⟨entity.name, entity.kind⟩

/-- The entity can stand for the union of the given name. -/
def implements (entity : Entity) (union : String) : Bool :=
  entity.capabilities.any (·.name == union)

/-- Add a capability, unless one of the same name is there. -/
def appendCapability (entity : Entity) (capability : Capability) : Entity :=
  if entity.implements capability.name then entity
  else { entity with capabilities := entity.capabilities ++ [capability] }

/-- Add capabilities one after the other. -/
def appendCapabilities (entity : Entity) (capabilities : List Capability) : Entity :=
  capabilities.foldl appendCapability entity

@[simp] theorem definition_appendCapability (entity : Entity) (capability : Capability) :
    (entity.appendCapability capability).definition = entity.definition := by
  simp only [appendCapability]; split <;> rfl

@[simp] theorem body_appendCapability (entity : Entity) (capability : Capability) :
    (entity.appendCapability capability).body = entity.body := by
  simp only [appendCapability]; split <;> rfl

@[simp] theorem definition_appendCapabilities (entity : Entity) (capabilities : List Capability) :
    (entity.appendCapabilities capabilities).definition = entity.definition := by
  induction capabilities generalizing entity with
  | nil => rfl
  | cons capability more ih =>
      simpa [appendCapabilities] using ih (entity.appendCapability capability)

@[simp] theorem body_appendCapabilities (entity : Entity) (capabilities : List Capability) :
    (entity.appendCapabilities capabilities).body = entity.body := by
  induction capabilities generalizing entity with
  | nil => rfl
  | cons capability more ih =>
      simpa [appendCapabilities] using ih (entity.appendCapability capability)

end Entity

end ModelGraph
