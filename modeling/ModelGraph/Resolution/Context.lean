import ModelGraph.Capability.Store
import ModelGraph.Declaration.Reader
import ModelGraph.Registry

/-! # Resolution context

What a resolution knows so far: the settings, the entities registered, and the capabilities
announced. References are looked up among the entities registered so far; what is not there stays a
name. -/

namespace ModelGraph

/-- The state of a resolution. -/
structure Context where
  settings : Settings
  scalars : List (String × Scalar) := []
  registry : Registry := .empty
  store : CapabilityStore := {}
  deriving Repr

/-- The custom scalars of the settings, each with the built-in scalar that stands for it. The first
one that stands for no built-in scalar is an error. -/
def customScalars : List (String × String) → Except ResolutionError (List (String × Scalar))
  | [] => .ok []
  | (name, target) :: rest =>
      match Scalar.ofName? target with
      | some scalar => (customScalars rest).map ((name, scalar) :: ·)
      | none => .error (.unknownScalar name target)

namespace Context

/-- The context of a resolution that has not begun. -/
def ofSettings (settings : Settings) : Except ResolutionError Context :=
  (customScalars settings.scalars).map fun scalars =>
    { settings := settings
      scalars := scalars }

/-- The resolved name of a declared type name. -/
def typeName (context : Context) (ident : String) : String :=
  context.settings.naming.typeName ident

/-- What an entity declared under a name is called. -/
def define (context : Context) (ident : String) : Definition where
  ident := ident
  name := context.typeName ident
  package := context.settings.package

/-- Look a declared name up among the entities. -/
def resolveEntity (context : Context) (ident : String) : TypeRef :=
  match context.registry.get? (context.typeName ident) with
  | some entity => .entity entity.ref
  | none => .unresolved (context.typeName ident)

/-- The scalar of a declared name: a built-in one, else a custom one. -/
def scalarOf? (context : Context) (ident : String) : Option Scalar :=
  (Scalar.ofName? ident).or (context.scalars.lookup ident)

/-- Take an enum for a string if the settings say so. -/
def collapseEnum (context : Context) (type : TypeRef) : TypeRef :=
  match type with
  | .entity ref =>
      if ref.kind = .enum && context.settings.enumsAsStrings then .scalar .string else type
  | _ => type

/-- Resolve a declared type name: scalars first, then entities. -/
def resolveNamed (context : Context) (ident : String) : TypeRef :=
  match context.scalarOf? ident with
  | some scalar => .scalar scalar
  | none => context.collapseEnum (context.resolveEntity ident)

/-- Resolve a type as it is written. -/
def resolveType (context : Context) : TypeExpr → TypeRef
  | .named ident => context.resolveNamed ident
  | .list inner => .list (context.resolveType inner)

/-- The members of the union that a type refers to, if it refers to one. -/
def branchesOf? (context : Context) (type : TypeRef) : Option (List UnionMember) := do
  let ref ← type.entity?
  if ref.kind = .union then
    (← context.registry.get? ref.name).body.unionMembers?
  else none

/-- Resolve a field. A field of a union type carries the members of the union. -/
def resolveField (context : Context) (syntaxOf : FieldSyntax) : Field :=
  let type := context.resolveType syntaxOf.type
  let field :=
    Field.typed (context.settings.naming.fieldName syntaxOf.ident) type syntaxOf.required
  match context.branchesOf? type with
  | some branches => field.withBranches branches
  | none => field

/-- Resolve a member of a union. -/
def resolveMember (context : Context) (ident : String) : UnionMember :=
  ⟨ident, context.resolveEntity ident⟩

/-- Give an entity all capabilities that are pending for its name. -/
def attachPending (context : Context) (entity : Entity) : Entity × Context :=
  let (capabilities, store) := context.store.deliver entity.name
  (entity.appendCapabilities capabilities, { context with store := store })

/-- Announce a union to its members. -/
def announceUnion (context : Context) (union : Definition) (members : List String) : Context :=
  { context with
    store := members.foldl
      (fun store member =>
        store.announce (context.typeName member) ⟨union.name, union.package⟩)
      context.store }

/-- Resolve a declaration. The entity is not yet registered. -/
def resolveDeclaration (context : Context) : Declaration → Entity × Context
  | .record ident fields =>
      context.attachPending
        { definition := context.define ident
          body := .record (fields.map context.resolveField) }
  | .input ident fields =>
      context.attachPending
        { definition := context.define ident
          body := .input (fields.map context.resolveField) }
  | .enum ident members =>
      ({ definition := context.define ident
         body := .enum (members.map Field.member) }, context)
  | .union ident members =>
      ({ definition := context.define ident
         body := .union (members.map context.resolveMember) },
        context.announceUnion (context.define ident) members)

/-- Register an entity. -/
def register (context : Context) (entity : Entity) : Except ResolutionError Context :=
  (context.registry.register entity).map fun registry => { context with registry := registry }

/-- Deliver what is pending to those of the entities that accept capabilities, in order. -/
def deliverAll (store : CapabilityStore) : List Entity → List Entity × CapabilityStore
  | [] => ([], store)
  | entity :: rest =>
      if entity.body.acceptsCapabilities then
        let (capabilities, next) := store.deliver entity.name
        let (others, final) := deliverAll next rest
        (entity.appendCapabilities capabilities :: others, final)
      else
        let (others, final) := deliverAll store rest
        (entity :: others, final)

/-- Deliver what was announced after its target was registered. What is then still pending has no
target that accepts it. -/
def settle (context : Context) : Context :=
  let (entities, store) := deliverAll context.store context.registry.entities
  { context with
    registry := { context.registry with entities := entities }
    store := store }

end Context

end ModelGraph
