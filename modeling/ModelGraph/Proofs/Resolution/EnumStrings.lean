import Mathlib.Data.List.Basic
import ModelGraph.Proofs.Resolution.Entering

/-! # Enums taken for strings

A resolution that takes enums for strings runs beside one that does not. Collapsing the registry of
the second gives the registry of the first after every declaration, for a collapsed reference is
read in no later step (`Context.enter_collapsing`). Hence the flag is a rewrite of the result, and
errors do not depend on it (`resolve_enumsAsStrings`). -/

namespace ModelGraph

section Collapse

/-- A reference to an enum becomes the scalar for strings. Others stay. -/
def TypeRef.collapseEnum : TypeRef → TypeRef
  | entity ref => if ref.kind = .enum then scalar .string else entity ref
  | type => type

/-- The field with its innermost type collapsed, under the same lists. Branches stay. -/
def Field.collapseEnums (field : Field) : Field :=
  { field with type := field.type.map (·.mapInnermost TypeRef.collapseEnum) }

/-- The body with the types of its fields collapsed. Enums and unions stay as they are. -/
def Body.collapseEnums : Body → Body
  | record fields => record (fields.map Field.collapseEnums)
  | input fields => input (fields.map Field.collapseEnums)
  | enum members => enum members
  | union members => union members

/-- The entity with the types of its fields collapsed. -/
def Entity.collapseEnums (entity : Entity) : Entity :=
  { entity with body := entity.body.collapseEnums }

/-- The registry with the types of all fields collapsed. -/
def Registry.collapseEnums (registry : Registry) : Registry :=
  { registry with entities := registry.entities.map Entity.collapseEnums }

/-- The context of the resolution that takes enums for strings. -/
def Context.collapsing (context : Context) : Context :=
  { context with
    settings := { context.settings with enumsAsStrings := true }
    registry := context.registry.collapseEnums }

end Collapse

/-- If two steps agree after a change and before it, so do two computations that go on with them. -/
theorem bind_map_eq {ε α β γ δ : Type} {first : Except ε α} {change : α → β}
    {next : β → Except ε γ} {next' : α → Except ε δ} {change' : δ → γ}
    (h : ∀ value, first = .ok value → next (change value) = (next' value).map change') :
    (first.map change).bind next = (first.bind next').map change' := by
  cases first with
  | error error => rfl
  | ok value => exact h value rfl

namespace Body

@[simp] theorem kind_collapseEnums (body : Body) : body.collapseEnums.kind = body.kind := by
  cases body <;> rfl

@[simp] theorem acceptsCapabilities_collapseEnums (body : Body) :
    body.collapseEnums.acceptsCapabilities = body.acceptsCapabilities := by
  cases body <;> rfl

@[simp] theorem unionMembers?_collapseEnums (body : Body) :
    body.collapseEnums.unionMembers? = body.unionMembers? := by
  cases body <;> rfl

end Body

namespace Entity

@[simp] theorem name_collapseEnums (entity : Entity) :
    entity.collapseEnums.name = entity.name := rfl

@[simp] theorem ref_collapseEnums (entity : Entity) : entity.collapseEnums.ref = entity.ref := by
  have hkind : entity.collapseEnums.kind = entity.kind := entity.body.kind_collapseEnums
  rw [ref, hkind]
  rfl

/-- Capabilities may be added before the types are collapsed or after. -/
theorem collapseEnums_appendCapabilities (entity : Entity) (capabilities : List Capability) :
    (entity.appendCapabilities capabilities).collapseEnums =
      entity.collapseEnums.appendCapabilities capabilities := by
  induction capabilities generalizing entity with
  | nil => rfl
  | cons capability more ih =>
      have hstep : (entity.appendCapability capability).collapseEnums =
          entity.collapseEnums.appendCapability capability := by
        have himplements : entity.collapseEnums.implements capability.name =
            entity.implements capability.name := rfl
        rw [appendCapability, appendCapability, himplements]
        split <;> rfl
      have hmore := ih (entity.appendCapability capability)
      rw [hstep] at hmore
      exact hmore

end Entity

namespace TypeRef

/-- No enum is an unresolved name. -/
theorem unresolvedName?_collapseEnum (type : TypeRef) :
    (type.mapInnermost collapseEnum).unresolvedName? = type.unresolvedName? := by
  induction type with
  | list inner ih => exact ih
  | entity ref =>
      simp only [mapInnermost, collapseEnum]
      split <;> rfl
  | scalar | unresolved => rfl

end TypeRef

namespace Registry

theorem get?_collapseEnums (registry : Registry) (name : String) :
    registry.collapseEnums.get? name = (registry.get? name).map Entity.collapseEnums := by
  have hposition : registry.collapseEnums.position? name = registry.position? name := rfl
  rw [get?, get?, hposition]
  cases registry.position? name with
  | none => rfl
  | some i => exact List.getElem?_map

/-- An entity leaves the same references unresolved. -/
theorem unresolvedOf_collapseEnums (registry : Registry) (entity : Entity) :
    registry.collapseEnums.unresolvedOf entity.collapseEnums = registry.unresolvedOf entity := by
  have hstatus : registry.collapseEnums.statusOf = registry.statusOf := rfl
  obtain ⟨definition, capabilities, body⟩ := entity
  cases body with
  | enum | union => rfl
  | record fields | input fields =>
      simp only [unresolvedOf, Entity.collapseEnums, Body.collapseEnums, Body.references,
        List.filterMap_map, List.filterMap_filterMap, hstatus]
      apply List.filterMap_congr
      intro field _
      cases htype : field.type with
      | none => simp [Field.collapseEnums, htype]
      | some type =>
          simp [Field.collapseEnums, htype, TypeRef.unresolvedName?_collapseEnum, Entity.name]

theorem unresolvedReferences_collapseEnums (registry : Registry) :
    registry.collapseEnums.unresolvedReferences = registry.unresolvedReferences := by
  have hentities : registry.collapseEnums.entities =
      registry.entities.map Entity.collapseEnums := rfl
  rw [unresolvedReferences, unresolvedReferences, hentities, List.flatMap_map]
  exact List.flatMap_congr fun entity _ => registry.unresolvedOf_collapseEnums entity

/-- The check of references has the same verdict, with the same problems. -/
theorem checkReferences_collapseEnums (registry : Registry) :
    registry.collapseEnums.checkReferences = registry.checkReferences := by
  simp only [checkReferences, referenceProblems, reportReferences,
    unresolvedReferences_collapseEnums]

end Registry

namespace Context

section Resolve

variable (context : Context)

@[simp] theorem typeName_collapsing (ident : String) :
    context.collapsing.typeName ident = context.typeName ident := rfl

theorem resolveEntity_collapsing (ident : String) :
    context.collapsing.resolveEntity ident = context.resolveEntity ident := by
  have hget := context.registry.get?_collapseEnums (context.typeName ident)
  rw [resolveEntity, resolveEntity, typeName_collapsing]
  simp only [collapsing, hget]
  cases context.registry.get? (context.typeName ident) with
  | none => rfl
  | some entity => exact congrArg TypeRef.entity entity.ref_collapseEnums

/-- A union has the same members in both registries, and an enum has none. -/
theorem branchesOf?_collapsing (type : TypeRef) :
    context.collapsing.branchesOf? (type.mapInnermost TypeRef.collapseEnum) =
      context.branchesOf? type := by
  induction type with
  | list inner ih => exact ih
  | scalar | unresolved => rfl
  | entity ref =>
      simp only [TypeRef.mapInnermost, TypeRef.collapseEnum]
      split
      · next henum => simp [branchesOf?, TypeRef.entity?, TypeRef.innermost, henum]
      · simp only [branchesOf?, TypeRef.entity?, TypeRef.innermost, Option.bind_eq_bind,
          Option.bind_some, collapsing, Registry.get?_collapseEnums]
        split
        · cases context.registry.get? ref.name with
          | none => rfl
          | some entity => exact entity.body.unionMembers?_collapseEnums
        · rfl

theorem pendingFor_collapsing (declaration : Declaration) :
    context.collapsing.pendingFor declaration = context.pendingFor declaration := by
  cases declaration <;> rfl

theorem storeAfter_collapsing (declaration : Declaration) :
    context.collapsing.storeAfter declaration = context.storeAfter declaration := by
  cases declaration <;> rfl

variable {context} (hoff : context.settings.enumsAsStrings = false)
include hoff

/-- Only where a field refers to a type does the flag take part. -/
theorem resolveNamed_collapsing (ident : String) :
    context.collapsing.resolveNamed ident =
      (context.resolveNamed ident).mapInnermost TypeRef.collapseEnum := by
  have hscalar : context.collapsing.scalarOf? ident = context.scalarOf? ident := rfl
  rw [resolveNamed, resolveNamed, hscalar, resolveEntity_collapsing]
  cases context.scalarOf? ident with
  | some scalar => rfl
  | none =>
      simp only [resolveEntity]
      split
      · simp [collapseEnum, collapsing, TypeRef.mapInnermost, TypeRef.collapseEnum, hoff]
      · rfl

theorem resolveType_collapsing (type : TypeExpr) :
    context.collapsing.resolveType type =
      (context.resolveType type).mapInnermost TypeRef.collapseEnum := by
  induction type with
  | list inner ih => exact congrArg TypeRef.list ih
  | named ident => exact resolveNamed_collapsing hoff ident

theorem resolveField_collapsing (field : FieldSyntax) :
    context.collapsing.resolveField field = (context.resolveField field).collapseEnums := by
  have hname : context.collapsing.settings.naming = context.settings.naming := rfl
  rw [resolveField, resolveField, hname, resolveType_collapsing hoff, branchesOf?_collapsing]
  cases context.branchesOf? (context.resolveType field.type) <;> rfl

theorem bodyOf_collapsing (declaration : Declaration) :
    context.collapsing.bodyOf declaration = (context.bodyOf declaration).collapseEnums := by
  have hfield : context.collapsing.resolveField = Field.collapseEnums ∘ context.resolveField :=
    funext (resolveField_collapsing hoff)
  have hmember : context.collapsing.resolveMember = context.resolveMember := by
    funext ident
    rw [resolveMember, resolveMember, resolveEntity_collapsing]
  cases declaration <;> simp [bodyOf, Body.collapseEnums, hfield, hmember]

theorem entityOf_collapsing (declaration : Declaration) :
    context.collapsing.entityOf declaration = (context.entityOf declaration).collapseEnums := by
  rw [entityOf, entityOf, Entity.collapseEnums_appendCapabilities, bodyOf_collapsing hoff,
    pendingFor_collapsing]
  rfl

theorem withDeclaration_collapsing (declaration : Declaration) :
    context.collapsing.withDeclaration declaration =
      (context.withDeclaration declaration).collapsing := by
  have hentity := entityOf_collapsing hoff declaration
  have hstore := context.storeAfter_collapsing declaration
  have hlength : context.collapsing.registry.entities.length =
      context.registry.entities.length := List.length_map _
  simp only [withDeclaration, hentity, hstore, hlength, typeName_collapsing]
  simp [collapsing, Registry.collapseEnums]

/-- A declaration is entered in both resolutions or in neither, and keeps them in step. -/
theorem enter_collapsing (declaration : Declaration) :
    context.collapsing.enter declaration = (context.enter declaration).map collapsing := by
  have hcontains : context.collapsing.registry.contains
      (context.collapsing.typeName declaration.ident) =
        context.registry.contains (context.typeName declaration.ident) := rfl
  cases hc : context.registry.contains (context.typeName declaration.ident) with
  | false =>
      rw [enter_eq_ok_iff.2 ⟨hc, rfl⟩, enter_eq_ok_iff.2 ⟨hcontains.trans hc, rfl⟩,
        withDeclaration_collapsing hoff]
      rfl
  | true =>
      rw [enter_eq_error_iff.2 ⟨hc, rfl⟩, enter_eq_error_iff.2 ⟨hcontains.trans hc, rfl⟩]
      rfl

/-- The resolutions are in step after any number of chunks. -/
theorem outcome_resolveAll_collapsing (chunks : List String) :
    (Resolver.resolveAll Parser.builtin context.collapsing chunks).outcome =
      (Resolver.resolveAll Parser.builtin context chunks).outcome.map collapsing := by
  induction chunks generalizing context with
  | nil => rfl
  | cons chunk rest ih =>
      rw [Resolver.outcome_resolveAll_cons, Resolver.outcome_resolveAll_cons]
      cases Declaration.ofChunk? chunk with
      | none => rfl
      | some declaration =>
          simp only [enter_collapsing hoff]
          apply bind_map_eq
          intro next hnext
          apply ih
          rw [(enter_eq_ok_iff.1 hnext).2]
          exact hoff

end Resolve

/-- Resolutions with and without the flag start in step. -/
theorem ofSettings_collapsing (settings : Settings) :
    ofSettings { settings with enumsAsStrings := true } =
      (ofSettings { settings with enumsAsStrings := false }).map collapsing := by
  rw [ofSettings, ofSettings]
  cases customScalars settings.scalars <;> rfl

theorem deliverAll_collapseEnums (store : CapabilityStore) (entities : List Entity) :
    deliverAll store (entities.map Entity.collapseEnums) =
      ((deliverAll store entities).1.map Entity.collapseEnums, (deliverAll store entities).2) := by
  induction entities generalizing store with
  | nil => rfl
  | cons entity rest ih =>
      have haccepts : entity.collapseEnums.body.acceptsCapabilities =
          entity.body.acceptsCapabilities := entity.body.acceptsCapabilities_collapseEnums
      simp only [List.map_cons, deliverAll, haccepts, Entity.name_collapseEnums, ih]
      split
      · simp [Entity.collapseEnums_appendCapabilities]
      · rfl

theorem settle_collapsing (context : Context) :
    context.collapsing.settle = context.settle.collapsing := by
  simp only [settle, collapsing, Registry.collapseEnums, deliverAll_collapseEnums]

theorem conclude_collapsing (context : Context) :
    Resolver.conclude context.collapsing =
      (Resolver.conclude context).map Registry.collapseEnums := by
  have hstrict : context.collapsing.settings.strictReferences =
      context.settings.strictReferences := rfl
  have hcheck : context.collapsing.registry.checkReferences =
      context.registry.checkReferences := context.registry.checkReferences_collapseEnums
  rw [Resolver.conclude, Resolver.conclude, hstrict, hcheck]
  split
  · split <;> rfl
  · rfl

end Context

/-- Taking enums for strings rewrites the types of fields in the result and does nothing else: the
registry is the one that is resolved without the flag, with every innermost reference of a field to
an enum replaced, and a document that is refused is refused for the same reason. -/
theorem resolve_enumsAsStrings (document : String) (settings : Settings) :
    resolve document { settings with enumsAsStrings := true } =
      (resolve document { settings with enumsAsStrings := false }).map Registry.collapseEnums := by
  have hchunks : ({ settings with enumsAsStrings := true } : Settings).chunks document =
      ({ settings with enumsAsStrings := false } : Settings).chunks document := rfl
  rw [resolve_eq, resolve_eq, hchunks, Context.ofSettings_collapsing]
  apply bind_map_eq
  intro start hstart
  have hoff : start.settings.enumsAsStrings = false := by
    obtain ⟨scalars, -, rfl⟩ := Context.ofSettings_eq_ok_iff.1 hstart
    rfl
  rw [Context.outcome_resolveAll_collapsing hoff]
  apply bind_map_eq
  intro last _
  rw [Context.settle_collapsing, Context.conclude_collapsing]

-- The field that refers to the enum is a string, the member of the union still refers to it.
example :
    (resolve "enum E \x7b A \x7d type R \x7b e: [E] \x7d union U = E"
        { enumsAsStrings := true }).toOption.map (·.entities.map Entity.body) =
      some
        [ .enum [.member "A"], .record [.typed ⟨"e", "e"⟩ (.list (.scalar .string)) false],
          .union [⟨"E", .entity ⟨"E", .enum⟩⟩] ] := by
  decide +kernel

end ModelGraph
