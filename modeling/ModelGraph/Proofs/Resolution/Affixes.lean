import Mathlib.Data.List.Nodup
import ModelGraph.Proofs.Problem.Count
import ModelGraph.Proofs.Resolution.Delivery

/-! # Affixes of type names

A resolution with affixes runs side by side with one without them. At every step the two contexts
differ by the renaming that puts the affixes around each type name (`Context.Affixed`), in the
registry as well as under the names of the capability store. Hence affixes do nothing but rename
(`resolve_affixed`). -/

namespace ModelGraph

section Rename

variable (change : String → String)

/-- The reference with its target renamed. -/
def TypeRef.rename : TypeRef → TypeRef
  | scalar which => scalar which
  | entity ref => entity { ref with name := change ref.name }
  | unresolved name => unresolved (change name)
  | list inner => list inner.rename

/-- The member with its target renamed. -/
def UnionMember.rename (member : UnionMember) : UnionMember :=
  { member with type := member.type.rename change }

/-- The field with the target of its type and those of its branches renamed. -/
def Field.rename (field : Field) : Field :=
  { field with
    type := field.type.map (·.rename change)
    branches := field.branches.map (·.rename change) }

/-- The body with all targets renamed. Members of enums have none. -/
def Body.rename : Body → Body
  | record fields => record (fields.map (·.rename change))
  | input fields => input (fields.map (·.rename change))
  | enum members => enum members
  | union members => union (members.map (·.rename change))

/-- The capability with its union renamed. -/
def Capability.rename (capability : Capability) : Capability :=
  { capability with name := change capability.name }

/-- The definition under another resolved name. -/
def Definition.rename (definition : Definition) : Definition :=
  { definition with name := change definition.name }

/-- The entity with every type name in it renamed. -/
def Entity.rename (entity : Entity) : Entity where
  definition := entity.definition.rename change
  capabilities := entity.capabilities.map (·.rename change)
  body := entity.body.rename change

/-- The registry with every type name in it renamed, in the index as well. -/
def Registry.rename (registry : Registry) : Registry where
  entities := registry.entities.map (·.rename change)
  positions := registry.positions.map fun (name, i) => (change name, i)

/-- The errors are of one kind. Only a duplicate is reported under its resolved name. -/
inductive ResolutionError.Renamed : ResolutionError → ResolutionError → Prop
  | unsupportedEntity (kind : Kind) (declaration : String) :
      Renamed (.unsupportedEntity kind declaration) (.unsupportedEntity kind declaration)
  | unsupportedDeclaration (declaration : String) :
      Renamed (.unsupportedDeclaration declaration) (.unsupportedDeclaration declaration)
  | duplicateEntity (name : String) :
      Renamed (.duplicateEntity name) (.duplicateEntity (change name))
  | unknownScalar (name target : String) :
      Renamed (.unknownScalar name target) (.unknownScalar name target)
  | unresolvedReferences (first second : ProblemTree) :
      Renamed (.unresolvedReferences first) (.unresolvedReferences second)

/-- Both succeed with related results, or both fail with errors of one kind. -/
inductive Alike {α : Type} (Related : α → α → Prop) :
    Except ResolutionError α → Except ResolutionError α → Prop
  | ok {a b : α} (h : Related a b) : Alike Related (.ok a) (.ok b)
  | error {a b : ResolutionError} (h : a.Renamed change b) : Alike Related (.error a) (.error b)

end Rename

/-- The settings without affixes. -/
def Settings.plain (settings : Settings) : Settings :=
  { settings with
    affixBefore := ""
    affixAfter := "" }

/-- The name between the affixes of the settings. -/
def Settings.affix (settings : Settings) (name : String) : String :=
  settings.affixBefore ++ name ++ settings.affixAfter

section Rename

variable {change : String → String}

@[simp] theorem Entity.name_rename (entity : Entity) :
    (entity.rename change).name = change entity.name := rfl

@[simp] theorem Body.kind_rename (body : Body) : (body.rename change).kind = body.kind := by
  cases body <;> rfl

@[simp] theorem Body.acceptsCapabilities_rename (body : Body) :
    (body.rename change).acceptsCapabilities = body.acceptsCapabilities := by
  cases body <;> rfl

@[simp] theorem Entity.ref_rename (entity : Entity) :
    (entity.rename change).ref = { entity.ref with name := change entity.ref.name } := by
  have hkind : (entity.rename change).kind = entity.kind := entity.body.kind_rename
  rw [ref, hkind]
  rfl

theorem Body.unionMembers?_rename (body : Body) :
    (body.rename change).unionMembers? =
      body.unionMembers?.map (List.map (·.rename change)) := by
  cases body <;> rfl

@[simp] theorem TypeRef.innermost_rename (type : TypeRef) :
    (type.rename change).innermost = type.innermost.rename change := by
  induction type with
  | list inner ih => exact ih
  | _ => rfl

theorem TypeRef.entity?_rename (type : TypeRef) :
    (type.rename change).entity? =
      type.entity?.map fun ref => { ref with name := change ref.name } := by
  rw [entity?, entity?, innermost_rename]
  have hlist := type.isList_innermost
  cases hi : type.innermost with
  | list => rw [hi] at hlist; cases hlist
  | _ => rfl

theorem Body.references_rename (body : Body) :
    (body.rename change).references =
      body.references.map fun (member, type) => (member, type.rename change) := by
  cases body with
  | record fields | input fields =>
      simp only [rename, references, List.filterMap_map, List.map_filterMap]
      refine List.filterMap_congr fun field _ => ?_
      cases field with
      | mk ident name wireName type =>
          cases type <;> rfl
  | enum members => rfl
  | union members =>
      simp [rename, references, UnionMember.rename]

theorem TypeRef.unresolvedName?_rename (type : TypeRef) :
    (type.rename change).unresolvedName? = type.unresolvedName?.map change := by
  rw [unresolvedName?, unresolvedName?, innermost_rename]
  have hlist := type.isList_innermost
  cases hi : type.innermost with
  | list => rw [hi] at hlist; cases hlist
  | _ => rfl

theorem Registry.unresolvedReferences_rename (registry : Registry) :
    (registry.rename change).unresolvedReferences = [] ↔ registry.unresolvedReferences = [] := by
  rw [unresolvedReferences_eq_nil_iff, unresolvedReferences_eq_nil_iff]
  simp [rename, Entity.rename, Body.references_rename, TypeRef.unresolvedName?_rename]

theorem Alike.bind {α β : Type} {R : α → α → Prop} {S : β → β → Prop}
    {first second : Except ResolutionError α} {f g : α → Except ResolutionError β}
    (h : Alike change R first second) (hnext : ∀ a b, R a b → Alike change S (f a) (g b)) :
    Alike change S (first.bind f) (second.bind g) := by
  cases h with
  | ok hr => exact hnext _ _ hr
  | error he => exact .error he

variable (hchange : Function.Injective change)
include hchange

theorem lookup_map_rename {α : Type} (entries : List (String × α)) (name : String) :
    (entries.map fun (name, value) => (change name, value)).lookup (change name) =
      entries.lookup name := by
  induction entries with
  | nil => rfl
  | cons entry rest ih =>
      obtain ⟨key, value⟩ := entry
      have hbeq : (change name == change key) = (name == key) := by
        rw [Bool.eq_iff_iff, beq_iff_eq, beq_iff_eq, hchange.eq_iff]
      rw [List.map_cons, List.lookup_cons, List.lookup_cons, hbeq, ih]

namespace Registry

theorem contains_rename (registry : Registry) (name : String) :
    (registry.rename change).contains (change name) = registry.contains name := by
  rw [contains, contains, position?, position?, rename, lookup_map_rename hchange]

theorem get?_rename (registry : Registry) (name : String) :
    (registry.rename change).get? (change name) =
      (registry.get? name).map (·.rename change) := by
  simp only [get?, position?, rename, lookup_map_rename hchange, List.getElem?_map]
  cases registry.positions.lookup name <;> rfl

end Registry

namespace Entity

theorem implements_rename (entity : Entity) (name : String) :
    (entity.rename change).implements (change name) = entity.implements name := by
  simp only [implements, rename, List.any_map, Function.comp_def, Capability.rename]
  congr 1
  funext capability
  rw [Bool.eq_iff_iff, beq_iff_eq, beq_iff_eq, hchange.eq_iff]

/-- Capabilities may be renamed before they are added or after. -/
theorem rename_appendCapabilities (entity : Entity) (capabilities : List Capability) :
    (entity.appendCapabilities capabilities).rename change =
      (entity.rename change).appendCapabilities (capabilities.map (·.rename change)) := by
  induction capabilities generalizing entity with
  | nil => rfl
  | cons capability more ih =>
      have hstep : (entity.appendCapability capability).rename change =
          (entity.rename change).appendCapability (capability.rename change) := by
        have himplements := implements_rename hchange entity capability.name
        rw [appendCapability, appendCapability, Capability.rename, himplements]
        split
        · rfl
        · simp [rename, Capability.rename]
      have hmore := ih (entity.appendCapability capability)
      rw [hstep] at hmore
      exact hmore

end Entity

end Rename

namespace Settings

variable (settings : Settings)

theorem affix_injective : Function.Injective settings.affix := by
  intro a b h
  have hlist := congrArg String.toList h
  simp only [affix, String.toList_append] at hlist
  exact String.toList_injective (List.append_cancel_left (List.append_cancel_right hlist))

/-- The affixes go around the name that would be resolved without them. -/
theorem typeName_eq_affix (ident : String) :
    settings.naming.typeName ident = settings.affix (settings.plain.naming.typeName ident) := by
  have hbase : settings.naming.baseName = settings.plain.naming.baseName := rfl
  simp only [NamingPolicy.typeName, hbase, affix]
  simp [naming, plain]

/-- What is announced to a name goes to the name with the affixes, renamed. -/
theorem announcements_affix (declaration : Declaration) (target : String) :
    declaration.announcements settings (settings.affix target) =
      (declaration.announcements settings.plain target).map (·.rename settings.affix) := by
  cases declaration with
  | union ident members =>
      simp only [Declaration.announcements, List.map_map, settings.typeName_eq_affix]
      have hsame : (fun member => settings.affix (settings.plain.naming.typeName member) ==
          settings.affix target) =
          fun member => settings.plain.naming.typeName member == target := by
        funext member
        rw [Bool.eq_iff_iff, beq_iff_eq, beq_iff_eq, settings.affix_injective.eq_iff]
      rw [hsame]
      rfl
  | record | input | enum => rfl

end Settings

namespace Context

/-- Custom scalars are refused only for standing for something that is no built-in scalar. -/
theorem exists_unknownScalar {entries : List (String × String)} {error : ResolutionError}
    (h : customScalars entries = .error error) :
    ∃ name target, error = .unknownScalar name target := by
  induction entries with
  | nil => cases h
  | cons entry rest ih =>
      obtain ⟨name, target⟩ := entry
      rw [customScalars] at h
      split at h
      · cases hr : customScalars rest with
        | ok scalars => rw [hr] at h; cases h
        | error other =>
            rw [hr] at h
            cases h
            exact ih hr
      · cases h
        exact ⟨name, target, rfl⟩

/-- The second context is the first with affixes: settings, registry and store differ in nothing but
type names. -/
structure Affixed (settings : Settings) (plain affixed : Context) : Prop where
  settings_plain : plain.settings = settings.plain
  settings_affixed : affixed.settings = settings
  scalars_eq : affixed.scalars = plain.scalars
  registry_eq : affixed.registry = plain.registry.rename settings.affix
  indexed : plain.registry.Indexed
  sound_plain : plain.store.Sound
  sound_affixed : affixed.store.Sound
  announced_eq : ∀ target, affixed.store.announced (settings.affix target) =
    (plain.store.announced target).map (·.rename settings.affix)
  delivered_eq : ∀ target,
    affixed.store.delivered (settings.affix target) = plain.store.delivered target

namespace Affixed

variable {settings : Settings} {plain affixed : Context} (h : Affixed settings plain affixed)
include h

theorem typeName_eq (ident : String) :
    affixed.typeName ident = settings.affix (plain.typeName ident) := by
  rw [typeName, typeName, h.settings_plain, h.settings_affixed]
  exact settings.typeName_eq_affix ident

theorem define_eq (ident : String) :
    affixed.define ident = (plain.define ident).rename settings.affix := by
  simp only [define, h.typeName_eq, Definition.rename, h.settings_plain, h.settings_affixed]
  rfl

theorem resolveEntity_eq (ident : String) :
    affixed.resolveEntity ident = (plain.resolveEntity ident).rename settings.affix := by
  simp only [resolveEntity, h.typeName_eq, h.registry_eq,
    Registry.get?_rename settings.affix_injective]
  cases plain.registry.get? (plain.typeName ident) with
  | none => rfl
  | some entity => exact congrArg TypeRef.entity entity.ref_rename

theorem collapseEnum_eq (type : TypeRef) :
    affixed.collapseEnum (type.rename settings.affix) =
      (plain.collapseEnum type).rename settings.affix := by
  have hflag : affixed.settings.enumsAsStrings = plain.settings.enumsAsStrings := by
    rw [h.settings_plain, h.settings_affixed]
    rfl
  cases type with
  | entity ref =>
      simp only [collapseEnum, TypeRef.rename, hflag]
      split <;> rfl
  | scalar | unresolved | list => rfl

theorem resolveNamed_eq (ident : String) :
    affixed.resolveNamed ident = (plain.resolveNamed ident).rename settings.affix := by
  have hscalar : affixed.scalarOf? ident = plain.scalarOf? ident := by
    simp only [scalarOf?, h.scalars_eq]
  rw [resolveNamed, resolveNamed, hscalar, h.resolveEntity_eq, h.collapseEnum_eq]
  cases plain.scalarOf? ident <;> rfl

theorem resolveType_eq_rename (type : TypeExpr) :
    affixed.resolveType type = (plain.resolveType type).rename settings.affix := by
  induction type with
  | named ident => exact h.resolveNamed_eq ident
  | list inner ih => exact congrArg TypeRef.list ih

/-- The branches of a type are those of the renamed type, renamed. -/
theorem branchesOf?_eq (type : TypeRef) :
    affixed.branchesOf? (type.rename settings.affix) =
      (plain.branchesOf? type).map (List.map (·.rename settings.affix)) := by
  simp only [branchesOf?, TypeRef.entity?_rename, h.registry_eq]
  cases type.entity? with
  | none => rfl
  | some ref =>
      simp only [Option.map_some, Option.bind_eq_bind, Option.bind_some,
        Registry.get?_rename settings.affix_injective]
      split
      · cases plain.registry.get? ref.name with
        | none => rfl
        | some entity => exact entity.body.unionMembers?_rename
      · rfl

theorem resolveField_eq (field : FieldSyntax) :
    affixed.resolveField field = (plain.resolveField field).rename settings.affix := by
  have hname : affixed.settings.naming.fieldName field.ident =
      plain.settings.naming.fieldName field.ident := by
    rw [h.settings_plain, h.settings_affixed]
    rfl
  rw [resolveField, resolveField, hname, h.resolveType_eq_rename, h.branchesOf?_eq]
  cases plain.branchesOf? (plain.resolveType field.type) <;> rfl

theorem bodyOf_eq (declaration : Declaration) :
    affixed.bodyOf declaration = (plain.bodyOf declaration).rename settings.affix := by
  have hfield : affixed.resolveField =
      fun field => (plain.resolveField field).rename settings.affix :=
    funext h.resolveField_eq
  have hmember : affixed.resolveMember =
      fun member => (plain.resolveMember member).rename settings.affix := by
    funext member
    rw [resolveMember, h.resolveEntity_eq]
    rfl
  cases declaration <;> simp [bodyOf, Body.rename, hfield, hmember]

theorem pendingFor_eq (declaration : Declaration) :
    affixed.pendingFor declaration =
      (plain.pendingFor declaration).map (·.rename settings.affix) := by
  cases declaration with
  | record ident fields | input ident fields =>
      simp only [pendingFor, CapabilityStore.deliver_fst, h.typeName_eq, h.announced_eq,
        h.delivered_eq, List.map_drop]
  | enum | union => rfl

theorem entityOf_eq (declaration : Declaration) :
    affixed.entityOf declaration = (plain.entityOf declaration).rename settings.affix := by
  rw [entityOf, entityOf, Entity.rename_appendCapabilities settings.affix_injective,
    h.define_eq, h.bodyOf_eq, h.pendingFor_eq]
  rfl

/-- A declaration keeps the contexts in step: it adds the renamed entity, and both stores change
under the same name. -/
theorem withDeclaration {declaration : Declaration}
    (hnew : plain.registry.contains (plain.typeName declaration.ident) = false) :
    Affixed settings (plain.withDeclaration declaration) (affixed.withDeclaration declaration) := by
  have hspec := storeAfter_spec h.sound_plain declaration
  have hspec' := storeAfter_spec h.sound_affixed declaration
  refine ⟨h.settings_plain, h.settings_affixed, h.scalars_eq, ?_, ?_, (hspec "").1,
    ( hspec' "").1, ?_, ?_⟩
  · simp [Context.withDeclaration, h.registry_eq, h.entityOf_eq, h.typeName_eq, Registry.rename]
  · exact h.indexed.register (register_entityOf hnew)
  · intro target
    show (affixed.storeAfter declaration).announced (settings.affix target) =
      ((plain.storeAfter declaration).announced target).map _
    rw [(hspec target).2.1, (hspec' _).2.1, h.announced_eq, h.settings_plain, h.settings_affixed,
      settings.announcements_affix, List.map_append]
  · intro target
    show (affixed.storeAfter declaration).delivered (settings.affix target) =
      (plain.storeAfter declaration).delivered target
    rw [(hspec target).2.2, (hspec' _).2.2, h.bodyOf_eq, Body.acceptsCapabilities_rename,
      h.typeName_eq, h.announced_eq, h.delivered_eq, List.length_map]
    simp only [settings.affix_injective.eq_iff]

theorem enter (declaration : Declaration) :
    Alike settings.affix (Affixed settings) (plain.enter declaration)
      (affixed.enter declaration) := by
  have hcontains : affixed.registry.contains (affixed.typeName declaration.ident) =
      plain.registry.contains (plain.typeName declaration.ident) := by
    rw [h.registry_eq, h.typeName_eq, Registry.contains_rename settings.affix_injective]
  cases hc : plain.registry.contains (plain.typeName declaration.ident) with
  | false =>
      rw [enter_eq_ok_iff.2 ⟨hc, rfl⟩, enter_eq_ok_iff.2 ⟨hcontains.trans hc, rfl⟩]
      exact .ok (h.withDeclaration hc)
  | true =>
      rw [enter_eq_error_iff.2 ⟨hc, rfl⟩, enter_eq_error_iff.2 ⟨hcontains.trans hc, rfl⟩,
        h.typeName_eq]
      exact .error (.duplicateEntity _)

/-- Late deliveries keep the registries in step. -/
theorem settle_registry_eq :
    affixed.settle.registry = plain.settle.registry.rename settings.affix := by
  have hnames : (affixed.registry.entities.map Entity.name).Nodup := by
    have hplain := h.indexed.nodup_names.map settings.affix_injective
    rw [Registry.names, List.map_map] at hplain
    rw [h.registry_eq, Registry.rename, List.map_map]
    exact hplain
  have hdelivered : plain.settle.registry.entities = _ :=
    entities_deliverAll h.sound_plain h.indexed.nodup_names
  have hdelivered' : affixed.settle.registry.entities = _ :=
    entities_deliverAll h.sound_affixed hnames
  have hentities : affixed.settle.registry.entities =
      plain.settle.registry.entities.map (·.rename settings.affix) := by
    rw [hdelivered, hdelivered', h.registry_eq, Registry.rename, List.map_map, List.map_map]
    refine List.map_congr_left fun entity _ => ?_
    have haccepts : (entity.rename settings.affix).body.acceptsCapabilities =
        entity.body.acceptsCapabilities := entity.body.acceptsCapabilities_rename
    simp only [Function.comp_apply, Entity.name_rename, h.announced_eq, h.delivered_eq,
      ← List.map_drop, haccepts]
    split
    · rw [Entity.rename_appendCapabilities settings.affix_injective]
    · rfl
  have hpositions : affixed.settle.registry.positions =
      plain.settle.registry.positions.map fun (name, i) => (settings.affix name, i) := by
    show affixed.registry.positions = _
    rw [h.registry_eq]
    rfl
  rw [Registry.rename, ← hentities, ← hpositions]

/-- Chunks are resolved in step, up to the first error. -/
theorem outcome_resolveAll (chunks : List String) :
    Alike settings.affix (Affixed settings)
      (Resolver.resolveAll Parser.builtin plain chunks).outcome
      (Resolver.resolveAll Parser.builtin affixed chunks).outcome := by
  induction chunks generalizing plain affixed with
  | nil => exact .ok h
  | cons chunk rest ih =>
      rw [Resolver.outcome_resolveAll_cons, Resolver.outcome_resolveAll_cons]
      cases Declaration.ofChunk? chunk with
      | some declaration => exact (h.enter declaration).bind fun _ _ hnext => ih hnext
      | none =>
          rw [Resolver.refusal]
          cases Kind.ofDeclaration? (normalize chunk) with
          | some kind => exact .error (.unsupportedEntity kind chunk)
          | none => exact .error (.unsupportedDeclaration chunk)

/-- The demand that references are resolved is met with affixes if it is met without them. -/
theorem conclude_settle :
    Alike settings.affix (fun first second => second = first.rename settings.affix)
      (Resolver.conclude plain.settle) (Resolver.conclude affixed.settle) := by
  have hsettings : plain.settle.settings = settings.plain := h.settings_plain
  have hsettings' : affixed.settle.settings = settings := h.settings_affixed
  have hstrict : settings.plain.strictReferences = settings.strictReferences := rfl
  have hresolved : affixed.settle.registry.checkReferences = .ok () ↔
      plain.settle.registry.checkReferences = .ok () := by
    rw [Registry.checkReferences_eq_ok_iff, Registry.checkReferences_eq_ok_iff,
      h.settle_registry_eq, Registry.unresolvedReferences_rename]
  rw [Resolver.conclude, Resolver.conclude, hsettings, hsettings', hstrict]
  split
  · cases hc : plain.settle.registry.checkReferences with
    | ok =>
        rw [hresolved.2 hc]
        exact .ok h.settle_registry_eq
    | error problems =>
        cases hc' : affixed.settle.registry.checkReferences with
        | ok =>
            rw [hresolved.1 hc'] at hc
            cases hc
        | error problems' => exact .error (.unresolvedReferences problems problems')
  · exact .ok h.settle_registry_eq

end Affixed

/-- Resolutions with and without affixes start in step. -/
theorem affixed_ofSettings (settings : Settings) :
    Alike settings.affix (Affixed settings) (ofSettings settings.plain) (ofSettings settings) := by
  have hscalars : settings.plain.scalars = settings.scalars := rfl
  rw [ofSettings, ofSettings, hscalars]
  cases hc : customScalars settings.scalars with
  | ok scalars =>
      refine .ok ⟨rfl, rfl, rfl, rfl, Registry.indexed_empty, CapabilityStore.sound_empty,
        CapabilityStore.sound_empty, fun target => ?_, fun target => ?_⟩ <;> simp
  | error error =>
      obtain ⟨name, target, rfl⟩ := exists_unknownScalar hc
      exact .error (.unknownScalar name target)

end Context

/-- Affixes rename and do nothing else. With affixes a document is resolved if it is resolved
without them, into the registry in which they stand around every type name; otherwise it is refused
for the same cause, a duplicate under its name with affixes. -/
theorem resolve_affixed (document : String) (settings : Settings) :
    Alike settings.affix (fun plain affixed => affixed = plain.rename settings.affix)
      (resolve document settings.plain) (resolve document settings) := by
  have hchunks : settings.plain.chunks document = settings.chunks document := rfl
  rw [resolve_eq, resolve_eq, hchunks]
  exact (Context.affixed_ofSettings settings).bind fun _ _ hstart =>
    (hstart.outcome_resolveAll _).bind fun _ _ hlast => hlast.conclude_settle

-- The affixes stand around the names of declarations, references and capabilities, found or not.
example :
    (resolve "type a \x7b b: B id: ID \x7d union U = a"
        { affixBefore := "My", affixAfter := "Dto" }).toOption.map Registry.entities =
      some
        [ { definition := ⟨"a", "MyADto", ""⟩
            capabilities := [⟨"MyUDto", ""⟩]
            body := .record
              [ .typed ⟨"b", "b"⟩ (.unresolved "MyBDto") false,
                .typed ⟨"id", "id"⟩ (.scalar .id) false ] },
          { definition := ⟨"U", "MyUDto", ""⟩
            body := .union [⟨"a", .entity ⟨"MyADto", .record⟩⟩] } ] := by
  decide +kernel

end ModelGraph
