import ModelGraph.Proofs.Capability.Ledger
import ModelGraph.Proofs.Resolution.Entering

/-! # Delivery of capabilities

A union announces itself to its members wherever they stand in the document. A record or input takes
what is pending when it is entered; what comes later is delivered at the end. Whatever the order, it
ends with the capability of every union that lists it, once each, in the order of the unions
(`capabilities_of_resolve`). -/

namespace ModelGraph

/-- The capability that an entity gives to the entity of the name `target`: a union gives itself to
all its members. -/
def Entity.capabilityFor? (settings : Settings) (target : String) (entity : Entity) :
    Option Capability :=
  match entity.body with
  | .union members =>
      if members.any fun member => settings.naming.typeName member.ident == target then
        some ⟨entity.name, settings.package⟩
      else none
  | _ => none

/-- The capabilities that the unions of a registry give to the entity of a name, in the order of
registration. -/
def Registry.capabilitiesFor (registry : Registry) (settings : Settings) (target : String) :
    List Capability :=
  registry.entities.filterMap (Entity.capabilityFor? settings target)

namespace Declaration

/-- What a declaration announces to a name: a union itself, as often as it lists the name. -/
def announcements (settings : Settings) (target : String) : Declaration → List Capability
  | union ident members =>
      (members.filter fun member => settings.naming.typeName member == target).map fun _ =>
        ⟨settings.naming.typeName ident, settings.package⟩
  | _ => []

theorem eq_of_mem_announcements (settings : Settings) (target : String) (declaration : Declaration)
    {capability : Capability} (h : capability ∈ declaration.announcements settings target) :
    capability = ⟨settings.naming.typeName declaration.ident, settings.package⟩ := by
  cases declaration with
  | union ident members =>
      obtain ⟨member, -, rfl⟩ := List.mem_map.1 h
      rfl
  | _ => cases h

/-- The entity of a declaration gives what the declaration announces first. -/
theorem capabilityFor?_entityOf (context : Context) (target : String) (declaration : Declaration) :
    (context.entityOf declaration).capabilityFor? context.settings target =
      (declaration.announcements context.settings target).head? := by
  rw [Entity.capabilityFor?, Context.body_entityOf, Context.name_entityOf]
  cases declaration with
  | union ident members =>
      simp only [Context.bodyOf, announcements, List.any_map, List.head?_map, Function.comp_def,
        Context.resolveMember, List.head?_filter, Context.typeName, Declaration.ident]
      cases hf : members.find? fun member => context.settings.naming.typeName member == target with
      | none => simpa using hf
      | some member =>
          have hm := List.find?_some hf
          rw [if_pos (List.any_eq_true.2 ⟨member, List.mem_of_find?_eq_some hf, hm⟩)]
          rfl
  | _ => rfl

end Declaration

namespace Entity

theorem appendCapabilities_append (entity : Entity) (first second : List Capability) :
    entity.appendCapabilities (first ++ second) =
      (entity.appendCapabilities first).appendCapabilities second :=
  List.foldl_append

/-- A capability that an entity has is not added again. -/
theorem appendCapabilities_eq_self {entity : Entity} {capabilities : List Capability}
    (h : ∀ capability ∈ capabilities, entity.implements capability.name = true) :
    entity.appendCapabilities capabilities = entity := by
  induction capabilities with
  | nil => rfl
  | cons capability more ih =>
      have hstep : entity.appendCapability capability = entity := by
        rw [appendCapability, if_pos (h capability (by simp))]
      rw [appendCapabilities, List.foldl_cons, hstep]
      exact ih fun other hother => h other (by simp [hother])

/-- Of equal capabilities that an entity does not have, one is added. -/
theorem capabilities_appendCapabilities_same {entity : Entity} {capability : Capability}
    {block : List Capability} (hsame : ∀ other ∈ block, other = capability)
    (hnew : entity.implements capability.name = false) :
    (entity.appendCapabilities block).capabilities =
      entity.capabilities ++ block.head?.toList := by
  cases block with
  | nil => simp [appendCapabilities]
  | cons first more =>
      obtain rfl : first = capability := hsame first (by simp)
      have hadded : entity.appendCapability first =
          { entity with capabilities := entity.capabilities ++ [first] } := by
        rw [appendCapability, hnew]
        rfl
      have hrest : (entity.appendCapability first).appendCapabilities more =
          entity.appendCapability first := by
        refine appendCapabilities_eq_self fun other hother => ?_
        rw [hsame other (by simp [hother]), hadded]
        simp [implements]
      rw [show entity.appendCapabilities (first :: more) =
        (entity.appendCapability first).appendCapabilities more from rfl, hrest, hadded]
      rfl

/-- Of blocks of equal capabilities, each under a name of its own, one of each is added. -/
theorem capabilities_appendCapabilities_flatMap {α : Type} {block : α → List Capability}
    {common : α → Capability} (hsame : ∀ a, ∀ capability ∈ block a, capability = common a)
    (sources : List α) (hnodup : (sources.map fun a => (common a).name).Nodup) (entity : Entity)
    (hnew : ∀ a ∈ sources, entity.implements (common a).name = false) :
    (entity.appendCapabilities (sources.flatMap block)).capabilities =
      entity.capabilities ++ sources.filterMap fun a => (block a).head? := by
  induction sources generalizing entity with
  | nil => simp [appendCapabilities]
  | cons a rest ih =>
      rw [List.map_cons, List.nodup_cons] at hnodup
      have hfirst := capabilities_appendCapabilities_same (hsame a) (hnew a (by simp))
      -- the capability just added has a name that none of the other blocks has
      have hstill : ∀ b ∈ rest,
          (entity.appendCapabilities (block a)).implements (common b).name = false := by
        intro b hb
        have hne : (common a).name ≠ (common b).name := fun heq =>
          hnodup.1 (heq ▸ List.mem_map_of_mem hb)
        have hentity := hnew b (by simp [hb])
        simp only [implements, hfirst, List.any_append, Bool.or_eq_false_iff]
        refine ⟨hentity, ?_⟩
        cases hh : (block a).head? with
        | none => rfl
        | some capability =>
            have hc := hsame a capability (List.mem_of_mem_head? hh)
            simpa [hc] using hne
      rw [List.flatMap_cons, appendCapabilities_append, ih hnodup.2 _ hstill, hfirst,
        List.filterMap_cons]
      cases (block a).head? <;> simp

/-- The capabilities of an entity keep distinct names. -/
theorem nodup_appendCapabilities {entity : Entity} (capabilities : List Capability)
    (h : (entity.capabilities.map Capability.name).Nodup) :
    ((entity.appendCapabilities capabilities).capabilities.map Capability.name).Nodup := by
  induction capabilities generalizing entity with
  | nil => exact h
  | cons capability more ih =>
      suffices hnext : ((entity.appendCapability capability).capabilities.map
          Capability.name).Nodup from ih hnext
      rw [appendCapability]
      split
      · exact h
      · next hnew =>
        have hnew' : ∀ other ∈ entity.capabilities, other.name ≠ capability.name := by
          simpa [implements] using hnew
        rw [List.map_append, List.nodup_append]
        refine ⟨h, by simp, ?_⟩
        intro name hname other hother
        obtain ⟨found, hfound, rfl⟩ := List.mem_map.1 hname
        rw [List.map_singleton, List.mem_singleton] at hother
        rw [hother]
        exact hnew' found hfound

/-- Of capabilities that are told apart by their names, all are added. -/
theorem mem_capabilities_appendCapabilities {entity : Entity} {capabilities : List Capability}
    (hsame : ∀ a ∈ entity.capabilities ++ capabilities, ∀ b ∈ entity.capabilities ++ capabilities,
      a.name = b.name → a = b) {capability : Capability} :
    capability ∈ (entity.appendCapabilities capabilities).capabilities ↔
      capability ∈ entity.capabilities ++ capabilities := by
  induction capabilities generalizing entity with
  | nil => simp [appendCapabilities]
  | cons first more ih =>
      have hstep : ∀ other, other ∈ (entity.appendCapability first).capabilities ↔
          other ∈ entity.capabilities ∨ other = first := by
        intro other
        rw [appendCapability]
        split
        · next hhas =>
          -- the capability of the same name that is there is the one to add
          obtain ⟨found, hfound, hname⟩ := List.any_eq_true.1 hhas
          have heq : found = first := hsame found (by simp [hfound]) first (by simp)
            (beq_iff_eq.1 hname)
          constructor
          · exact .inl
          · rintro (hother | rfl)
            · exact hother
            · exact heq ▸ hfound
        · simp
      have hmem : ∀ other, other ∈ (entity.appendCapability first).capabilities ++ more ↔
          other ∈ entity.capabilities ++ first :: more := by
        intro other
        simp only [List.mem_append, hstep, List.mem_cons, or_assoc]
      rw [appendCapabilities, List.foldl_cons, ← appendCapabilities, ih, hmem]
      intro a ha b hb
      exact hsame a ((hmem a).1 ha) b ((hmem b).1 hb)

end Entity

/-- What unions give does not depend on capabilities. -/
theorem Registry.capabilitiesFor_congr {a b : Registry}
    (h : a.entities.map Entity.bare = b.entities.map Entity.bare) (settings : Settings)
    (target : String) : a.capabilitiesFor settings target = b.capabilitiesFor settings target := by
  have hbare := congrArg (List.filterMap (Entity.capabilityFor? settings target)) h
  rw [List.filterMap_map, List.filterMap_map] at hbare
  exact hbare

namespace Context

/-- Announcing a union to its members adds to the ledger of each what the declaration announces. -/
theorem announced_announceUnion {context : Context} (h : context.store.Sound) (ident : String)
    (members : List String) (target : String) :
    let store := (context.announceUnion (context.define ident) members).store
    store.Sound ∧ store.delivered target = context.store.delivered target ∧
      store.announced target = context.store.announced target ++
        (Declaration.union ident members).announcements context.settings target := by
  simp only [announceUnion]
  generalize context.store = store at h ⊢
  induction members generalizing store with
  | nil => exact ⟨h, rfl, by simp [Declaration.announcements]⟩
  | cons member rest ih =>
      obtain ⟨hsound, hdelivered, hannounced⟩ :=
        ih (store.announce (context.typeName member) ⟨_, _⟩) (h.announce _ _)
      refine ⟨hsound, ?_, ?_⟩
      · rw [List.foldl_cons, hdelivered, store.delivered_announce _ _ h]
      · rw [List.foldl_cons, hannounced, store.announced_announce _ _ h, List.append_assoc]
        congr 1
        by_cases hm : context.typeName member = target
        · have : context.settings.naming.typeName member = target := hm
          simp [Declaration.announcements, this, define, typeName]
        · have : context.settings.naming.typeName member ≠ target := hm
          simp [Declaration.announcements, this, Ne.symm hm]

/-- Delivering to every entity gives each that accepts it what is pending for its name. -/
theorem entities_deliverAll {store : CapabilityStore} (h : store.Sound) {entities : List Entity}
    (hnames : (entities.map Entity.name).Nodup) :
    (deliverAll store entities).1 = entities.map fun entity =>
      if entity.body.acceptsCapabilities then
        entity.appendCapabilities
          ((store.announced entity.name).drop (store.delivered entity.name))
      else entity := by
  induction entities generalizing store with
  | nil => rfl
  | cons entity rest ih =>
      rw [List.map_cons, List.nodup_cons] at hnames
      simp only [deliverAll, List.map_cons]
      split
      · -- a delivery to this name leaves what is pending for the names after it
        rw [ih (h.deliver _) hnames.2, store.deliver_fst]
        refine List.cons_eq_cons.2 ⟨rfl, List.map_congr_left fun other hother => ?_⟩
        have hne : other.name ≠ entity.name := fun heq =>
          hnames.1 (heq ▸ List.mem_map_of_mem hother)
        rw [store.announced_deliver _ h, store.delivered_deliver _ h, if_neg hne]
      · rw [ih h hnames.2]

/-- The state of delivery after some declarations were entered. -/
structure Delivered (start : Context) (entered : List Declaration) (context : Context) : Prop
    extends Entered start entered context where
  sound : context.store.Sound
  /-- The ledger of a name has what the declarations announced to it. -/
  announced : ∀ target, context.store.announced target =
    entered.flatMap (·.announcements start.settings target)
  /-- The entities give what their declarations announce. -/
  given : ∀ target, context.registry.capabilitiesFor start.settings target =
    entered.filterMap fun declaration => (declaration.announcements start.settings target).head?
  /-- Nothing was delivered to a name without an entity. -/
  undelivered : ∀ target, target ∉ context.registry.names → context.store.delivered target = 0
  /-- An entity that accepts capabilities has what was delivered to its name. -/
  received : ∀ entity ∈ context.registry.entities, entity.body.acceptsCapabilities = true →
    entity = entity.bare.appendCapabilities
      ((context.store.announced entity.name).take (context.store.delivered entity.name))
  /-- The others have nothing. -/
  refused : ∀ entity ∈ context.registry.entities, entity.body.acceptsCapabilities = false →
    entity.capabilities = []

theorem delivered_start {settings : Settings} {start : Context}
    (h : ofSettings settings = .ok start) : Delivered start [] start := by
  have hstart := Entered.start_of_ofSettings h
  obtain ⟨scalars, -, rfl⟩ := ofSettings_eq_ok_iff.1 h
  constructor <;> simp [hstart, CapabilityStore.sound_empty, Registry.capabilitiesFor]

/-- What entering a declaration does to the ledgers: an announcing union adds to those of its
members, and a record or input takes all that is pending for it. -/
theorem storeAfter_spec {context : Context} (h : context.store.Sound) (declaration : Declaration)
    (target : String) :
    (context.storeAfter declaration).Sound ∧
      (context.storeAfter declaration).announced target =
        context.store.announced target ++ declaration.announcements context.settings target ∧
      (context.storeAfter declaration).delivered target =
        if (context.bodyOf declaration).acceptsCapabilities = true ∧
            target = context.typeName declaration.ident then
          (context.store.announced target).length
        else context.store.delivered target := by
  cases declaration with
  | record ident fields | input ident fields =>
      refine ⟨h.deliver _, ?_, ?_⟩
      · simp [storeAfter, Declaration.announcements, CapabilityStore.announced_deliver _ h]
      · simp only [storeAfter, CapabilityStore.delivered_deliver _ h, bodyOf,
          Body.acceptsCapabilities, true_and, Declaration.ident]
        split
        · next ht => rw [ht]
        · rfl
  | enum ident members =>
      exact ⟨h, by simp [storeAfter, Declaration.announcements],
        by simp [storeAfter, bodyOf, Body.acceptsCapabilities]⟩
  | union ident members =>
      obtain ⟨hsound, hdelivered, hannounced⟩ := announced_announceUnion h ident members target
      refine ⟨hsound, hannounced, ?_⟩
      simpa [storeAfter, bodyOf, Body.acceptsCapabilities] using hdelivered

/-- An entity is entered with everything announced to its name so far, if it accepts that. -/
theorem entityOf_eq_of_undelivered {context : Context} {declaration : Declaration}
    (h : context.store.delivered (context.typeName declaration.ident) = 0) :
    context.entityOf declaration = (context.entityOf declaration).bare.appendCapabilities
      (if (context.bodyOf declaration).acceptsCapabilities then
        context.store.announced (context.typeName declaration.ident)
      else []) := by
  have hpending : context.pendingFor declaration =
      if (context.bodyOf declaration).acceptsCapabilities then
        context.store.announced (context.typeName declaration.ident)
      else [] := by
    cases declaration with
    | record ident fields | input ident fields =>
        have hd : context.store.delivered (context.typeName ident) = 0 := h
        simp [pendingFor, bodyOf, Body.acceptsCapabilities, CapabilityStore.deliver_fst, hd,
          Declaration.ident]
    | enum | union => rfl
  rw [entityOf, Entity.bare_appendCapabilities, hpending]
  rfl

section Enter

variable {start context next : Context} {entered : List Declaration} {declaration : Declaration}

/-- What an earlier entity has received stays, for its ledger only grows at the end. -/
theorem Delivered.take_storeAfter (h : Delivered start entered context)
    (hfresh : context.typeName declaration.ident ∉ context.registry.names) {entity : Entity}
    (he : entity ∈ context.registry.entities) :
    ((context.storeAfter declaration).announced entity.name).take
        ((context.storeAfter declaration).delivered entity.name) =
      (context.store.announced entity.name).take (context.store.delivered entity.name) := by
  obtain ⟨-, hannounced, hdelivered⟩ := storeAfter_spec h.sound declaration entity.name
  have hne : entity.name ≠ context.typeName declaration.ident := fun heq =>
    hfresh (heq ▸ List.mem_map_of_mem he)
  rw [hannounced, hdelivered, if_neg fun hc => hne hc.2,
    List.take_append_of_le_length (h.sound.delivered_le _)]

/-- The entity that is entered has received what is then delivered to its name. -/
theorem Delivered.received_entityOf (h : Delivered start entered context)
    (hfresh : context.typeName declaration.ident ∉ context.registry.names)
    (hacc : (context.bodyOf declaration).acceptsCapabilities = true) :
    context.entityOf declaration = (context.entityOf declaration).bare.appendCapabilities
      (((context.storeAfter declaration).announced (context.entityOf declaration).name).take
        ((context.storeAfter declaration).delivered (context.entityOf declaration).name)) := by
  have hentity := entityOf_eq_of_undelivered (h.undelivered _ hfresh)
  obtain ⟨-, hannounced, hdelivered⟩ :=
    storeAfter_spec h.sound declaration (context.typeName declaration.ident)
  rw [if_pos ⟨hacc, rfl⟩] at hdelivered
  rw [if_pos hacc] at hentity
  rw [name_entityOf, hannounced, hdelivered,
    List.take_append_of_le_length (Nat.le_refl _), List.take_length]
  exact hentity

/-- An entity that does not accept capabilities is entered with none. -/
theorem Delivered.capabilities_entityOf (h : Delivered start entered context)
    (hfresh : context.typeName declaration.ident ∉ context.registry.names)
    (hacc : (context.bodyOf declaration).acceptsCapabilities = false) :
    (context.entityOf declaration).capabilities = [] := by
  have hentity := entityOf_eq_of_undelivered (h.undelivered _ hfresh)
  rw [hacc] at hentity
  rw [hentity]
  rfl

/-- Entering a declaration keeps the state of delivery. -/
theorem Delivered.enter (h : Delivered start entered context)
    (hn : context.enter declaration = .ok next) :
    Delivered start (entered ++ [declaration]) next := by
  have hentered := h.toEntered.enter hn
  obtain ⟨hnew, rfl⟩ := enter_eq_ok_iff.1 hn
  have hspec := storeAfter_spec h.sound declaration
  have hfresh : context.typeName declaration.ident ∉ context.registry.names := by
    rw [← h.indexed.contains_iff, hnew]
    exact Bool.false_ne_true
  have hnames := Registry.names_of_register (register_entityOf hnew)
  rw [name_entityOf] at hnames
  refine ⟨hentered, (hspec "").1, ?_, ?_, ?_, ?_, ?_⟩
  · intro target
    rw [List.flatMap_append, ← h.announced target, ← h.settings_eq]
    simpa [withDeclaration] using (hspec target).2.1
  · intro target
    have hlast := Declaration.capabilityFor?_entityOf context target declaration
    have hrest := h.given target
    rw [Registry.capabilitiesFor] at hrest
    rw [h.settings_eq] at hlast
    simp only [withDeclaration, Registry.capabilitiesFor, List.filterMap_append, hrest,
      List.filterMap_cons, List.filterMap_nil, hlast]
  · intro target ht
    rw [hnames, List.mem_append, List.mem_singleton, not_or] at ht
    show (context.storeAfter declaration).delivered target = 0
    rw [(hspec target).2.2, if_neg fun hc => ht.2 hc.2]
    exact h.undelivered target ht.1
  · intro entity he hacc
    show entity = entity.bare.appendCapabilities
      (((context.storeAfter declaration).announced entity.name).take
        ((context.storeAfter declaration).delivered entity.name))
    rcases List.mem_append.1 he with he | he
    · rw [h.take_storeAfter hfresh he]
      exact h.received entity he hacc
    · obtain rfl := List.mem_singleton.1 he
      rw [body_entityOf] at hacc
      exact h.received_entityOf hfresh hacc
  · intro entity he hacc
    rcases List.mem_append.1 he with he | he
    · exact h.refused entity he hacc
    · obtain rfl := List.mem_singleton.1 he
      rw [body_entityOf] at hacc
      exact h.capabilities_entityOf hfresh hacc

end Enter

theorem delivered_of_enterAll {settings : Settings} {start last : Context}
    {declarations : List Declaration} (hs : ofSettings settings = .ok start)
    (h : start.enterAll declarations = .ok last) : Delivered start declarations last :=
  enterAll_induction (delivered_start hs) (fun _ _ _ _ _ hd hn => hd.enter hn) h

/-- After settling, an entity that accepts capabilities has everything announced to its name. -/
theorem Delivered.settled {start context : Context} {entered : List Declaration}
    (h : Delivered start entered context) {entity : Entity}
    (he : entity ∈ context.settle.registry.entities) :
    entity = entity.bare.appendCapabilities
      (if entity.body.acceptsCapabilities then context.store.announced entity.name else []) := by
  have hall : context.settle.registry.entities = _ :=
    entities_deliverAll h.sound h.indexed.nodup_names
  rw [hall] at he
  obtain ⟨before, hb, rfl⟩ := List.mem_map.1 he
  split
  · next hacc =>
    have hreceived := h.received before hb hacc
    have hname : (before.appendCapabilities ((context.store.announced before.name).drop
        (context.store.delivered before.name))).name = before.name := by
      simp [Entity.name]
    rw [Entity.bare_appendCapabilities, Entity.body_appendCapabilities, hname, if_pos hacc]
    conv_lhs => rw [hreceived]
    rw [← Entity.appendCapabilities_append]
    simp [Entity.bare, Entity.name]
  · next hacc =>
    have hnone := h.refused before hb (Bool.not_eq_true _ ▸ hacc)
    obtain ⟨definition, capabilities, body⟩ := before
    obtain rfl : capabilities = [] := hnone
    rfl

/-- After settling, an entity that accepts capabilities has those that any declaration announces to
its name, and the others have none. -/
theorem mem_capabilities_settle {settings : Settings} {start last : Context}
    {declarations : List Declaration} (hs : ofSettings settings = .ok start)
    (hl : start.enterAll declarations = .ok last) {entity : Entity}
    (he : entity ∈ last.settle.registry.entities) {capability : Capability} :
    capability ∈ entity.capabilities ↔ entity.body.acceptsCapabilities = true ∧
      ∃ declaration ∈ declarations,
        capability ∈ declaration.announcements start.settings entity.name := by
  have hd := delivered_of_enterAll hs hl
  have hentity := hd.settled he
  rw [hd.announced] at hentity
  conv_lhs => rw [hentity]
  rw [Entity.mem_capabilities_appendCapabilities]
  · split
    · next hacc => simp [Entity.bare, hacc]
    · next hacc => simp [Entity.bare, hacc]
  · have hpackage : ∀ c ∈ entity.bare.capabilities ++
        (if entity.body.acceptsCapabilities = true then
          declarations.flatMap (·.announcements start.settings entity.name) else []),
        c = ⟨c.name, start.settings.package⟩ := by
      intro c hc
      split at hc
      · obtain ⟨declaration, -, hc⟩ := List.mem_flatMap.1 hc
        rw [Declaration.eq_of_mem_announcements _ _ _ hc]
      · cases hc
    intro a ha b hb hname
    rw [hpackage a ha, hpackage b hb, hname]

end Context

/-- In a resolved model every record and input has, in the order of registration and once each, the
capability of every union that lists it. Enums and unions have none. -/
theorem capabilities_of_resolve {document : String} {settings : Settings} {registry : Registry}
    (h : resolve document settings = .ok registry) {entity : Entity}
    (he : entity ∈ registry.entities) :
    (entity.kind = .record ∨ entity.kind = .input →
      entity.capabilities = registry.capabilitiesFor settings entity.name ∧
        (entity.capabilities.map Capability.name).Nodup) ∧
    (entity.kind = .enum ∨ entity.kind = .union → entity.capabilities = []) := by
  obtain ⟨start, declarations, last, hs, -, hl, hc⟩ := resolve_eq_ok_iff.1 h
  obtain rfl := Resolver.registry_of_conclude hc
  have hd := Context.delivered_of_enterAll hs hl
  have hentity := hd.settled he
  obtain ⟨scalars, -, rfl⟩ := Context.ofSettings_eq_ok_iff.1 hs
  constructor
  · intro hkind
    rw [if_pos (Body.acceptsCapabilities_iff.2 hkind), hd.announced entity.name] at hentity
    have hnames : (declarations.map fun declaration =>
        (⟨settings.naming.typeName declaration.ident, settings.package⟩ : Capability).name).Nodup :=
      hd.names_eq ▸ hd.indexed.nodup_names
    have hcaps := Entity.capabilities_appendCapabilities_flatMap
      (fun declaration _ => Declaration.eq_of_mem_announcements settings entity.name declaration)
      declarations hnames entity.bare (fun _ _ => rfl)
    rw [← hentity, ← hd.given entity.name] at hcaps
    rw [Registry.capabilitiesFor_congr (Context.map_bare_settle last)]
    refine ⟨by simpa [Entity.bare] using hcaps, ?_⟩
    rw [hentity]
    exact Entity.nodup_appendCapabilities _ List.nodup_nil
  · intro hkind
    have hacc : ¬ entity.body.acceptsCapabilities = true := by
      rw [Body.acceptsCapabilities_iff]
      change ¬ (entity.kind = .record ∨ entity.kind = .input)
      rcases hkind with hkind | hkind <;> simp [hkind]
    rw [if_neg hacc] at hentity
    rw [hentity]
    rfl

/-- A record between two unions, the first of which lists it twice, has the capability of each
once. -/
theorem capabilities_of_resolve_between :
    ∃ registry entity,
      resolve "union U = A | A\n\ntype A \x7b id: ID \x7d\nunion V = A" {} = .ok registry ∧
        entity ∈ registry.entities ∧ entity.kind = .record ∧
        entity.capabilities = [⟨"U", ""⟩, ⟨"V", ""⟩] ∧
        entity.capabilities = registry.capabilitiesFor {} "A" := by
  have h : resolve "union U = A | A\n\ntype A \x7b id: ID \x7d\nunion V = A" {} = .ok
      { entities :=
          [ { definition := ⟨"U", "U", ""⟩
              body := .union [⟨"A", .unresolved "A"⟩, ⟨"A", .unresolved "A"⟩] },
            { definition := ⟨"A", "A", ""⟩
              capabilities := [⟨"U", ""⟩, ⟨"V", ""⟩]
              body := .record [.typed ⟨"id", "id"⟩ (.scalar .id) false] },
            { definition := ⟨"V", "V", ""⟩
              body := .union [⟨"A", .entity ⟨"A", .record⟩⟩] } ]
        positions := [("V", 2), ("A", 1), ("U", 0)] } :=
    resolve_eq_ok_of_toOption (by decide +kernel)
  exact ⟨_, _, h, .tail _ (.head _), rfl, rfl,
    ((capabilities_of_resolve h (.tail _ (.head _))).1 (.inl rfl)).1⟩

end ModelGraph
