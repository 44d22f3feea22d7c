import ModelGraph.Proofs.Resolution.Delivery

/-! # Consistency of the registry

The entities of a registry and its index are two accounts of the same thing. They agree after any
registrations, those that are refused included, and after the resolution of a document, at the end
of which entities are changed in place (`consistent_of_registered`). -/

namespace ModelGraph

/-- The entity was made of a definition and a body, and then given capabilities. -/
def Entity.Built (entity : Entity) : Prop :=
  ∃ definition body capabilities,
    entity = ({ definition := definition, body := body } : Entity).appendCapabilities capabilities

/-- An entity that is built in this way has no two capabilities of one name. -/
theorem Entity.Built.nodup_capabilities {entity : Entity} (h : entity.Built) :
    (entity.capabilities.map Capability.name).Nodup := by
  obtain ⟨definition, body, capabilities, rfl⟩ := h
  exact nodup_appendCapabilities capabilities List.nodup_nil

namespace Registry

/-- What a registration leaves of the registry, whether it succeeds or fails. -/
def offer (registry : Registry) (entity : Entity) : Registry :=
  (registry.tryRegister entity).2

/-- Offer entities one after the other. -/
def offerAll (registry : Registry) (entities : List Entity) : Registry :=
  entities.foldl offer registry

/-- The index and the entities of a registry agree, and so do all ways to look something up. -/
structure Consistent (registry : Registry) : Prop where
  /-- The index maps exactly the names of the entities to their positions. -/
  indexed : ∀ name i, registry.position? name = some i ↔ registry.names[i]? = some name
  inRange : ∀ name i, registry.position? name = some i → i < registry.entities.length
  nodup_names : registry.names.Nodup
  get?_iff : ∀ name entity,
    registry.get? name = some entity ↔ entity ∈ registry.entities ∧ entity.name = name
  contains_iff : ∀ name, registry.contains name = true ↔ name ∈ registry.names
  getKind?_iff : ∀ name kind entity, registry.getKind? name kind = some entity ↔
    registry.get? name = some entity ∧ entity.kind = kind
  mem_ofKind_iff : ∀ kind entity, entity ∈ registry.ofKind kind ↔
    registry.getKind? entity.name kind = some entity
  ofKind_sublist : ∀ kind, (registry.ofKind kind).Sublist registry.entities
  nodup_capabilities : ∀ entity ∈ registry.entities,
    (entity.capabilities.map Capability.name).Nodup
  /-- The only reason to refuse an entity is that its name is taken. -/
  register_error_iff : ∀ entity error, registry.register entity = .error error ↔
    entity.name ∈ registry.names ∧ error = .duplicateEntity entity.name
  /-- A refused entity leaves no trace. -/
  offer_taken : ∀ entity, entity.name ∈ registry.names → registry.offer entity = registry

section Offer

variable {registry : Registry} {entity : Entity}

theorem offer_of_contains (h : registry.contains entity.name = true) :
    registry.offer entity = registry := by
  rw [offer, tryRegister, if_pos h]

/-- An entity of a new name comes after the others. -/
theorem register_eq_ok_offer (h : registry.contains entity.name = false) :
    registry.register entity = .ok (registry.offer entity) := by
  rw [offer, register, tryRegister, h]
  rfl

/-- An offer keeps the index in agreement with the names. -/
theorem Indexed.offer (h : registry.Indexed) (entity : Entity) :
    (registry.offer entity).Indexed := by
  cases hc : registry.contains entity.name with
  | true => rwa [offer_of_contains hc]
  | false => exact h.register (register_eq_ok_offer hc)

theorem Indexed.offerAll (h : registry.Indexed) (entities : List Entity) :
    (registry.offerAll entities).Indexed := by
  induction entities generalizing registry with
  | nil => exact h
  | cons entity more ih => exact ih (h.offer entity)

/-- Nothing gets into a registry that was not offered. -/
theorem mem_of_mem_offerAll {entities : List Entity} {found : Entity}
    (h : found ∈ (registry.offerAll entities).entities) :
    found ∈ registry.entities ∨ found ∈ entities := by
  induction entities generalizing registry with
  | nil => exact .inl h
  | cons entity more ih =>
      have hrest : found ∈ (registry.offer entity).entities ∨ found ∈ more := ih h
      rcases hrest with hfound | hfound
      · cases hc : registry.contains entity.name with
        | true =>
            rw [offer_of_contains hc] at hfound
            exact .inl hfound
        | false =>
            rw [entities_of_register (register_eq_ok_offer hc), List.mem_append,
              List.mem_singleton] at hfound
            exact hfound.imp_right fun heq : found = entity => heq ▸ List.mem_cons_self
      · exact .inr (List.mem_cons_of_mem entity hfound)

/-- Of the entities that are offered, those stay whose names are new, the first of each name. -/
theorem Indexed.entities_offerAll (h : registry.Indexed) (entities : List Entity) :
    (registry.offerAll entities).entities =
      registry.entities ++
        (entities.filter fun entity => !registry.contains entity.name).eraseDupsBy
          fun a b => a.name == b.name := by
  induction entities generalizing registry with
  | nil => simp [Registry.offerAll]
  | cons entity more ih =>
      rw [Registry.offerAll, List.foldl_cons, ← Registry.offerAll, ih (h.offer entity)]
      cases hc : registry.contains entity.name with
      | true => rw [offer_of_contains hc, List.filter_cons_of_neg (by simp [hc])]
      | false =>
          have hr := register_eq_ok_offer hc
          have hcontains : ∀ other : Entity, (registry.offer entity).contains other.name =
              (registry.contains other.name || other.name == entity.name) := by
            intro other
            rw [Bool.eq_iff_iff, (h.offer entity).contains_iff, names_of_register hr,
              Bool.or_eq_true, h.contains_iff, beq_iff_eq, List.mem_append, List.mem_singleton]
          rw [entities_of_register hr, List.filter_cons_of_pos (by simp [hc]),
            List.eraseDupsBy_cons, List.filter_filter, List.append_assoc, List.singleton_append]
          congr 3
          refine List.filter_congr fun other _ => ?_
          rw [hcontains]
          cases registry.contains other.name <;> cases other.name == entity.name <;> rfl

end Offer

/-- A registry is consistent if its index is right and its entities keep their capabilities
apart. -/
theorem Indexed.consistent {registry : Registry} (h : registry.Indexed)
    (hcapabilities : ∀ entity ∈ registry.entities,
      (entity.capabilities.map Capability.name).Nodup) : registry.Consistent where
  indexed := h
  inRange name i hi := by
    have hn := (h name i).1 hi
    have hlt := (List.getElem?_eq_some_iff.1 hn).1
    rwa [names, List.length_map] at hlt
  nodup_names := h.nodup_names
  get?_iff _ _ := h.get?_eq_some_iff
  contains_iff _ := h.contains_iff
  getKind?_iff name kind entity := by simp [getKind?, Option.filter_eq_some_iff]
  mem_ofKind_iff kind entity := by
    simp [getKind?, Option.filter_eq_some_iff, ofKind, h.get?_eq_some_iff]
  ofKind_sublist _ := List.filter_sublist
  nodup_capabilities := hcapabilities
  register_error_iff entity error := by rw [register_eq_error_iff, h.contains_iff]
  offer_taken entity hn := offer_of_contains (h.contains_iff.2 hn)

end Registry

/-- After a resolution every entity is built of its definition, its body and capabilities. -/
theorem Context.Delivered.built {start context : Context} {entered : List Declaration}
    (h : Context.Delivered start entered context) {entity : Entity}
    (he : entity ∈ context.settle.registry.entities) : entity.Built :=
  ⟨entity.definition, entity.body, _, h.settled he⟩

/-- The registry is consistent after any offers of built entities to the empty one, where it has
the first entity of each name in the order of the offers, and after the resolution of any document,
where it has one entity for each declaration, in the order of the document. -/
theorem consistent_of_registered :
    (∀ offers : List Entity, (∀ entity ∈ offers, entity.Built) →
      (Registry.empty.offerAll offers).Consistent ∧
        (Registry.empty.offerAll offers).entities =
          offers.eraseDupsBy fun a b => a.name == b.name) ∧
    ∀ document settings registry, resolve document settings = .ok registry →
      registry.Consistent ∧
        ∃ declarations : List Declaration, (settings.chunks document).map Declaration.ofChunk? =
            declarations.map some ∧
          registry.names = declarations.map fun declaration =>
            settings.naming.typeName declaration.ident := by
  constructor
  · intro offers hbuilt
    have hentities := Registry.indexed_empty.entities_offerAll offers
    have hall : (offers.filter fun entity => !Registry.empty.contains entity.name) = offers :=
      List.filter_eq_self.2 fun _ _ => rfl
    rw [hall, Registry.entities_empty, List.nil_append] at hentities
    refine ⟨(Registry.indexed_empty.offerAll offers).consistent fun entity he => ?_, hentities⟩
    rcases Registry.mem_of_mem_offerAll he with he | he
    · cases he
    · exact (hbuilt entity he).nodup_capabilities
  · intro document settings registry h
    obtain ⟨start, declarations, last, hs, hd, hl, hc⟩ := resolve_eq_ok_iff.1 h
    obtain rfl := Resolver.registry_of_conclude hc
    have hdelivered := Context.delivered_of_enterAll hs hl
    refine ⟨(Context.indexed_settle hdelivered.indexed).consistent fun entity he =>
      (hdelivered.built he).nodup_capabilities, declarations, hd, ?_⟩
    obtain ⟨scalars, -, rfl⟩ := Context.ofSettings_eq_ok_iff.1 hs
    rw [Context.names_settle, hdelivered.names_eq]
    rfl

/-- Of three offers the second has a name that is taken. The union that lists an entity after it
changes that entity at the end of the resolution. -/
theorem consistent_of_registered_refused :
    (∃ registry, registry = Registry.empty.offerAll
        [{ definition := ⟨"a", "A", ""⟩, body := .enum [] },
          { definition := ⟨"A", "A", ""⟩, capabilities := [⟨"U", ""⟩], body := .record [] },
          { definition := ⟨"U", "U", ""⟩, body := .union [] }] ∧
        registry.Consistent ∧ registry.entities.map Entity.kind = [.enum, .union]) ∧
    ∃ registry, resolve "type a \x7b id: ID \x7d\nunion U = A" {} = .ok registry ∧
      registry.Consistent ∧ registry.names = ["A", "U"] := by
  have hnew : ∀ definition body,
      Entity.Built { definition := definition, body := body } :=
    fun definition body => ⟨definition, body, [], rfl⟩
  constructor
  · obtain ⟨hconsistent, hentities⟩ := consistent_of_registered.1
      [{ definition := ⟨"a", "A", ""⟩, body := .enum [] },
        { definition := ⟨"A", "A", ""⟩, capabilities := [⟨"U", ""⟩], body := .record [] },
        { definition := ⟨"U", "U", ""⟩, body := .union [] }] (by
          intro entity he
          simp only [List.mem_cons, List.not_mem_nil, or_false] at he
          rcases he with rfl | rfl | rfl
          · exact hnew _ _
          · exact ⟨⟨"A", "A", ""⟩, .record [], [⟨"U", ""⟩], rfl⟩
          · exact hnew _ _)
    exact ⟨_, rfl, hconsistent, by rw [hentities]; rfl⟩
  · have h : resolve "type a \x7b id: ID \x7d\nunion U = A" {} = .ok
        { entities :=
            [ { definition := ⟨"a", "A", ""⟩
                capabilities := [⟨"U", ""⟩]
                body := .record [.typed ⟨"id", "id"⟩ (.scalar .id) false] },
              { definition := ⟨"U", "U", ""⟩
                body := .union [⟨"A", .entity ⟨"A", .record⟩⟩] } ]
          positions := [("U", 1), ("A", 0)] } :=
      resolve_eq_ok_of_toOption (by decide +kernel)
    exact ⟨_, h, (consistent_of_registered.2 _ _ _ h).1, rfl⟩

end ModelGraph
