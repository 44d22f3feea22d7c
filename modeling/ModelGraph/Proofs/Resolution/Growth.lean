import ModelGraph.Proofs.Resolution.Delivery

/-! # Growth of a model

More declarations behind those of a document add entities behind those of its model. The entities
that were there stay at their positions, with their definitions and bodies; all that they get is
capabilities behind their own (`growsInto_of_resolve`). -/

namespace ModelGraph

/-- An entity is the same in a model that grew, but for capabilities behind its own. -/
structure Entity.GrowsInto (entity later : Entity) : Prop where
  definition : later.definition = entity.definition
  body : later.body = entity.body
  capabilities : entity.capabilities <+: later.capabilities

namespace Entity

theorem GrowsInto.refl (entity : Entity) : entity.GrowsInto entity where
  definition := rfl
  body := rfl
  capabilities := List.prefix_rfl

theorem GrowsInto.trans {entity later latest : Entity} (h : entity.GrowsInto later)
    (h' : later.GrowsInto latest) : entity.GrowsInto latest where
  definition := h'.definition.trans h.definition
  body := h'.body.trans h.body
  capabilities := h.capabilities.trans h'.capabilities

/-- A capability is added at the end, if at all. -/
theorem growsInto_appendCapability (entity : Entity) (capability : Capability) :
    entity.GrowsInto (entity.appendCapability capability) := by
  constructor
  · exact entity.definition_appendCapability capability
  · exact entity.body_appendCapability capability
  · rw [appendCapability]
    split
    · exact List.prefix_rfl
    · exact List.prefix_append _ _

theorem growsInto_appendCapabilities (entity : Entity) (capabilities : List Capability) :
    entity.GrowsInto (entity.appendCapabilities capabilities) := by
  induction capabilities generalizing entity with
  | nil => exact .refl entity
  | cons capability more ih =>
      exact (entity.growsInto_appendCapability capability).trans (ih _)

end Entity

namespace Context

theorem entities_prefix_of_enter {context next : Context} {declaration : Declaration}
    (h : context.enter declaration = .ok next) :
    context.registry.entities <+: next.registry.entities := by
  obtain ⟨-, rfl⟩ := enter_eq_ok_iff.1 h
  exact List.prefix_append _ _

/-- Entering declarations leaves the entities that are there. The induction is on the declarations,
with the context after each. -/
theorem entities_prefix_of_enterAll {context last : Context} {declarations : List Declaration}
    (h : context.enterAll declarations = .ok last) :
    context.registry.entities <+: last.registry.entities := by
  induction declarations generalizing context with
  | nil =>
      obtain rfl : context = last := Except.ok.inj h
      exact List.prefix_rfl
  | cons declaration rest ih =>
      obtain ⟨next, hn, hrest⟩ := bind_eq_ok_iff.1 h
      exact (entities_prefix_of_enter hn).trans (ih hrest)

section Settle

variable {start reached last : Context} {first second : List Declaration}

/-- What is announced to a name after more declarations is what was announced before, and more. -/
theorem Delivered.announced_append (h : Delivered start first reached)
    (h' : Delivered start (first ++ second) last) (target : String) :
    last.store.announced target =
      reached.store.announced target ++
        second.flatMap (·.announcements start.settings target) := by
  rw [h'.announced, h.announced, List.flatMap_append]

/-- An entity that is settled after some declarations grows if it is settled after more: it has
received what was announced to it by then, and now receives the rest. -/
theorem Delivered.growsInto_settle (h : Delivered start first reached)
    (h' : Delivered start (first ++ second) last)
    (hentities : reached.registry.entities <+: last.registry.entities) {i : Nat} {entity : Entity}
    (he : reached.settle.registry.entities[i]? = some entity) :
    ∃ later, last.settle.registry.entities[i]? = some later ∧ entity.GrowsInto later := by
  obtain ⟨before, hbefore, hbare⟩ := exists_before_settle he
  -- it stands at its position before the longer run settles, and so after that
  have hkept : last.registry.entities[i]? = some before := by
    obtain ⟨more, hmore⟩ := hentities
    rw [← hmore, List.getElem?_append_left (List.getElem?_eq_some_iff.1 hbefore).1]
    exact hbefore
  have hmap := congrArg (·[i]?) last.map_bare_settle
  simp only [List.getElem?_map, hkept, Option.map_some] at hmap
  obtain ⟨later, hlater, hsame⟩ := Option.map_eq_some_iff.1 hmap
  refine ⟨later, hlater, ?_⟩
  have hbares : later.bare = entity.bare := hsame.trans hbare
  have hbody : later.body = entity.body := Entity.body_eq_of_bare_eq hbares
  have hname : later.name = entity.name := Entity.name_eq_of_bare_eq hbares
  have hentity := h.settled (List.mem_of_getElem? he)
  have hgrown := h'.settled (List.mem_of_getElem? hlater)
  rw [hbares, hbody, hname, h.announced_append h'] at hgrown
  by_cases hacc : entity.body.acceptsCapabilities = true
  · rw [if_pos hacc] at hentity hgrown
    rw [Entity.appendCapabilities_append, ← hentity] at hgrown
    rw [hgrown]
    exact entity.growsInto_appendCapabilities _
  · rw [if_neg hacc] at hentity hgrown
    rw [hgrown, ← hentity]
    exact .refl entity

end Settle

end Context

/-- If a document that may leave references unresolved has the chunks of another one and then more,
and is resolved, so is the other one. The model of the longer one begins with the entities of the
shorter one: each has the same definition and body, and its capabilities come first. -/
theorem growsInto_of_resolve {settings : Settings} (hlax : settings.strictReferences = false)
    {document longer : String} {extra : List String}
    (hchunks : settings.chunks longer = settings.chunks document ++ extra) {grown : Registry}
    (h : resolve longer settings = .ok grown) :
    ∃ registry, resolve document settings = .ok registry ∧
      ∀ (i : Nat) (entity : Entity), registry.entities[i]? = some entity →
        ∃ later, grown.entities[i]? = some later ∧ entity.GrowsInto later := by
  obtain ⟨start, declarations, last, hs, hd, hl, rfl⟩ := (resolve_eq_ok_iff_of_lax hlax).1 h
  rw [hchunks, List.map_append] at hd
  obtain ⟨first, second, rfl, hfirst, -⟩ := List.append_eq_map_iff.1 hd
  have hsplit := hl
  rw [Context.enterAll_append] at hsplit
  obtain ⟨reached, hr, hrest⟩ := bind_eq_ok_iff.1 hsplit
  refine ⟨reached.settle.registry, ?_, fun i entity he => ?_⟩
  · apply (resolve_eq_ok_iff_of_lax hlax).2
    exact ⟨start, first, reached, hs, hfirst.symm, hr, rfl⟩
  · have hreached := Context.delivered_of_enterAll hs hr
    have hlast := Context.delivered_of_enterAll hs hl
    exact hreached.growsInto_settle hlast (Context.entities_prefix_of_enterAll hrest) he

/-- A record that was given the capability of one union is given that of another one later. -/
theorem growsInto_of_resolve_union :
    ∃ registry grown entity later,
      resolve "union U = A\n\ntype A \x7b id: ID \x7d" {} = .ok registry ∧
        resolve "union U = A\n\ntype A \x7b id: ID \x7d\nunion V = A" {} = .ok grown ∧
        registry.entities[1]? = some entity ∧ grown.entities[1]? = some later ∧
        entity.GrowsInto later ∧ entity.capabilities = [⟨"U", ""⟩] ∧
        later.capabilities = [⟨"U", ""⟩, ⟨"V", ""⟩] := by
  have hchunks : Settings.chunks {} "union U = A\n\ntype A \x7b id: ID \x7d\nunion V = A" =
      Settings.chunks {} "union U = A\n\ntype A \x7b id: ID \x7d" ++ ["union V = A"] := by
    decide +kernel
  have h : resolve "union U = A\n\ntype A \x7b id: ID \x7d\nunion V = A" {} = .ok
      { entities :=
          [ { definition := ⟨"U", "U", ""⟩
              body := .union [⟨"A", .unresolved "A"⟩] },
            { definition := ⟨"A", "A", ""⟩
              capabilities := [⟨"U", ""⟩, ⟨"V", ""⟩]
              body := .record [.typed ⟨"id", "id"⟩ (.scalar .id) false] },
            { definition := ⟨"V", "V", ""⟩
              body := .union [⟨"A", .entity ⟨"A", .record⟩⟩] } ]
        positions := [("V", 2), ("A", 1), ("U", 0)] } :=
    resolve_eq_ok_of_toOption (by decide +kernel)
  have hshort : resolve "union U = A\n\ntype A \x7b id: ID \x7d" {} = .ok
      { entities :=
          [ { definition := ⟨"U", "U", ""⟩
              body := .union [⟨"A", .unresolved "A"⟩] },
            { definition := ⟨"A", "A", ""⟩
              capabilities := [⟨"U", ""⟩]
              body := .record [.typed ⟨"id", "id"⟩ (.scalar .id) false] } ]
        positions := [("A", 1), ("U", 0)] } :=
    resolve_eq_ok_of_toOption (by decide +kernel)
  obtain ⟨registry, hr, hgrows⟩ := growsInto_of_resolve rfl hchunks h
  obtain rfl := Except.ok.inj (hshort.symm.trans hr)
  obtain ⟨later, hlater, hinto⟩ := hgrows 1 _ rfl
  obtain rfl := Option.some.inj hlater
  exact ⟨_, _, _, _, hr, h, rfl, rfl, hinto, rfl, rfl⟩

end ModelGraph
