import Mathlib.Logic.Basic
import ModelGraph.Proofs.Resolution.Delivery

/-! # Capabilities that are never attached

A union announces itself to all its members, whether they are declared or not. An announcement ends
in one of two ways: a record or input of the name has the capability in the end, or the run warns
that what was announced to the name was never attached (`warnings_of_run`). Only records and inputs
take deliveries, so under any other name nothing is ever delivered, and what is announced stays
pending to the end. -/

namespace ModelGraph

/-- The context of a resolution behind the last declaration of the document. -/
def Settings.contextAfter (settings : Settings) (document : String) :
    Except ResolutionError Context :=
  (Context.ofSettings settings).bind fun start =>
    (Resolver.resolveAll Parser.builtin start (settings.chunks document)).outcome

/-- The document declares a union of the name with the members. -/
def Settings.DeclaresUnion (settings : Settings) (document ident : String)
    (members : List String) : Prop :=
  ∃ chunk ∈ settings.chunks document, Declaration.ofChunk? chunk = some (.union ident members)

/-- The entity is the record or input of the name. -/
structure Entity.Targets (entity : Entity) (name : String) : Prop where
  name_eq : entity.name = name
  kind : entity.kind = .record ∨ entity.kind = .input

/-- A record or input of the name is registered. -/
def Registry.HasTarget (registry : Registry) (name : String) : Prop :=
  ∃ entity ∈ registry.entities, entity.Targets name

/-- A record or input of the name is registered, and it has the capability. -/
def Registry.Attaches (registry : Registry) (name : String) (capability : Capability) : Prop :=
  ∃ entity ∈ registry.entities, entity.Targets name ∧ capability ∈ entity.capabilities

/-- The name that an event warns about, if it is a warning. -/
def Event.warning? : Event → Option String
  | neverAttached name => some name
  | dropped _ | resolved _ _ _ => none

/-- The names that a run warns about, in order. -/
def Run.warnings {α : Type} (run : Run α) : List String :=
  run.events.filterMap Event.warning?

theorem Entity.targets_iff {entity : Entity} {name : String} :
    entity.Targets name ↔ entity.name = name ∧ entity.body.acceptsCapabilities = true := by
  rw [Body.acceptsCapabilities_iff]
  exact ⟨fun h => ⟨h.name_eq, h.kind⟩, fun h => ⟨h.1, h.2⟩⟩

/-- Whether a registry has a target does not depend on capabilities. -/
theorem Registry.hasTarget_congr {a b : Registry}
    (h : a.entities.map Entity.bare = b.entities.map Entity.bare) {name : String}
    (ha : a.HasTarget name) : b.HasTarget name := by
  obtain ⟨entity, hentity, htargets⟩ := ha
  have hbare : entity.bare ∈ b.entities.map Entity.bare := h ▸ List.mem_map_of_mem hentity
  obtain ⟨other, hother, heq⟩ := List.mem_map.1 hbare
  refine ⟨other, hother, ?_⟩
  rw [Entity.targets_iff] at htargets ⊢
  rwa [Entity.name_eq_of_bare_eq heq, Entity.body_eq_of_bare_eq heq]

/-- Only unions announce something: themselves, to their members. -/
theorem Declaration.mem_announcements_iff {settings : Settings} {target : String}
    {declaration : Declaration} {capability : Capability} :
    capability ∈ declaration.announcements settings target ↔
      ∃ ident members, declaration = .union ident members ∧
        capability = ⟨settings.naming.typeName ident, settings.package⟩ ∧
        ∃ member ∈ members, settings.naming.typeName member = target := by
  cases declaration with
  | record | input | enum => simp [announcements]
  | union ident members =>
      simp only [announcements, List.mem_map, List.mem_filter, beq_iff_eq]
      constructor
      · rintro ⟨member, hmember, rfl⟩
        exact ⟨ident, members, rfl, rfl, member, hmember⟩
      · rintro ⟨_, _, ⟨⟩, rfl, member, hmember⟩
        exact ⟨member, hmember, rfl⟩

/-- A resolution gets past the last declaration, settles, and concludes. -/
theorem resolve_eq_contextAfter (document : String) (settings : Settings) :
    resolve document settings =
      (settings.contextAfter document).bind fun last => Resolver.conclude last.settle := by
  rw [resolve_eq, Settings.contextAfter]
  cases Context.ofSettings settings <;> rfl

namespace Resolver

/-- Declarations are resolved without warnings. -/
theorem warnings_resolveAll (parsers : List Parser) (context : Context) (chunks : List String) :
    (resolveAll parsers context chunks).warnings = [] := by
  induction chunks generalizing context with
  | nil => rfl
  | cons chunk rest ih =>
      simp only [resolveAll]
      split
      · rfl
      · split
        · rfl
        · exact ih _

/-- A run that gets past the last declaration warns about what is pending after settling. -/
theorem warnings_of_contextAfter {settings : Settings} {document : String} {last : Context}
    (h : settings.contextAfter document = .ok last) :
    ((ofSettings settings).run document).warnings = last.settle.store.pendingNames := by
  obtain ⟨start, hs, hl⟩ := bind_eq_ok_iff.1 h
  have hdeclared := warnings_resolveAll Parser.builtin start (settings.chunks document)
  have hparsers : (ofSettings settings).parsers = Parser.builtin := rfl
  have hsettings : (ofSettings settings).settings = settings := rfl
  rw [Run.warnings] at hdeclared
  rw [Settings.chunks] at hl hdeclared
  simp only [run, hparsers, hsettings, hs, hl, Run.warnings, List.filterMap_append, hdeclared,
    List.filterMap_map, Function.comp_def, Event.warning?]
  simp

end Resolver

namespace Context

theorem sound_deliverAll {store : CapabilityStore} (h : store.Sound) (entities : List Entity) :
    (deliverAll store entities).2.Sound := by
  induction entities generalizing store with
  | nil => exact h
  | cons entity rest ih =>
      simp only [deliverAll]
      split
      · exact ih (h.deliver entity.name)
      · exact ih h

/-- Delivering to all entities leaves what is pending for names without a target. -/
theorem pending_deliverAll_iff {store : CapabilityStore} (h : store.Sound)
    (entities : List Entity) (name : String) :
    (deliverAll store entities).2.Pending name ↔
      store.Pending name ∧ ∀ entity ∈ entities, ¬ entity.Targets name := by
  induction entities generalizing store with
  | nil => simp [deliverAll]
  | cons entity rest ih =>
      simp only [deliverAll]
      split
      · -- the entity takes all that is pending for its own name
        next hacc =>
        have htargets : entity.Targets name ↔ name = entity.name := by
          simp [Entity.targets_iff, hacc, eq_comm]
        rw [ih (h.deliver entity.name), CapabilityStore.pending_deliver_iff _ h]
        simp [htargets, and_assoc, and_comm]
      · next hacc =>
        have htargets : ¬ entity.Targets name := by
          simp [Entity.targets_iff, hacc]
        rw [ih h]
        simp [htargets]

theorem sound_settle {context : Context} (h : context.store.Sound) :
    context.settle.store.Sound :=
  sound_deliverAll h context.registry.entities

theorem settings_of_ofSettings {settings : Settings} {start : Context}
    (h : ofSettings settings = .ok start) : start.settings = settings := by
  obtain ⟨scalars, -, rfl⟩ := ofSettings_eq_ok_iff.1 h
  rfl

section Declarations

variable {settings : Settings} {start last : Context} {declarations : List Declaration}
  (hs : ofSettings settings = .ok start) (hl : start.enterAll declarations = .ok last)
include hs hl

/-- Nothing is delivered to a name without a target, for only targets are delivered to. -/
theorem delivered_eq_zero_of_enterAll (name : String) (h : ¬ last.registry.HasTarget name) :
    last.store.delivered name = 0 := by
  have hall : ∀ name, ¬ last.registry.HasTarget name → last.store.delivered name = 0 := by
    refine enterAll_induction (P := fun _ context =>
      ∀ name, ¬ context.registry.HasTarget name → context.store.delivered name = 0) ?_ ?_ hl
    · obtain ⟨scalars, -, rfl⟩ := ofSettings_eq_ok_iff.1 hs
      exact fun _ _ => rfl
    · -- the declaration that is entered is no target of the name, or the registry had one now
      intro entered context declaration next hentered ih hnext name hnone
      have hsound := (delivered_of_enterAll hs hentered).sound
      obtain ⟨hnew, rfl⟩ := enter_eq_ok_iff.1 hnext
      obtain ⟨-, -, hdelivered⟩ := storeAfter_spec hsound declaration name
      change (context.storeAfter declaration).delivered name = 0
      rw [hdelivered, if_neg]
      · apply ih
        rintro ⟨entity, hentity, htargets⟩
        exact hnone ⟨entity, List.mem_append_left _ hentity, htargets⟩
      · rintro ⟨hacc, rfl⟩
        refine hnone ⟨context.entityOf declaration, List.mem_append_right _ (.head _), ?_⟩
        rw [Entity.targets_iff, name_entityOf, body_entityOf]
        exact ⟨rfl, hacc⟩
  exact hall name h

/-- What is still pending after settling was announced to a name without a target. -/
theorem pending_settle_iff (name : String) :
    last.settle.store.Pending name ↔
      (∃ declaration ∈ declarations, ∃ capability,
        capability ∈ declaration.announcements start.settings name) ∧
      ¬ last.settle.registry.HasTarget name := by
  have hd := delivered_of_enterAll hs hl
  have htarget : last.settle.registry.HasTarget name ↔ last.registry.HasTarget name :=
    ⟨Registry.hasTarget_congr last.map_bare_settle,
      Registry.hasTarget_congr last.map_bare_settle.symm⟩
  have hnone : (∀ entity ∈ last.registry.entities, ¬ entity.Targets name) ↔
      ¬ last.registry.HasTarget name := by
    simp [Registry.HasTarget]
  have hpending : last.settle.store.Pending name ↔ _ :=
    pending_deliverAll_iff hd.sound last.registry.entities name
  rw [hpending, hnone, htarget]
  refine and_congr_left fun habsent => ?_
  rw [CapabilityStore.Pending, delivered_eq_zero_of_enterAll hs hl name habsent, hd.announced,
    List.length_pos_iff_exists_mem]
  simp only [List.mem_flatMap]
  constructor
  · rintro ⟨capability, declaration, hmem, hcapability⟩
    exact ⟨declaration, hmem, capability, hcapability⟩
  · rintro ⟨declaration, hmem, capability, hcapability⟩
    exact ⟨capability, declaration, hmem, hcapability⟩

end Declarations

end Context

/-- A run gets past the last declaration exactly if every chunk declares something and all of it
can be entered. -/
theorem Settings.contextAfter_eq_ok_iff {settings : Settings} {document : String}
    {last : Context} :
    settings.contextAfter document = .ok last ↔
      ∃ start declarations, Context.ofSettings settings = .ok start ∧
        (settings.chunks document).map Declaration.ofChunk? = declarations.map some ∧
        start.enterAll declarations = .ok last := by
  simp only [contextAfter, bind_eq_ok_iff, Resolver.outcome_resolveAll_eq_ok_iff,
    exists_and_left]

theorem Settings.declaresUnion_iff {settings : Settings} {document : String}
    {declarations : List Declaration}
    (h : (settings.chunks document).map Declaration.ofChunk? = declarations.map some)
    {ident : String} {members : List String} :
    settings.DeclaresUnion document ident members ↔ .union ident members ∈ declarations := by
  have hmem : some (Declaration.union ident members) ∈ declarations.map some ↔
      .union ident members ∈ declarations := by simp
  rw [← hmem, ← h, List.mem_map]
  rfl

section Passed

variable {settings : Settings} {document : String} {last : Context}
  (h : settings.contextAfter document = .ok last)
include h

/-- The run warns about the members of unions that have no target in the end. -/
theorem mem_warnings_iff (name : String) :
    name ∈ ((Resolver.ofSettings settings).run document).warnings ↔
      (∃ ident members, settings.DeclaresUnion document ident members ∧
        ∃ member ∈ members, settings.naming.typeName member = name) ∧
      ¬ last.settle.registry.HasTarget name := by
  obtain ⟨start, declarations, hs, hchunks, hl⟩ := Settings.contextAfter_eq_ok_iff.1 h
  have hsound := Context.sound_settle (Context.delivered_of_enterAll hs hl).sound
  rw [Resolver.warnings_of_contextAfter h, CapabilityStore.mem_pendingNames_iff hsound]
  refine (Context.pending_settle_iff hs hl name).trans (and_congr_left fun _ => ?_)
  simp only [Settings.declaresUnion_iff hchunks, Context.settings_of_ofSettings hs,
    Declaration.mem_announcements_iff]
  constructor
  · rintro ⟨_, hd, _, ident, members, rfl, -, hmember⟩
    exact ⟨ident, members, hd, hmember⟩
  · rintro ⟨ident, members, hd, hmember⟩
    exact ⟨_, hd, _, ident, members, rfl, rfl, hmember⟩

/-- A target of a member of a union has the capability of the union. -/
theorem attaches_of_hasTarget {ident member : String} {members : List String}
    (hdeclares : settings.DeclaresUnion document ident members) (hmember : member ∈ members)
    (htarget : last.settle.registry.HasTarget (settings.naming.typeName member)) :
    last.settle.registry.Attaches (settings.naming.typeName member)
      ⟨settings.naming.typeName ident, settings.package⟩ := by
  obtain ⟨start, declarations, hs, hchunks, hl⟩ := Settings.contextAfter_eq_ok_iff.1 h
  have hdeclared := (Settings.declaresUnion_iff hchunks).1 hdeclares
  obtain ⟨entity, hentity, htargets⟩ := htarget
  refine ⟨entity, hentity, htargets, ?_⟩
  obtain ⟨hname, hacc⟩ := Entity.targets_iff.1 htargets
  rw [Context.mem_capabilities_settle hs hl hentity, Context.settings_of_ofSettings hs, hname]
  refine ⟨hacc, .union ident members, hdeclared, ?_⟩
  rw [Declaration.mem_announcements_iff]
  exact ⟨ident, members, rfl, rfl, member, hmember, rfl⟩

end Passed

/-- A run that gets past the last declaration warns, in order and once each, about exactly those
names of union members that no record or input has in the end. So for every member of every union,
either there is a record or input of its name that has the capability of the union, or the run warns
about the name. -/
theorem warnings_of_run {settings : Settings} {document : String} {last : Context}
    (h : settings.contextAfter document = .ok last) :
    let run := (Resolver.ofSettings settings).run document
    let registry := last.settle.registry
    run.outcome = Resolver.conclude last.settle ∧
    run.warnings.Pairwise (· < ·) ∧
    (∀ name, name ∈ run.warnings ↔
      (∃ ident members, settings.DeclaresUnion document ident members ∧
        ∃ member ∈ members, settings.naming.typeName member = name) ∧
      ¬ registry.HasTarget name) ∧
    ∀ ident members, settings.DeclaresUnion document ident members → ∀ member ∈ members,
      Xor (registry.Attaches (settings.naming.typeName member)
          ⟨settings.naming.typeName ident, settings.package⟩)
        (settings.naming.typeName member ∈ run.warnings) := by
  intro run registry
  refine ⟨?_, ?_, mem_warnings_iff h, ?_⟩
  · change resolve document settings = _
    rw [resolve_eq_contextAfter, h]
    rfl
  · obtain ⟨start, declarations, hs, -, hl⟩ := Settings.contextAfter_eq_ok_iff.1 h
    have hsound := Context.sound_settle (Context.delivered_of_enterAll hs hl).sound
    have hwarnings : run.warnings = last.settle.store.pendingNames :=
      Resolver.warnings_of_contextAfter h
    rw [hwarnings]
    exact CapabilityStore.pairwise_pendingNames hsound
  · intro ident members hdeclares member hmember
    have hwarned := mem_warnings_iff h (settings.naming.typeName member)
    by_cases htarget : registry.HasTarget (settings.naming.typeName member)
    · exact .inl ⟨attaches_of_hasTarget h hdeclares hmember htarget,
        fun hmem => (hwarned.1 hmem).2 htarget⟩
    · refine .inr ⟨hwarned.2 ⟨⟨ident, members, hdeclares, member, hmember, rfl⟩, htarget⟩, ?_⟩
      rintro ⟨entity, hentity, htargets, -⟩
      exact htarget ⟨entity, hentity, htargets⟩

/-- A union lists a name that nothing has, an enum, and a record that comes later; a second union
comes after the record. -/
theorem warnings_of_run_between :
    ∃ last, Settings.contextAfter {}
        "union U = X | E | A\n\nenum E \x7b V \x7d type A \x7b id: ID \x7d union V = A" =
          .ok last ∧
      Run.warnings ((Resolver.ofSettings {}).run
        "union U = X | E | A\n\nenum E \x7b V \x7d type A \x7b id: ID \x7d union V = A") =
          ["E", "X"] ∧
      last.settle.registry.Attaches "A" ⟨"U", ""⟩ ∧ last.settle.registry.Attaches "A" ⟨"V", ""⟩ ∧
      ¬ last.settle.registry.HasTarget "E" := by
  have hchunks : (Settings.chunks {}
      "union U = X | E | A\n\nenum E \x7b V \x7d type A \x7b id: ID \x7d union V = A").map
        Declaration.ofChunk? =
      [.union "U" ["X", "E", "A"], .enum "E" ["V"],
        .record "A" [{ ident := "id", type := .named "ID", required := false }],
        Declaration.union "V" ["A"]].map some := by
    decide +kernel
  have hU := (Settings.declaresUnion_iff hchunks).2 (.head _)
  have hV := (Settings.declaresUnion_iff hchunks).2 (.tail _ (.tail _ (.tail _ (.head _))))
  have hnames : (Settings.naming {}).typeName "A" = "A" ∧
      (Settings.naming {}).typeName "U" = "U" ∧ (Settings.naming {}).typeName "V" = "V" := by
    decide +kernel
  have hpending : (Settings.contextAfter {}
      "union U = X | E | A\n\nenum E \x7b V \x7d type A \x7b id: ID \x7d union V = A").toOption.map
        (fun last => last.settle.store.undelivered) = some ["E", "X"] := by
    decide +kernel
  obtain ⟨last, hlast, hundelivered⟩ := Option.map_eq_some_iff.1 hpending
  have h := eq_ok_of_toOption hlast
  have hwarnings : Run.warnings ((Resolver.ofSettings {}).run
      "union U = X | E | A\n\nenum E \x7b V \x7d type A \x7b id: ID \x7d union V = A") =
        ["E", "X"] := by
    rw [Resolver.warnings_of_contextAfter h, CapabilityStore.pendingNames, hundelivered]
    exact List.mergeSort_of_pairwise (by decide)
  obtain ⟨-, -, hwarned, heither⟩ := warnings_of_run h
  have hfirst := heither _ _ hU "A" (by decide)
  have hlate := heither _ _ hV "A" (by decide)
  rw [hnames.1, hwarnings] at hfirst hlate
  rw [hnames.2.1] at hfirst
  rw [hnames.2.2] at hlate
  refine ⟨last, h, hwarnings, ?_, ?_, ?_⟩
  · exact hfirst.or.resolve_right (by decide)
  · exact hlate.or.resolve_right (by decide)
  · exact ((hwarned "E").1 (hwarnings ▸ .head _)).2

end ModelGraph
