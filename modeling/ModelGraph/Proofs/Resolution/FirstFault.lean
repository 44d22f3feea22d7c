import Mathlib.Data.List.Forall2
import ModelGraph.Proofs.Resolution.Entering

/-! # The first fault of a document

Whether a chunk can be resolved depends on the chunk, the settings and the chunks before it: a chunk
is at fault if no parser accepts it, or if its resolved name is that of an earlier chunk. Resolution
reports the first fault and nothing else; without a fault it gives one entity for each chunk
(`outcome_of_resolve`). -/

namespace ModelGraph

/-- The resolved name of what a chunk declares. -/
def Settings.nameOf? (settings : Settings) (chunk : String) : Option String :=
  (Declaration.ofChunk? chunk).map fun declaration =>
    settings.naming.typeName declaration.ident

/-- No parser accepts the chunk. -/
def Refused (chunk : String) : Prop :=
  ∀ parser ∈ Parser.builtin, parser.accepts (normalize chunk) = false

/-- The chunk at a position is at fault, and this is the error that reports it. A refused chunk is
reported as it stands in the document, by the kind that its keyword names or by none. -/
inductive Fault (settings : Settings) (chunks : List String) (i : Nat) : ResolutionError → Prop
  | unsupportedEntity {chunk : String} {kind : Kind} (hc : chunks[i]? = some chunk)
      (hrefused : Refused chunk) (hkind : Kind.ofDeclaration? (normalize chunk) = some kind) :
      Fault settings chunks i (.unsupportedEntity kind chunk)
  | unsupportedDeclaration {chunk : String} (hc : chunks[i]? = some chunk)
      (hrefused : Refused chunk) (hkind : Kind.ofDeclaration? (normalize chunk) = none) :
      Fault settings chunks i (.unsupportedDeclaration chunk)
  | duplicateEntity {chunk earlier name : String} {j : Nat} (hc : chunks[i]? = some chunk)
      (hj : j < i) (he : chunks[j]? = some earlier) (hname : settings.nameOf? chunk = some name)
      (hearlier : settings.nameOf? earlier = some name) :
      Fault settings chunks i (.duplicateEntity name)

/-- The entity is the one that the chunk declares: of the kind of the parser that accepts the chunk,
under the name read from it. -/
def Declares (settings : Settings) (chunk : String) (entity : Entity) : Prop :=
  ∃ parser declaration, Parser.builtin.find? (·.accepts (normalize chunk)) = some parser ∧
    Declaration.read? parser.kind (normalize chunk) = some declaration ∧
    entity.kind = parser.kind ∧ entity.definition.ident = declaration.ident ∧
    entity.name = settings.naming.typeName declaration.ident

theorem refused_iff {chunk : String} : Refused chunk ↔ Declaration.ofChunk? chunk = none := by
  rw [← Resolver.find?_builtin_eq_none_iff, List.find?_eq_none]
  simp [Refused]

theorem Settings.nameOf?_eq_none_iff (settings : Settings) {chunk : String} :
    settings.nameOf? chunk = none ↔ Refused chunk := by
  rw [refused_iff, nameOf?, Option.map_eq_none_iff]

namespace Fault

variable {settings : Settings} {chunks : List String} {i : Nat} {error : ResolutionError}

/-- A chunk that no parser accepts is reported by its refusal. -/
theorem of_refused {chunk : String} (hc : chunks[i]? = some chunk) (h : Refused chunk) :
    Fault settings chunks i (Resolver.refusal chunk) := by
  rw [Resolver.refusal]
  cases hk : Kind.ofDeclaration? (normalize chunk) with
  | some kind => exact .unsupportedEntity hc h hk
  | none => exact .unsupportedDeclaration hc h hk

/-- What a fault is about: a refused chunk, or a name that an earlier chunk has. -/
theorem cases_at {chunk : String} (hc : chunks[i]? = some chunk)
    (h : Fault settings chunks i error) :
    (Refused chunk ∧ error = Resolver.refusal chunk) ∨
      ∃ name j earlier, settings.nameOf? chunk = some name ∧ error = .duplicateEntity name ∧
        j < i ∧ chunks[j]? = some earlier ∧ settings.nameOf? earlier = some name := by
  cases h with
  | unsupportedEntity hc' hrefused hkind =>
      obtain rfl := Option.some.inj (hc.symm.trans hc')
      exact .inl ⟨hrefused, by simp [Resolver.refusal, hkind]⟩
  | unsupportedDeclaration hc' hrefused hkind =>
      obtain rfl := Option.some.inj (hc.symm.trans hc')
      exact .inl ⟨hrefused, by simp [Resolver.refusal, hkind]⟩
  | duplicateEntity hc' hj he hname hearlier =>
      obtain rfl := Option.some.inj (hc.symm.trans hc')
      exact .inr ⟨_, _, _, hname, rfl, hj, he, hearlier⟩

theorem exists_chunk (h : Fault settings chunks i error) : ∃ chunk, chunks[i]? = some chunk := by
  cases h with
  | unsupportedEntity hc | unsupportedDeclaration hc | duplicateEntity hc => exact ⟨_, hc⟩

/-- A chunk has one error at most. -/
theorem unique {other : ResolutionError} (h : Fault settings chunks i error)
    (h' : Fault settings chunks i other) : error = other := by
  obtain ⟨chunk, hc⟩ := h.exists_chunk
  rcases h.cases_at hc with ⟨hr, he⟩ | ⟨name, -, -, hname, he, -⟩ <;>
    rcases h'.cases_at hc with ⟨hr', he'⟩ | ⟨name', -, -, hname', he', -⟩
  · rw [he, he']
  · rw [← Settings.nameOf?_eq_none_iff settings, hname'] at hr
    cases hr
  · rw [← Settings.nameOf?_eq_none_iff settings, hname] at hr'
    cases hr'
  · rw [hname, Option.some.injEq] at hname'
    rw [he, he', hname']

end Fault

namespace Context

/-- The names that are taken are those of the chunks before. -/
theorem Entered.mem_names_iff {settings : Settings} {start context : Context}
    {entered : List Declaration} {before : List String} (hs : ofSettings settings = .ok start)
    (h : Entered start entered context)
    (hb : before.map Declaration.ofChunk? = entered.map some) {name : String} :
    name ∈ context.registry.names ↔
      ∃ (j : Nat) (chunk : String), before[j]? = some chunk ∧
        settings.nameOf? chunk = some name := by
  obtain ⟨scalars, -, rfl⟩ := ofSettings_eq_ok_iff.1 hs
  have hnames : before.map settings.nameOf? = context.registry.names.map some := by
    have hmap := congrArg (List.map (Option.map fun declaration : Declaration =>
      settings.naming.typeName declaration.ident)) hb
    rw [List.map_map, List.map_map] at hmap
    rw [h.names_eq, List.map_map]
    exact hmap
  have hmem : name ∈ context.registry.names ↔ some name ∈ before.map settings.nameOf? := by
    simp [hnames]
  rw [hmem, List.mem_map]
  constructor
  · rintro ⟨chunk, hc, hn⟩
    obtain ⟨j, hj⟩ := List.mem_iff_getElem?.1 hc
    exact ⟨j, chunk, hj, hn⟩
  · rintro ⟨j, chunk, hj, hn⟩
    exact ⟨chunk, List.mem_of_getElem? hj, hn⟩

section Next

variable {settings : Settings} {start context : Context} {entered : List Declaration}
  {before rest : List String} {chunk : String} {declaration : Declaration}

/-- The settings are kept, so a chunk has the name under which it is entered. -/
theorem Entered.nameOf?_eq (hs : ofSettings settings = .ok start)
    (h : Entered start entered context) (hd : Declaration.ofChunk? chunk = some declaration) :
    settings.nameOf? chunk = some (context.typeName declaration.ident) := by
  obtain ⟨scalars, -, rfl⟩ := ofSettings_eq_ok_iff.1 hs
  simp [Settings.nameOf?, hd, typeName, h.settings_eq]

/-- The next chunk is at fault if its name is taken. -/
theorem Entered.fault_of_taken (hs : ofSettings settings = .ok start)
    (h : Entered start entered context) (hb : before.map Declaration.ofChunk? = entered.map some)
    (hd : Declaration.ofChunk? chunk = some declaration)
    (htaken : context.registry.contains (context.typeName declaration.ident) = true) :
    Fault settings (before ++ chunk :: rest) before.length
      (.duplicateEntity (context.typeName declaration.ident)) := by
  rw [h.indexed.contains_iff, h.mem_names_iff hs hb] at htaken
  obtain ⟨j, earlier, hj, hearlier⟩ := htaken
  have hlt := (List.getElem?_eq_some_iff.1 hj).1
  exact .duplicateEntity (by simp) hlt ((List.getElem?_append_left hlt).trans hj)
    (h.nameOf?_eq hs hd) hearlier

/-- The next chunk is not at fault if it can be read and its name is new. -/
theorem Entered.not_fault_of_new (hs : ofSettings settings = .ok start)
    (h : Entered start entered context) (hb : before.map Declaration.ofChunk? = entered.map some)
    (hd : Declaration.ofChunk? chunk = some declaration)
    (hnew : context.registry.contains (context.typeName declaration.ident) = false)
    (error : ResolutionError) :
    ¬ Fault settings (before ++ chunk :: rest) before.length error := by
  intro hf
  have hc : (before ++ chunk :: rest)[before.length]? = some chunk := by simp
  rcases hf.cases_at hc with ⟨hr, -⟩ | ⟨name, j, earlier, hsame, -, hlt, hj, hearlier⟩
  · rw [refused_iff, hd] at hr
    cases hr
  · rw [h.nameOf?_eq hs hd, Option.some.injEq] at hsame
    rw [List.getElem?_append_left hlt] at hj
    have htaken := (h.mem_names_iff hs hb).2 ⟨j, earlier, hj, hearlier⟩
    rw [← hsame, ← h.indexed.contains_iff, hnew] at htaken
    cases htaken

end Next

end Context

namespace Resolver

/-- From a context that was entered without a fault, resolution goes on to the first fault, or to
the end if there is none. -/
theorem outcome_resolveAll_or {settings : Settings} {start context : Context}
    (hs : Context.ofSettings settings = .ok start) {before after : List String}
    {entered : List Declaration} (hb : before.map Declaration.ofChunk? = entered.map some)
    (he : start.enterAll entered = .ok context)
    (hno : ∀ i < before.length, ∀ error, ¬ Fault settings (before ++ after) i error) :
    (∃ i error, Fault settings (before ++ after) i error ∧
        (∀ j < i, ∀ other, ¬ Fault settings (before ++ after) j other) ∧
        (resolveAll Parser.builtin context after).outcome = .error error) ∨
      ((∀ i error, ¬ Fault settings (before ++ after) i error) ∧
        ∃ last, (resolveAll Parser.builtin context after).outcome = .ok last) := by
  induction after generalizing before entered context with
  | nil =>
      refine .inr ⟨fun i error hf => ?_, context, rfl⟩
      obtain ⟨chunk, hc⟩ := hf.exists_chunk
      have hlt : i < before.length := by simpa using (List.getElem?_eq_some_iff.1 hc).1
      exact hno i hlt error hf
  | cons chunk rest ih =>
      have hc : (before ++ chunk :: rest)[before.length]? = some chunk := by simp
      rw [outcome_resolveAll_cons]
      cases hd : Declaration.ofChunk? chunk with
      | none => exact .inl ⟨before.length, _, .of_refused hc (refused_iff.2 hd), hno, rfl⟩
      | some declaration =>
          have hentered := Context.Entered.of_enterAll hs he
          cases hn : context.enter declaration with
          | error error =>
              simp only [hn]
              obtain ⟨htaken, rfl⟩ := Context.enter_eq_error_iff.1 hn
              exact .inl ⟨before.length, _, hentered.fault_of_taken hs hb hd htaken, hno, rfl⟩
          | ok next =>
              simp only [hn]
              have hnew := (Context.enter_eq_ok_iff.1 hn).1
              have hread : (before ++ [chunk]).map Declaration.ofChunk? =
                  (entered ++ [declaration]).map some := by simp [hb, hd]
              have hnext : start.enterAll (entered ++ [declaration]) = .ok next := by
                simp [Context.enterAll_append, he, Context.enterAll, hn, Except.bind]
              have hstep := ih hread hnext
              rw [List.append_assoc, List.singleton_append] at hstep
              refine hstep fun i hi error => ?_
              rw [List.length_append, List.length_singleton, Nat.lt_succ_iff_lt_or_eq] at hi
              rcases hi with hi | rfl
              · exact hno i hi error
              · exact hentered.not_fault_of_new hs hb hd hnew error

end Resolver

/-- An entity of the name and kind of what is read from a chunk is what the chunk declares. -/
theorem declares_of_signature {settings : Settings} {start : Context}
    (hs : Context.ofSettings settings = .ok start) {chunk : String} {declaration : Declaration}
    {entity : Entity} (hc : Declaration.ofChunk? chunk = some declaration)
    (he : (entity.definition, entity.kind) = (start.define declaration.ident, declaration.kind)) :
    Declares settings chunk entity := by
  obtain ⟨scalars, -, rfl⟩ := Context.ofSettings_eq_ok_iff.1 hs
  obtain ⟨hfind, hread⟩ := Resolver.find?_builtin_of_ofChunk? hc
  obtain ⟨hdefinition, hkind⟩ := Prod.mk.inj he
  refine ⟨_, declaration, hfind, hread, hkind, ?_, ?_⟩
  · rw [hdefinition]
    rfl
  · rw [Entity.name, hdefinition]
    rfl

/-- Every chunk that is entered declares the entity at its position. -/
theorem declares_of_enterAll {settings : Settings} {start last : Context} {chunks : List String}
    {declarations : List Declaration} (hs : Context.ofSettings settings = .ok start)
    (hc : chunks.map Declaration.ofChunk? = declarations.map some)
    (hl : start.enterAll declarations = .ok last) :
    List.Forall₂ (Declares settings) chunks last.settle.registry.entities := by
  have hsettled := congrArg (List.map fun entity => (entity.definition, entity.kind))
    (Context.map_bare_settle last)
  rw [List.map_map, List.map_map] at hsettled
  have he : last.settle.registry.entities.map (fun entity => (entity.definition, entity.kind)) =
      declarations.map fun declaration => (start.define declaration.ident, declaration.kind) :=
    hsettled.trans (Context.Entered.of_enterAll hs hl).signatures
  generalize last.settle.registry.entities = entities at he
  clear hsettled hl
  induction declarations generalizing chunks entities with
  | nil =>
      rw [List.map_nil, List.map_eq_nil_iff] at hc he
      rw [hc, he]
      exact .nil
  | cons declaration rest ih =>
      obtain ⟨chunk, others, rfl, hchunk, hothers⟩ := List.map_eq_cons_iff.1 hc
      obtain ⟨entity, entities, rfl, hentity, hentities⟩ := List.map_eq_cons_iff.1 he
      exact .cons (declares_of_signature hs hchunk hentity) (ih hothers entities hentities)

/-- The custom scalars are refused at the first that stands for no built-in scalar. -/
theorem customScalars_eq_error {entries : List (String × String)}
    (h : ∃ entry ∈ entries, Scalar.ofName? entry.2 = none) :
    ∃ before name target after, entries = before ++ (name, target) :: after ∧
      (∀ entry ∈ before, Scalar.ofName? entry.2 ≠ none) ∧ Scalar.ofName? target = none ∧
      customScalars entries = .error (.unknownScalar name target) := by
  induction entries with
  | nil => simp at h
  | cons entry rest ih =>
      obtain ⟨name, target⟩ := entry
      cases hs : Scalar.ofName? target with
      | none => exact ⟨[], name, target, rest, rfl, by simp, hs, by simp [customScalars, hs]⟩
      | some scalar =>
          have hrest : ∃ entry ∈ rest, Scalar.ofName? entry.2 = none := by
            obtain ⟨entry, hentry, hnone⟩ := h
            rcases List.mem_cons.1 hentry with rfl | hentry
            · rw [hs] at hnone
              cases hnone
            · exact ⟨entry, hentry, hnone⟩
          obtain ⟨before, other, unknown, after, rfl, hbefore, hunknown, herror⟩ := ih hrest
          refine ⟨(name, target) :: before, other, unknown, after, rfl, ?_, hunknown, ?_⟩
          · simpa [hs] using hbefore
          · simp [customScalars, hs, herror, Except.map]

/-- Custom scalars that all stand for built-in ones are accepted. -/
theorem exists_customScalars {entries : List (String × String)}
    (h : ∀ entry ∈ entries, Scalar.ofName? entry.2 ≠ none) :
    ∃ scalars, customScalars entries = .ok scalars := by
  induction entries with
  | nil => exact ⟨[], rfl⟩
  | cons entry rest ih =>
      obtain ⟨name, target⟩ := entry
      obtain ⟨scalar, hs⟩ := Option.ne_none_iff_exists'.1 (h (name, target) (by simp))
      obtain ⟨scalars, hrest⟩ := ih fun entry hentry => h entry (by simp [hentry])
      exact ⟨(name, scalar) :: scalars, by simp [customScalars, hs, hrest, Except.map]⟩

/-- Without the demand that references are resolved, a document is resolved as far as its chunks. -/
theorem resolve_of_lax (document : String) {settings : Settings} {start : Context}
    (hlax : settings.strictReferences = false) (hs : Context.ofSettings settings = .ok start) :
    (∃ i error, Fault settings (settings.chunks document) i error ∧
        (∀ j < i, ∀ other, ¬ Fault settings (settings.chunks document) j other) ∧
        resolve document settings = .error error) ∨
      ((∀ i error, ¬ Fault settings (settings.chunks document) i error) ∧
        ∃ registry, resolve document settings = .ok registry ∧
          List.Forall₂ (Declares settings) (settings.chunks document) registry.entities) := by
  have hread : ([] : List String).map Declaration.ofChunk? = ([] : List Declaration).map some := rfl
  have hno : ∀ i < ([] : List String).length, ∀ error,
      ¬ Fault settings ([] ++ settings.chunks document) i error :=
    fun i hi => absurd hi (Nat.not_lt_zero i)
  rcases Resolver.outcome_resolveAll_or hs hread rfl hno with
    ⟨i, error, hf, hleast, ho⟩ | ⟨hno, last, ho⟩
  · have herror : resolve document settings = .error error := by
      rw [resolve_eq, hs, Except.bind, ho]
      rfl
    exact .inl ⟨i, error, hf, hleast, herror⟩
  · obtain ⟨declarations, hd, hl⟩ := Resolver.outcome_resolveAll_eq_ok_iff.1 ho
    exact .inr ⟨hno, last.settle.registry,
      (resolve_eq_ok_iff_of_lax hlax).2 ⟨start, declarations, last, hs, hd, hl, rfl⟩,
      declares_of_enterAll hs hd hl⟩

/-- How a resolution ends that may leave references unresolved. An unknown custom scalar comes
first, the one with the least name. Otherwise the first fault of the document is reported, a chunk
being at fault by itself or by the names before it; and without one every chunk declares the entity
at its position. -/
theorem outcome_of_resolve (document : String) {settings : Settings}
    (hlax : settings.strictReferences = false) :
    ((∃ entry ∈ settings.scalars, Scalar.ofName? entry.2 = none) →
      ∃ name target, (name, target) ∈ settings.scalars ∧ Scalar.ofName? target = none ∧
        resolve document settings = .error (.unknownScalar name target) ∧
        (Keyed.Ordered settings.scalars → ∀ entry ∈ settings.scalars,
          Scalar.ofName? entry.2 = none → name ≤ entry.1)) ∧
    ((∀ entry ∈ settings.scalars, Scalar.ofName? entry.2 ≠ none) →
      ((∃ error, resolve document settings = .error error) ↔
        ∃ i error, Fault settings (settings.chunks document) i error) ∧
      (∀ i error, Fault settings (settings.chunks document) i error →
        (∀ j < i, ∀ other, ¬ Fault settings (settings.chunks document) j other) →
          resolve document settings = .error error) ∧
      ((∀ i error, ¬ Fault settings (settings.chunks document) i error) →
        ∃ registry, resolve document settings = .ok registry ∧
          List.Forall₂ (Declares settings) (settings.chunks document) registry.entities)) := by
  constructor
  · intro hunknown
    obtain ⟨before, name, target, after, hentries, hbefore, htarget, herror⟩ :=
      customScalars_eq_error hunknown
    refine ⟨name, target, by simp [hentries], htarget, ?_, ?_⟩
    · have hsettings : (Resolver.ofSettings settings).settings = settings := rfl
      simp only [resolve, Resolver.resolve, Resolver.run, hsettings, Context.ofSettings, herror,
        Except.map]
    · intro hordered entry hentry hnone
      rw [hentries, List.mem_append, List.mem_cons] at hentry
      rcases hentry with hentry | rfl | hentry
      · exact absurd hnone (hbefore entry hentry)
      · exact String.le_refl name
      · rw [Keyed.Ordered, hentries, Keyed.names, List.map_append, List.pairwise_append,
          List.map_cons, List.pairwise_cons] at hordered
        have hlt : name < entry.1 := hordered.2.1.1 entry.1 (List.mem_map_of_mem hentry)
        exact String.not_lt.1 (String.lt_asymm hlt)
  · intro hknown
    obtain ⟨scalars, hscalars⟩ := exists_customScalars hknown
    have hs : Context.ofSettings settings = .ok { settings := settings, scalars := scalars } :=
      Context.ofSettings_eq_ok_iff.2 ⟨scalars, hscalars, rfl⟩
    rcases resolve_of_lax document hlax hs with
      ⟨i, error, hf, hleast, hr⟩ | ⟨hno, registry, hr, hdeclares⟩
    · refine ⟨⟨fun _ => ⟨i, error, hf⟩, fun _ => ⟨error, hr⟩⟩, fun k other hk hkleast => ?_,
        fun hnone => absurd hf (hnone i error)⟩
      -- both positions are least, so they are one
      rcases Nat.lt_trichotomy i k with hlt | rfl | hlt
      · exact absurd hf (hkleast i hlt error)
      · rw [hr, hf.unique hk]
      · exact absurd hk (hleast k hlt other)
    · refine ⟨⟨?_, ?_⟩, fun i error hf => absurd hf (hno i error),
        fun _ => ⟨registry, hr, hdeclares⟩⟩
      · rintro ⟨error, he⟩
        rw [hr] at he
        cases he
      · rintro ⟨i, error, hf⟩
        exact absurd hf (hno i error)

/-- Two names that differ as they are declared may be one name when they are resolved. -/
theorem outcome_of_resolve_snake :
    resolve "type user_name \x7b id: ID \x7d input UserName \x7b id: ID \x7d" {} =
      .error (.duplicateEntity "UserName") := by
  have hchunks : Settings.chunks {}
      "type user_name \x7b id: ID \x7d input UserName \x7b id: ID \x7d" =
      ["type user_name \x7b id: ID \x7d", "input UserName \x7b id: ID \x7d"] := by
    decide +kernel
  have hfirst : Settings.nameOf? {} "type user_name \x7b id: ID \x7d" = some "UserName" := by
    decide +kernel
  have hsecond : Settings.nameOf? {} "input UserName \x7b id: ID \x7d" = some "UserName" := by
    decide +kernel
  refine ((outcome_of_resolve _ rfl).2 (by simp)).2.1 1 _ ?_ ?_ <;> rw [hchunks]
  · exact .duplicateEntity rfl Nat.zero_lt_one rfl hsecond hfirst
  · intro j hj other hf
    obtain rfl : j = 0 := Nat.lt_one_iff.1 hj
    rcases hf.cases_at rfl with ⟨hrefused, -⟩ | ⟨-, k, -, -, -, hk, -⟩
    · rw [← Settings.nameOf?_eq_none_iff {}, hfirst] at hrefused
      cases hrefused
    · exact Nat.not_lt_zero k hk

end ModelGraph
