import ModelGraph.Proofs.Resolution.FirstFault

/-! # More parsers

Parsers that a caller appends are tried after those of all kinds, so they see only declarations that
those refuse. A resolution that refuses nothing is not changed by them, whatever they do; one that
refuses a declaration is the same up to it (`run_withParsers`). -/

namespace ModelGraph

/-- The declaration that no parser accepts, if that is the error. -/
def ResolutionError.rejected? : ResolutionError → Option String
  | unsupportedEntity _ declaration | unsupportedDeclaration declaration => some declaration
  | duplicateEntity _ | unknownScalar _ _ | unresolvedReferences _ => none

/-- A run with what happened before it. -/
def Run.after {α : Type} (run : Run α) (earlier : List Event) : Run α :=
  ⟨earlier ++ run.events, run.outcome⟩

/-- A run and, unless it fails, another one from its result. -/
def Run.andThen {α β : Type} (run : Run α) (next : α → Run β) : Run β :=
  match run.outcome with
  | .ok value => (next value).after run.events
  | .error error => ⟨run.events, .error error⟩

namespace Run

variable {α β γ : Type}

@[simp] theorem events_after (run : Run α) (earlier : List Event) :
    (run.after earlier).events = earlier ++ run.events := rfl

@[simp] theorem outcome_after (run : Run α) (earlier : List Event) :
    (run.after earlier).outcome = run.outcome := rfl

theorem after_after (run : Run α) (earlier earliest : List Event) :
    (run.after earlier).after earliest = run.after (earliest ++ earlier) := by
  rw [after, after, after, List.append_assoc]

@[simp] theorem andThen_ok (events : List Event) (value : α) (next : α → Run β) :
    (⟨events, .ok value⟩ : Run α).andThen next = (next value).after events := rfl

@[simp] theorem andThen_error (events : List Event) (error : ResolutionError)
    (next : α → Run β) :
    (⟨events, .error error⟩ : Run α).andThen next = ⟨events, .error error⟩ := rfl

theorem after_andThen (run : Run α) (earlier : List Event) (next : α → Run β) :
    (run.after earlier).andThen next = (run.andThen next).after earlier := by
  obtain ⟨events, error | value⟩ := run
  · rfl
  · exact (after_after (next value) events earlier).symm

end Run

namespace Resolver

/-- The resolver that tries the given parsers, in order, after its own. -/
def withParsers (resolver : Resolver) (extra : List Parser) : Resolver :=
  extra.foldl withParser resolver

/-- The declarations that are dropped from a document before any is resolved. -/
def dropEvents (resolver : Resolver) (document : String) : List Event :=
  (resolver.splitter.drops document.toList).map Event.dropped

/-- The end of a run, once all declarations are resolved. -/
def finish (last : Context) : Run Registry :=
  ⟨last.settle.store.pendingNames.map Event.neverAttached, conclude last.settle⟩

/-- A resolver gets to the chunks `rest` of a document: it resolved and registered those before,
which had the events `events`, and is in the context `reached`. -/
structure Reaches (resolver : Resolver) (document : String) (before rest : List String)
    (events : List Event) (reached : Context) : Prop where
  chunks : resolver.splitter.split document = before ++ rest
  resolved : ∃ start, Context.ofSettings resolver.settings = .ok start ∧
    resolveAll resolver.parsers start before = ⟨events, .ok reached⟩

@[simp] theorem settings_withParsers (resolver : Resolver) (extra : List Parser) :
    (resolver.withParsers extra).settings = resolver.settings := by
  induction extra generalizing resolver with
  | nil => rfl
  | cons parser rest ih => exact ih (resolver.withParser parser)

@[simp] theorem parsers_withParsers (resolver : Resolver) (extra : List Parser) :
    (resolver.withParsers extra).parsers = resolver.parsers ++ extra := by
  induction extra generalizing resolver with
  | nil => exact (List.append_nil _).symm
  | cons parser rest ih =>
      calc
        (resolver.withParsers (parser :: rest)).parsers
            = (resolver.withParser parser).parsers ++ rest := ih (resolver.withParser parser)
        _ = resolver.parsers ++ parser :: rest := List.append_assoc _ [parser] rest

/-- The splitter is a matter of the settings. -/
@[simp] theorem splitter_withParsers (resolver : Resolver) (extra : List Parser) :
    (resolver.withParsers extra).splitter = resolver.splitter := by
  rw [splitter, settings_withParsers, splitter]

section Parsers

variable {parsers : List Parser} (extra : List Parser) (context : Context)

/-- A chunk that a parser accepts never comes to the parsers after it. -/
theorem resolveOne_append {chunk : String}
    (h : ∃ parser ∈ parsers, parser.accepts (normalize chunk) = true) :
    resolveOne (parsers ++ extra) context chunk = resolveOne parsers context chunk := by
  have hfound : (parsers.find? (·.accepts (normalize chunk))).isSome = true :=
    List.find?_isSome.2 h
  obtain ⟨parser, hparser⟩ := Option.isSome_iff_exists.1 hfound
  rw [resolveOne, resolveOne, List.find?_append, hparser, Option.some_or]

/-- A chunk that no parser accepts goes to the first of those after them that does. -/
theorem resolveOne_append_of_refused {chunk : String}
    (h : ∀ parser ∈ parsers, parser.accepts (normalize chunk) = false) :
    resolveOne (parsers ++ extra) context chunk = resolveOne extra context chunk := by
  have hnone : parsers.find? (·.accepts (normalize chunk)) = none := by
    simpa [List.find?_eq_none] using h
  rw [resolveOne, resolveOne, List.find?_append, hnone, Option.none_or]

/-- The induction is on the chunks, with the context after each. -/
theorem resolveAll_append_parsers {chunks : List String}
    (h : ∀ chunk ∈ chunks, ∃ parser ∈ parsers, parser.accepts (normalize chunk) = true) :
    resolveAll (parsers ++ extra) context chunks = resolveAll parsers context chunks := by
  induction chunks generalizing context with
  | nil => rfl
  | cons chunk rest ih =>
      have hfirst := resolveOne_append extra context (h chunk List.mem_cons_self)
      have hrest := fun next => ih next fun other hother => h other (List.mem_cons_of_mem _ hother)
      simp only [resolveAll, hfirst, hrest]

variable (parsers) in
/-- Chunks are resolved in order, so the later ones from where the earlier ones lead. -/
theorem resolveAll_append (first second : List String) :
    resolveAll parsers context (first ++ second) =
      (resolveAll parsers context first).andThen fun reached =>
        resolveAll parsers reached second := by
  induction first generalizing context with
  | nil => rfl
  | cons chunk rest ih =>
      rw [List.cons_append, resolveAll, resolveAll]
      split
      · rfl
      · next entity next _ =>
        cases next.register entity with
        | error error => rfl
        | ok registered =>
            simp only [ih]
            cases h : (resolveAll parsers registered rest).outcome <;>
              simp [Run.andThen, Run.after, h]

end Parsers

/-- Resolving chunks that are all accepted never ends with a rejection. -/
theorem rejected?_resolveAll {context : Context} {chunks : List String}
    (h : ∀ chunk ∈ chunks, ¬ Refused chunk) {error : ResolutionError}
    (he : (resolveAll Parser.builtin context chunks).outcome = .error error) :
    error.rejected? = none := by
  induction chunks generalizing context with
  | nil => cases he
  | cons chunk rest ih =>
      have hread := h chunk List.mem_cons_self
      rw [refused_iff, ← ne_eq, Option.ne_none_iff_exists'] at hread
      obtain ⟨declaration, hd⟩ := hread
      rw [outcome_resolveAll_cons, hd] at he
      cases hn : context.enter declaration with
      | error duplicate =>
          simp only [hn, Except.bind, Except.error.injEq] at he
          obtain ⟨-, rfl⟩ := Context.enter_eq_error_iff.1 hn
          rw [← he]
          rfl
      | ok next =>
          simp only [hn, Except.bind] at he
          exact ih (fun other hother => h other (List.mem_cons_of_mem _ hother)) he

theorem run_eq_of_error (resolver : Resolver) {error : ResolutionError}
    (hs : Context.ofSettings resolver.settings = .error error) (document : String) :
    resolver.run document = ⟨[], .error error⟩ := by
  simp only [run, hs]

/-- A run drops what is no entity, resolves the chunks, and finishes. -/
theorem run_eq (resolver : Resolver) {start : Context}
    (hs : Context.ofSettings resolver.settings = .ok start) (document : String) :
    resolver.run document =
      ((resolveAll resolver.parsers start (resolver.splitter.split document)).andThen finish).after
        (resolver.dropEvents document) := by
  simp only [run, hs, dropEvents]
  cases h : (resolveAll resolver.parsers start (resolver.splitter.split document)).outcome <;>
    simp [Run.after, Run.andThen, h, finish]

/-- A resolver that gets to some chunk goes on from there. -/
theorem Reaches.run_eq {resolver : Resolver} {document : String} {before rest : List String}
    {events : List Event} {reached : Context}
    (h : resolver.Reaches document before rest events reached) :
    resolver.run document = ((resolveAll resolver.parsers reached rest).andThen finish).after
      (resolver.dropEvents document ++ events) := by
  obtain ⟨start, hs, hbefore⟩ := h.resolved
  rw [Resolver.run_eq _ hs, h.chunks, resolveAll_append, hbefore, Run.andThen_ok, Run.after_andThen,
    Run.after_after]

/-- Getting to a chunk that no parser accepts ends the run. -/
theorem Reaches.run_eq_of_refused {settings : Settings} {document rejected : String}
    {before after : List String} {events : List Event} {reached : Context}
    (h : (ofSettings settings).Reaches document before (rejected :: after) events reached)
    (hrefused : Refused rejected) :
    (ofSettings settings).run document =
      ⟨(ofSettings settings).dropEvents document ++ events, .error (refusal rejected)⟩ := by
  have hone :
      resolveOne Parser.builtin reached rejected = (.error (refusal rejected), reached) := by
    rw [resolveOne_builtin, refused_iff.1 hrefused]
  have hrest : resolveAll Parser.builtin reached (rejected :: after) =
      ⟨[], .error (refusal rejected)⟩ := by
    rw [resolveAll, hone]
  have hparsers : (ofSettings settings).parsers = Parser.builtin := rfl
  rw [h.run_eq, hparsers, hrest, Run.andThen_error, Run.after, List.append_nil]

end Resolver

/-- Either all chunks are accepted, or there is a first one that is not. -/
theorem exists_first_refused (chunks : List String) :
    (∀ chunk ∈ chunks, ¬ Refused chunk) ∨
      ∃ before rejected after, chunks = before ++ rejected :: after ∧
        (∀ chunk ∈ before, ¬ Refused chunk) ∧ Refused rejected := by
  cases hf : chunks.find? fun chunk => (Declaration.ofChunk? chunk).isNone with
  | none =>
      left
      simpa [List.find?_eq_none, refused_iff] using hf
  | some rejected =>
      right
      obtain ⟨hrejected, before, after, hchunks, hbefore⟩ := List.find?_eq_some_iff_append.1 hf
      refine ⟨before, rejected, after, hchunks, ?_, ?_⟩
      · simpa [refused_iff, ← Option.isSome_iff_ne_none] using hbefore
      · simpa [refused_iff] using hrejected

theorem not_refused_iff {chunk : String} :
    ¬ Refused chunk ↔ ∃ parser ∈ Parser.builtin, parser.accepts (normalize chunk) = true := by
  simp [Refused]

namespace Resolver

@[simp] theorem rejected?_refusal (chunk : String) : (refusal chunk).rejected? = some chunk := by
  rw [refusal]
  split <;> rfl

/-- Unknown scalars are no rejection of a declaration. -/
theorem rejected?_ofSettings {settings : Settings} {error : ResolutionError}
    (h : Context.ofSettings settings = .error error) : error.rejected? = none := by
  rw [Context.ofSettings] at h
  generalize settings.scalars = entries at h
  induction entries with
  | nil => cases h
  | cons entry rest ih =>
      rw [customScalars] at h
      cases hs : Scalar.ofName? entry.2 with
      | none =>
          simp only [hs, Except.map, Except.error.injEq] at h
          rw [← h]
          rfl
      | some scalar =>
          apply ih
          simp only [hs] at h
          cases hrest : customScalars rest with
          | error other => simpa [hrest, Except.map] using h
          | ok scalars => simp [hrest, Except.map] at h

/-- Unresolved references are no rejection of a declaration. -/
theorem rejected?_conclude {context : Context} {error : ResolutionError}
    (h : conclude context = .error error) : error.rejected? = none := by
  rw [conclude] at h
  split at h
  · split at h <;> cases h
    rfl
  · cases h

/-- What rejects nothing does not do so when it finishes. -/
theorem rejected?_andThen_finish {run : Run Context}
    (hrun : ∀ error, run.outcome = .error error → error.rejected? = none)
    {error : ResolutionError} (h : (run.andThen finish).outcome = .error error) :
    error.rejected? = none := by
  obtain ⟨events, failure | last⟩ := run
  · obtain rfl : failure = error := Except.error.inj h
    exact hrun failure rfl
  · exact rejected?_conclude h

section Further

variable (extra : List Parser)

/-- Further parsers see nothing of chunks that are all accepted. -/
theorem resolveAll_builtin_append (context : Context) {chunks : List String}
    (h : ∀ chunk ∈ chunks, ¬ Refused chunk) :
    resolveAll (Parser.builtin ++ extra) context chunks =
      resolveAll Parser.builtin context chunks := by
  apply resolveAll_append_parsers
  intro chunk hchunk
  exact not_refused_iff.1 (h chunk hchunk)

/-- Chunks are resolved alike with further parsers, and none is rejected, unless a rejected chunk
stands behind chunks that are all resolved. -/
theorem resolveAll_builtin_append_or (start : Context) (chunks : List String) :
    (resolveAll (Parser.builtin ++ extra) start chunks = resolveAll Parser.builtin start chunks ∧
      ∀ error, (resolveAll Parser.builtin start chunks).outcome = .error error →
        error.rejected? = none) ∨
    ∃ before rejected after events reached, chunks = before ++ rejected :: after ∧
      (∀ chunk ∈ before, ¬ Refused chunk) ∧ Refused rejected ∧
      resolveAll Parser.builtin start before = ⟨events, .ok reached⟩ := by
  rcases exists_first_refused chunks with hall | ⟨before, rejected, after, rfl, hbefore, hrejected⟩
  · left
    exact ⟨resolveAll_builtin_append extra start hall, fun error => rejected?_resolveAll hall⟩
  · cases hrun : resolveAll Parser.builtin start before with
    | mk events outcome =>
        cases outcome with
        | ok reached =>
            right
            exact ⟨before, rejected, after, events, reached, rfl, hbefore, hrejected, hrun⟩
        | error error =>
            left
            have hsame := resolveAll_builtin_append extra start hbefore
            constructor
            · rw [resolveAll_append, resolveAll_append, hsame, hrun, Run.andThen_error,
                Run.andThen_error]
            · intro other hother
              rw [resolveAll_append, hrun, Run.andThen_error] at hother
              apply rejected?_resolveAll hbefore
              rw [hrun]
              exact hother

variable {settings : Settings} {document : String}

/-- Further parsers do not change how a resolver gets past chunks that are all accepted. -/
theorem Reaches.withParsers {before rest : List String} {events : List Event} {reached : Context}
    (h : (ofSettings settings).Reaches document before rest events reached)
    (hbefore : ∀ chunk ∈ before, ¬ Refused chunk) :
    ((ofSettings settings).withParsers extra).Reaches document before rest events reached where
  chunks := by
    rw [splitter_withParsers]
    exact h.chunks
  resolved := by
    obtain ⟨start, hs, hreached⟩ := h.resolved
    refine ⟨start, ?_, ?_⟩
    · rw [settings_withParsers]
      exact hs
    · rw [parsers_withParsers]
      exact (resolveAll_builtin_append extra start hbefore).trans hreached

variable (settings document)

/-- Further parsers change nothing and nothing is rejected, unless the resolver gets to a rejected
chunk. -/
theorem run_withParsers_or :
    (((ofSettings settings).withParsers extra).run document = (ofSettings settings).run document ∧
      ∀ error, (ofSettings settings).resolve document = .error error → error.rejected? = none) ∨
    ∃ before rejected after events reached, (∀ chunk ∈ before, ¬ Refused chunk) ∧
      Refused rejected ∧
      (ofSettings settings).Reaches document before (rejected :: after) events reached := by
  have hstart : Context.ofSettings ((ofSettings settings).withParsers extra).settings =
      Context.ofSettings settings := by
    rw [settings_withParsers]
    rfl
  cases hs : Context.ofSettings settings with
  | error unknown =>
      left
      have hplain := (ofSettings settings).run_eq_of_error hs document
      constructor
      · rw [hplain]
        exact run_eq_of_error _ (hstart.trans hs) document
      · intro error herror
        rw [resolve, hplain] at herror
        cases herror
        exact rejected?_ofSettings hs
  | ok start =>
      have hplain := (ofSettings settings).run_eq hs document
      rcases resolveAll_builtin_append_or extra start
          ((ofSettings settings).splitter.split document) with
        ⟨hsame, hnone⟩ |
          ⟨before, rejected, after, events, reached, hchunks, hbefore, hrefused, hreached⟩
      · left
        constructor
        · calc
            ((ofSettings settings).withParsers extra).run document
                = ((resolveAll (Parser.builtin ++ extra) start
                    ((ofSettings settings).splitter.split document)).andThen finish).after
                      ((ofSettings settings).dropEvents document) := by
              rw [run_eq _ (hstart.trans hs), parsers_withParsers, splitter_withParsers, dropEvents,
                splitter_withParsers]
              rfl
            _ = (ofSettings settings).run document := by
              rw [hsame, hplain]
              rfl
        · intro error herror
          rw [resolve, hplain, Run.outcome_after] at herror
          exact rejected?_andThen_finish hnone herror
      · right
        exact ⟨before, rejected, after, events, reached, hbefore, hrefused, hchunks, start, hs,
          hreached⟩

end Further

/-- Parsers tried after those of all kinds change nothing about a resolution that does not reject a
declaration. One that does gets to the rejected declaration alike with them: those before are
resolved the same way, in the same context, and the rejected one is left to the first of the further
parsers that accepts it. -/
theorem run_withParsers (settings : Settings) (extra : List Parser) (document : String) :
    ((∀ error, (ofSettings settings).resolve document = .error error → error.rejected? = none) →
      ((ofSettings settings).withParsers extra).run document =
        (ofSettings settings).run document) ∧
    ∀ error rejected, (ofSettings settings).resolve document = .error error →
      error.rejected? = some rejected →
        Refused rejected ∧ error = refusal rejected ∧
        ((ofSettings settings).run document).events <+:
          (((ofSettings settings).withParsers extra).run document).events ∧
        ∃ before after events reached,
          (ofSettings settings).Reaches document before (rejected :: after) events reached ∧
          ((ofSettings settings).withParsers extra).Reaches document before (rejected :: after)
            events reached ∧
          (∀ chunk ∈ before, ∀ context,
            resolveOne ((ofSettings settings).withParsers extra).parsers context chunk =
              resolveOne (ofSettings settings).parsers context chunk) ∧
          resolveOne ((ofSettings settings).withParsers extra).parsers reached rejected =
            resolveOne extra reached rejected := by
  constructor
  · intro hnone
    rcases run_withParsers_or extra settings document with
      ⟨hsame, -⟩ | ⟨before, rejected, after, events, reached, -, hrefused, hreaches⟩
    · exact hsame
    · have hrun := hreaches.run_eq_of_refused hrefused
      have hsome := hnone (refusal rejected) (congrArg Run.outcome hrun)
      rw [rejected?_refusal] at hsome
      cases hsome
  · intro error rejected herror hrejected
    rcases run_withParsers_or extra settings document with
      ⟨-, hnone⟩ | ⟨before, chunk, after, events, reached, hbefore, hrefused, hreaches⟩
    · rw [hnone error herror] at hrejected
      cases hrejected
    · have hrun := hreaches.run_eq_of_refused hrefused
      rw [resolve, hrun] at herror
      obtain rfl : refusal chunk = error := Except.error.inj herror
      rw [rejected?_refusal] at hrejected
      obtain rfl : chunk = rejected := Option.some.inj hrejected
      have hfurther := hreaches.withParsers extra hbefore
      refine ⟨hrefused, rfl, ?_, before, after, events, reached, hreaches, hfurther, ?_, ?_⟩
      · rw [hrun, hfurther.run_eq, Run.events_after, dropEvents, dropEvents, splitter_withParsers]
        exact List.prefix_append _ _
      · intro other hother context
        rw [parsers_withParsers]
        exact resolveOne_append extra context (not_refused_iff.1 (hbefore other hother))
      · rw [parsers_withParsers]
        exact resolveOne_append_of_refused extra reached hrefused

/-- A parser that would take anything, and forgets what was registered, gets the interface and
nothing else. -/
theorem run_withParsers_interface :
    ∃ greedy : Parser, (∀ text, greedy.accepts text = true) ∧
      ((ofSettings {}).withParsers [greedy]).run "type A \x7b id: ID \x7d" =
        (ofSettings {}).run "type A \x7b id: ID \x7d" ∧
      ∃ document before after events reached,
        document = "type A \x7b id: ID \x7d interface I \x7b id: ID \x7d type B \x7b id: ID \x7d" ∧
        (ofSettings {}).resolve document = .error (refusal "interface I \x7b id: ID \x7d") ∧
        ((ofSettings {}).withParsers [greedy]).Reaches document before
          ("interface I \x7b id: ID \x7d" :: after) events reached ∧
        (((ofSettings {}).withParsers [greedy]).resolve document).toOption.map Registry.names =
          some ["I", "B"] := by
  let greedy : Parser :=
    { kind := .record
      accepts := fun _ => true
      parse := fun _ context =>
        (.ok { definition := context.define "I", body := .record [] },
          { context with registry := .empty }) }
  refine ⟨greedy, fun _ => rfl, ?_, ?_⟩
  · apply (run_withParsers {} [greedy] _).1
    have hok : ((ofSettings {}).resolve "type A \x7b id: ID \x7d").toOption.isSome = true := by
      decide +kernel
    intro error herror
    rw [herror] at hok
    cases hok
  · have hrejected :
        (match (ofSettings {}).resolve
            "type A \x7b id: ID \x7d interface I \x7b id: ID \x7d type B \x7b id: ID \x7d" with
          | .error error => error.rejected?
          | .ok _ => none) = some "interface I \x7b id: ID \x7d" := by
      decide +kernel
    split at hrejected
    · next error herror =>
      obtain ⟨-, rfl, -, before, after, events, reached, -, hreaches, -⟩ :=
        (run_withParsers {} [greedy] _).2 error _ herror hrejected
      exact ⟨_, before, after, events, reached, rfl, herror, hreaches, by decide +kernel⟩
    · cases hrejected

end Resolver

end ModelGraph
