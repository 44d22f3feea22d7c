import Mathlib.Data.List.Induction
import ModelGraph.Proofs.Registry.Index
import ModelGraph.Resolution.Run

/-! # Entering declarations

With the parsers of all kinds, resolving the chunks of a document is reading a declaration from each
and entering the declarations into the context one after the other. Entering either adds one entity
at the end of the registry or finds its name taken. Main statements: what a chunk does
(`resolveOne_builtin`), what entering does (`enter_eq_ok_iff`, `enter_eq_error_iff`), and what a
successful resolution consists of (`resolve_eq_ok_iff`). -/

namespace ModelGraph

/-- The declaration that the parsers of all kinds read from a chunk. -/
def Declaration.ofChunk? (chunk : String) : Option Declaration :=
  Parser.builtin.findSome? fun parser => Declaration.read? parser.kind (normalize chunk)

/-- What is read as a declaration of a kind is one. -/
theorem Declaration.kind_of_read? {kind : Kind} {text : String} {declaration : Declaration}
    (h : Declaration.read? kind text = some declaration) : declaration.kind = kind := by
  simp only [Declaration.read?, Declaration.ofNormalForm?, Option.bind_eq_bind,
    Option.bind_eq_some_iff] at h
  obtain ⟨⟨name, rest⟩, -, h⟩ := h
  cases kind with
  | record => obtain ⟨body, -, rfl⟩ := Option.map_eq_some_iff.1 h; rfl
  | input => obtain ⟨body, -, rfl⟩ := Option.map_eq_some_iff.1 h; rfl
  | enum =>
      obtain ⟨body, -, h⟩ := Option.bind_eq_some_iff.1 h
      split at h
      · cases h
      · cases h; rfl
  | union =>
      simp only at h
      split at h
      · split at h
        · cases h
        · cases h; rfl
      · cases h

namespace Resolver

/-- No parser accepts a chunk exactly if no declaration is read from it. -/
theorem find?_builtin_eq_none_iff {chunk : String} :
    Parser.builtin.find? (·.accepts (normalize chunk)) = none ↔
      Declaration.ofChunk? chunk = none := by
  simp [Declaration.ofChunk?, Parser.builtin, Parser.ofKind]

/-- The parser that accepts a chunk reads the declaration of the chunk. -/
theorem find?_builtin_of_ofChunk? {chunk : String} {declaration : Declaration}
    (h : Declaration.ofChunk? chunk = some declaration) :
    Parser.builtin.find? (·.accepts (normalize chunk)) = some (.ofKind declaration.kind) ∧
      Declaration.read? declaration.kind (normalize chunk) = some declaration := by
  have find : ∀ kinds : List Kind,
      (kinds.map Parser.ofKind).findSome?
        (fun parser => Declaration.read? parser.kind (normalize chunk)) = some declaration →
      (kinds.map Parser.ofKind).find? (·.accepts (normalize chunk)) =
          some (.ofKind declaration.kind) ∧
        Declaration.read? declaration.kind (normalize chunk) = some declaration := by
    intro kinds
    induction kinds with
    | nil => simp
    | cons kind rest ih =>
        cases hr : Declaration.read? kind (normalize chunk) with
        | none => simpa [Parser.ofKind, hr] using ih
        | some found =>
            intro hf
            obtain rfl : found = declaration := by simpa [Parser.ofKind, hr] using hf
            have hk := Declaration.kind_of_read? hr
            subst hk
            simp [Parser.ofKind, hr]
  exact find [.record, .input, .enum, .union] h

/-- A chunk is resolved by resolving the declaration read from it. -/
theorem resolveOne_builtin (context : Context) (chunk : String) :
    resolveOne Parser.builtin context chunk =
      match Declaration.ofChunk? chunk with
      | some declaration =>
          (.ok (context.resolveDeclaration declaration).1,
            (context.resolveDeclaration declaration).2)
      | none => (.error (refusal chunk), context) := by
  cases hc : Declaration.ofChunk? chunk with
  | none => simp [resolveOne, find?_builtin_eq_none_iff.2 hc]
  | some declaration =>
      obtain ⟨hf, hr⟩ := find?_builtin_of_ofChunk? hc
      simp [resolveOne, hf, Parser.ofKind, hr]

end Resolver

namespace Context

variable (context : Context)

/-- The body of the entity that a declaration becomes. -/
def bodyOf : Declaration → Body
  | .record _ fields => .record (fields.map context.resolveField)
  | .input _ fields => .input (fields.map context.resolveField)
  | .enum _ members => .enum (members.map Field.member)
  | .union _ members => .union (members.map context.resolveMember)

/-- The capabilities that are pending for a declaration when it is entered. -/
def pendingFor : Declaration → List Capability
  | .record ident _ | .input ident _ => (context.store.deliver (context.typeName ident)).1
  | .enum _ _ | .union _ _ => []

/-- The store after a declaration is entered. -/
def storeAfter : Declaration → CapabilityStore
  | .record ident _ | .input ident _ => (context.store.deliver (context.typeName ident)).2
  | .enum _ _ => context.store
  | .union ident members => (context.announceUnion (context.define ident) members).store

/-- The entity that a declaration becomes. -/
def entityOf (declaration : Declaration) : Entity :=
  ({ definition := context.define declaration.ident
     body := context.bodyOf declaration } : Entity).appendCapabilities
    (context.pendingFor declaration)

/-- The context with one more declaration. -/
def withDeclaration (declaration : Declaration) : Context :=
  { context with
    registry :=
      { entities := context.registry.entities ++ [context.entityOf declaration]
        positions :=
          (context.typeName declaration.ident, context.registry.entities.length) ::
            context.registry.positions }
    store := context.storeAfter declaration }

theorem resolveDeclaration_eq (declaration : Declaration) :
    context.resolveDeclaration declaration =
      (context.entityOf declaration, { context with store := context.storeAfter declaration }) := by
  cases declaration <;> rfl

@[simp] theorem kind_bodyOf (declaration : Declaration) :
    (context.bodyOf declaration).kind = declaration.kind := by
  cases declaration <;> rfl

@[simp] theorem definition_entityOf (declaration : Declaration) :
    (context.entityOf declaration).definition = context.define declaration.ident := by
  simp [entityOf]

@[simp] theorem name_entityOf (declaration : Declaration) :
    (context.entityOf declaration).name = context.typeName declaration.ident := by
  rw [Entity.name, definition_entityOf]
  rfl

@[simp] theorem body_entityOf (declaration : Declaration) :
    (context.entityOf declaration).body = context.bodyOf declaration := by
  simp [entityOf]

/-- A text that declares nothing of the kind is refused as it was given. -/
theorem parse_of_read?_eq_none {kind : Kind} {text : String}
    (h : Declaration.read? kind text = none) :
    (Parser.ofKind kind).parse text context =
      (.error (.unsupportedEntity kind text), context) := by
  simp only [Parser.ofKind, h]

/-- A text that declares something of the kind becomes its entity. -/
theorem parse_of_read?_eq_some {kind : Kind} {text : String} {declaration : Declaration}
    (h : Declaration.read? kind text = some declaration) :
    (Parser.ofKind kind).parse text context =
      (.ok (context.entityOf declaration),
        { context with store := context.storeAfter declaration }) := by
  simp only [Parser.ofKind, h, context.resolveDeclaration_eq]

/-- What a resolution starts from. -/
theorem ofSettings_eq_ok_iff {settings : Settings} {start : Context} :
    ofSettings settings = .ok start ↔
      ∃ scalars, customScalars settings.scalars = .ok scalars ∧
        start = { settings := settings, scalars := scalars } := by
  simp only [ofSettings]
  cases customScalars settings.scalars with
  | error error => simp [Except.map]
  | ok scalars => simp [Except.map, eq_comm]

/-- Resolve a declaration and register its entity. -/
def enter (declaration : Declaration) : Except ResolutionError Context :=
  (context.resolveDeclaration declaration).2.register (context.resolveDeclaration declaration).1

variable {context}

/-- A declaration is entered exactly if its resolved name is new. -/
theorem enter_eq_ok_iff {declaration : Declaration} {next : Context} :
    context.enter declaration = .ok next ↔
      context.registry.contains (context.typeName declaration.ident) = false ∧
        next = context.withDeclaration declaration := by
  rw [enter, resolveDeclaration_eq, register]
  simp only [Registry.register_eq, name_entityOf]
  cases hc : context.registry.contains (context.typeName declaration.ident) with
  | true => simp [Except.map]
  | false => simp [Except.map, withDeclaration, eq_comm]

/-- The only reason not to enter a declaration is that its resolved name is taken. -/
theorem enter_eq_error_iff {declaration : Declaration} {error : ResolutionError} :
    context.enter declaration = .error error ↔
      context.registry.contains (context.typeName declaration.ident) = true ∧
        error = .duplicateEntity (context.typeName declaration.ident) := by
  rw [enter, resolveDeclaration_eq, register, ← context.name_entityOf declaration,
    ← Registry.register_eq_error_iff]
  cases context.registry.register (context.entityOf declaration) with
  | error => simp [Except.map]
  | ok => simp [Except.map]

/-- Enter declarations in order, up to the first whose name is taken. -/
def enterAll (context : Context) : List Declaration → Except ResolutionError Context
  | [] => .ok context
  | declaration :: rest => (context.enter declaration).bind (·.enterAll rest)

theorem enterAll_append (context : Context) (first second : List Declaration) :
    context.enterAll (first ++ second) = (context.enterAll first).bind (·.enterAll second) := by
  induction first generalizing context with
  | nil => rfl
  | cons declaration rest ih =>
      simp only [List.cons_append, enterAll]
      cases context.enter declaration with
      | error => rfl
      | ok next => exact ih next

/-- What holds at the start and survives every declaration holds after all of them. -/
theorem enterAll_induction {start : Context} {P : List Declaration → Context → Prop}
    (hstart : P [] start)
    (hstep : ∀ entered context declaration next, start.enterAll entered = .ok context →
      P entered context → context.enter declaration = .ok next →
        P (entered ++ [declaration]) next)
    {declarations : List Declaration} {last : Context}
    (h : start.enterAll declarations = .ok last) : P declarations last := by
  induction declarations using List.reverseRecOn generalizing last with
  | nil => cases h; exact hstart
  | append_singleton entered declaration ih =>
      rw [enterAll_append] at h
      cases hs : start.enterAll entered with
      | error error => rw [hs] at h; cases h
      | ok context =>
          rw [hs] at h
          cases hn : context.enter declaration with
          | error error => simp [Except.bind, enterAll, hn] at h
          | ok next =>
              obtain rfl : next = last := by simpa [Except.bind, enterAll, hn] using h
              exact hstep entered context declaration next hs (ih hs) hn

theorem register_entityOf {context : Context} {declaration : Declaration}
    (hnew : context.registry.contains (context.typeName declaration.ident) = false) :
    context.registry.register (context.entityOf declaration) =
      .ok (context.withDeclaration declaration).registry := by
  rw [Registry.register_eq_ok_iff, name_entityOf]
  exact ⟨hnew, rfl⟩

/-- What the context shows of the declarations that were entered since the start: the settings are
kept, and there is one entity for each declaration, of its name and kind. -/
structure Entered (start : Context) (entered : List Declaration) (context : Context) : Prop where
  settings_eq : context.settings = start.settings
  scalars_eq : context.scalars = start.scalars
  indexed : context.registry.Indexed
  signatures : context.registry.entities.map (fun entity => (entity.definition, entity.kind)) =
    entered.map fun declaration => (start.define declaration.ident, declaration.kind)

namespace Entered

variable {start context next : Context} {entered : List Declaration}

theorem define_eq (h : Entered start entered context) (ident : String) :
    context.define ident = start.define ident := by
  simp only [define, typeName, h.settings_eq]

theorem length_eq (h : Entered start entered context) :
    context.registry.entities.length = entered.length := by
  simpa using congrArg List.length h.signatures

theorem names_eq (h : Entered start entered context) :
    context.registry.names = entered.map fun declaration => start.typeName declaration.ident := by
  have hnames := congrArg (List.map fun signature => signature.1.name) h.signatures
  rw [List.map_map, List.map_map] at hnames
  exact hnames

theorem enter (h : Entered start entered context) {declaration : Declaration}
    (hn : context.enter declaration = .ok next) :
    Entered start (entered ++ [declaration]) next := by
  obtain ⟨hnew, rfl⟩ := enter_eq_ok_iff.1 hn
  refine ⟨h.settings_eq, h.scalars_eq, h.indexed.register (register_entityOf hnew), ?_⟩
  rw [List.map_append, ← h.signatures]
  simp [withDeclaration, Entity.kind, h.define_eq]

theorem start_of_ofSettings {settings : Settings} (hs : ofSettings settings = .ok start) :
    Entered start [] start := by
  obtain ⟨scalars, -, rfl⟩ := ofSettings_eq_ok_iff.1 hs
  exact ⟨rfl, rfl, Registry.indexed_empty, rfl⟩

theorem of_enterAll {settings : Settings} (hs : ofSettings settings = .ok start)
    (h : start.enterAll entered = .ok context) : Entered start entered context :=
  enterAll_induction (start_of_ofSettings hs) (fun _ _ _ _ _ he hn => he.enter hn) h

end Entered

end Context

namespace Entity

/-- The entity without its capabilities. -/
def bare (entity : Entity) : Entity :=
  { entity with capabilities := [] }

@[simp] theorem bare_appendCapabilities (entity : Entity) (capabilities : List Capability) :
    (entity.appendCapabilities capabilities).bare = entity.bare := by
  simp [bare]

theorem name_eq_of_bare_eq {a b : Entity} (h : a.bare = b.bare) : a.name = b.name :=
  show a.bare.name = b.bare.name from congrArg Entity.name h

theorem body_eq_of_bare_eq {a b : Entity} (h : a.bare = b.bare) : a.body = b.body :=
  show a.bare.body = b.bare.body from congrArg Entity.body h

end Entity

/-- Names do not depend on capabilities. -/
theorem Registry.names_eq_map_bare (registry : Registry) :
    registry.names = (registry.entities.map Entity.bare).map Entity.name := by
  rw [List.map_map]
  rfl

namespace Context

/-- Deliveries change nothing but capabilities. -/
theorem map_bare_deliverAll (store : CapabilityStore) (entities : List Entity) :
    (deliverAll store entities).1.map Entity.bare = entities.map Entity.bare := by
  induction entities generalizing store with
  | nil => rfl
  | cons entity rest ih =>
      simp only [deliverAll]
      split <;> simp [ih]

/-- Settling a context changes nothing in its registry but capabilities. -/
theorem map_bare_settle (context : Context) :
    context.settle.registry.entities.map Entity.bare =
      context.registry.entities.map Entity.bare :=
  map_bare_deliverAll context.store context.registry.entities

theorem names_settle (context : Context) :
    context.settle.registry.names = context.registry.names := by
  rw [Registry.names_eq_map_bare, map_bare_settle, ← Registry.names_eq_map_bare]

theorem indexed_settle {context : Context} (h : context.registry.Indexed) :
    context.settle.registry.Indexed :=
  h.of_names_eq rfl context.names_settle

/-- What stands at a position after settling stood there before, up to capabilities. -/
theorem exists_before_settle {context : Context} {i : Nat} {entity : Entity}
    (h : context.settle.registry.entities[i]? = some entity) :
    ∃ before, context.registry.entities[i]? = some before ∧ before.bare = entity.bare := by
  have hmap := congrArg (·[i]?) context.map_bare_settle
  simp only [List.getElem?_map, h, Option.map_some] at hmap
  exact Option.map_eq_some_iff.1 hmap.symm

end Context

namespace Resolver

/-- Chunks are resolved by entering the declaration of the first and resolving the others after. -/
theorem outcome_resolveAll_cons (context : Context) (chunk : String) (rest : List String) :
    (resolveAll Parser.builtin context (chunk :: rest)).outcome =
      match Declaration.ofChunk? chunk with
      | some declaration =>
          (context.enter declaration).bind fun next =>
            (resolveAll Parser.builtin next rest).outcome
      | none => .error (refusal chunk) := by
  rw [resolveAll, resolveOne_builtin]
  cases Declaration.ofChunk? chunk with
  | none => rfl
  | some declaration =>
      simp only [Context.enter]
      cases (context.resolveDeclaration declaration).2.register
        (context.resolveDeclaration declaration).1 <;> rfl

/-- Chunks are resolved exactly if each declares something and all of it can be entered. -/
theorem outcome_resolveAll_eq_ok_iff {context last : Context} {chunks : List String} :
    (resolveAll Parser.builtin context chunks).outcome = .ok last ↔
      ∃ declarations, chunks.map Declaration.ofChunk? = declarations.map some ∧
        context.enterAll declarations = .ok last := by
  induction chunks generalizing context with
  | nil =>
      constructor
      · intro h
        exact ⟨[], rfl, h⟩
      · rintro ⟨declarations, hd, h⟩
        obtain rfl : declarations = [] := by simpa using hd.symm
        exact h
  | cons chunk rest ih =>
      rw [outcome_resolveAll_cons]
      cases hc : Declaration.ofChunk? chunk with
      | none =>
          simp only [reduceCtorEq, false_iff, List.map_cons, hc]
          rintro ⟨_ | ⟨declaration, declarations⟩, hd, -⟩ <;> simp at hd
      | some declaration =>
          simp only [List.map_cons, hc]
          constructor
          · intro h
            cases hn : context.enter declaration with
            | error error => rw [hn] at h; cases h
            | ok next =>
                rw [hn] at h
                obtain ⟨declarations, hd, hl⟩ := ih.1 h
                refine ⟨declaration :: declarations, by simp [hd], ?_⟩
                simpa [Context.enterAll, hn, Except.bind] using hl
          · rintro ⟨_ | ⟨first, declarations⟩, hd, hl⟩
            · simp at hd
            · obtain ⟨hfirst, hrest⟩ := List.cons_eq_cons.1 hd
              cases hfirst
              simp only [Context.enterAll] at hl
              cases hn : context.enter declaration with
              | error error => rw [hn] at hl; cases hl
              | ok next => exact ih.2 ⟨declarations, hrest, by rw [hn] at hl; exact hl⟩

end Resolver

/-- The chunks that the settings let a document be split into. -/
def Settings.chunks (settings : Settings) (document : String) : List String :=
  (Resolver.ofSettings settings).splitter.split document

/-- A resolution starts from the settings, resolves the chunks, and settles what it has. -/
theorem resolve_eq (document : String) (settings : Settings) :
    resolve document settings = (Context.ofSettings settings).bind fun start =>
      (Resolver.resolveAll Parser.builtin start (settings.chunks document)).outcome.bind
        fun last => Resolver.conclude last.settle := by
  have hp : (Resolver.ofSettings settings).parsers = Parser.builtin := rfl
  have hs : (Resolver.ofSettings settings).settings = settings := rfl
  simp only [resolve, Resolver.resolve, Resolver.run, hp, hs, Settings.chunks]
  cases Context.ofSettings settings with
  | error error => rfl
  | ok start =>
      simp only [Except.bind]
      cases (Resolver.resolveAll Parser.builtin start
        ((Resolver.ofSettings settings).splitter.split document)).outcome <;> rfl

/-- A computation succeeds exactly if both of its steps do. -/
theorem bind_eq_ok_iff {α β ε : Type} {first : Except ε α} {next : α → Except ε β} {result : β} :
    first.bind next = .ok result ↔ ∃ value, first = .ok value ∧ next value = .ok result := by
  cases first with
  | error error => simp [Except.bind]
  | ok value => simp [Except.bind]

/-- A document is resolved exactly if the custom scalars are known, every chunk declares something,
all of it can be entered, and the settings allow what is left unresolved. -/
theorem resolve_eq_ok_iff {document : String} {settings : Settings} {registry : Registry} :
    resolve document settings = .ok registry ↔
      ∃ start declarations last, Context.ofSettings settings = .ok start ∧
        (settings.chunks document).map Declaration.ofChunk? = declarations.map some ∧
        start.enterAll declarations = .ok last ∧
        Resolver.conclude last.settle = .ok registry := by
  rw [resolve_eq]
  constructor
  · intro h
    obtain ⟨start, hs, h⟩ := bind_eq_ok_iff.1 h
    obtain ⟨last, ho, hregistry⟩ := bind_eq_ok_iff.1 h
    obtain ⟨declarations, hd, hl⟩ := Resolver.outcome_resolveAll_eq_ok_iff.1 ho
    exact ⟨start, declarations, last, hs, hd, hl, hregistry⟩
  · rintro ⟨start, declarations, last, hs, hd, hl, hregistry⟩
    have ho := Resolver.outcome_resolveAll_eq_ok_iff.2 ⟨declarations, hd, hl⟩
    exact bind_eq_ok_iff.2 ⟨start, hs, bind_eq_ok_iff.2 ⟨last, ho, hregistry⟩⟩

/-- A conclusion that succeeds gives the registry of the context. -/
theorem Resolver.registry_of_conclude {context : Context} {registry : Registry}
    (h : conclude context = .ok registry) : registry = context.registry := by
  simp only [conclude] at h
  split at h
  · split at h
    · cases h; rfl
    · cases h
  · cases h; rfl

/-- Without the demand that references are resolved, what can be entered is resolved. -/
theorem resolve_eq_ok_iff_of_lax {document : String} {settings : Settings} {registry : Registry}
    (hlax : settings.strictReferences = false) :
    resolve document settings = .ok registry ↔
      ∃ start declarations last, Context.ofSettings settings = .ok start ∧
        (settings.chunks document).map Declaration.ofChunk? = declarations.map some ∧
        start.enterAll declarations = .ok last ∧ last.settle.registry = registry := by
  rw [resolve_eq_ok_iff]
  refine exists_congr fun start => exists_congr fun declarations => exists_congr fun last =>
    and_congr_right fun hs => and_congr_right fun _ => and_congr_right fun hl => ?_
  have hkept : last.settle.settings = start.settings :=
    (Context.Entered.of_enterAll hs hl).settings_eq
  obtain ⟨scalars, -, rfl⟩ := Context.ofSettings_eq_ok_iff.1 hs
  simp [Resolver.conclude, hkept, hlax]

theorem eq_ok_of_toOption {ε α : Type} {result : Except ε α} {value : α}
    (h : result.toOption = some value) : result = .ok value := by
  cases result with
  | error => cases h
  | ok found => exact congrArg Except.ok (Option.some.inj h)

/-- A resolution can be evaluated to its registry, of which equality is decidable. -/
theorem resolve_eq_ok_of_toOption {document : String} {settings : Settings} {registry : Registry}
    (h : (resolve document settings).toOption = some registry) :
    resolve document settings = .ok registry :=
  eq_ok_of_toOption h

end ModelGraph
