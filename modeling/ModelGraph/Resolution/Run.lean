import ModelGraph.Document.Splitter
import ModelGraph.Problem.Check
import ModelGraph.Resolution.Parser

/-! # Resolution of a document

A document is split into declarations. Each in turn goes to the first parser that accepts it and is
registered; at the end the capabilities that came late are delivered. A run keeps what happened on
the way, for the log. -/

namespace ModelGraph

/-- What happens in a resolution and may be worth a line in the log. -/
inductive Event where
  | dropped (reason : Document.Dropped)
  | resolved (kind : Kind) (name : String) (capabilities : Nat)
  | neverAttached (name : String)
  deriving DecidableEq, Repr

/-- What happened in a resolution, and how it ended. -/
structure Run (α : Type) where
  events : List Event
  outcome : Except ResolutionError α

/-- A resolver has settings and parsers. -/
structure Resolver where
  settings : Settings
  parsers : List Parser := Parser.builtin

namespace Resolver

/-- The resolver with the parsers of all kinds. -/
def ofSettings (settings : Settings) : Resolver where
  settings := settings

/-- Try one more parser after the others. -/
def withParser (resolver : Resolver) (parser : Parser) : Resolver :=
  { resolver with parsers := resolver.parsers ++ [parser] }

/-- The kinds of the parsers, in the order in which they are tried. -/
def kinds (resolver : Resolver) : List Kind :=
  resolver.parsers.map Parser.kind

/-- The splitter that the settings ask for. -/
def splitter (resolver : Resolver) : Document.Splitter :=
  ⟨resolver.settings.rootOperations⟩

/-- The error for a declaration that no parser accepts. -/
def refusal (declaration : String) : ResolutionError :=
  match Kind.ofDeclaration? (normalize declaration) with
  | some kind => .unsupportedEntity kind declaration
  | none => .unsupportedDeclaration declaration

/-- Resolve one declaration with the first parser that accepts it. -/
def resolveOne (parsers : List Parser) (context : Context) (declaration : String) :
    Except ResolutionError Entity × Context :=
  match parsers.find? (·.accepts (normalize declaration)) with
  | some parser => parser.parse (normalize declaration) context
  | none => (.error (refusal declaration), context)

/-- The event of a resolved declaration. -/
def resolvedEvent (entity : Entity) : Event :=
  .resolved entity.kind entity.name entity.capabilities.length

/-- Resolve declarations in order and register their entities, up to the first error. -/
def resolveAll (parsers : List Parser) (context : Context) : List String → Run Context
  | [] => ⟨[], .ok context⟩
  | declaration :: rest =>
      match resolveOne parsers context declaration with
      | (.error error, _) => ⟨[], .error error⟩
      | (.ok entity, next) =>
          match next.register entity with
          | .error error => ⟨[resolvedEvent entity], .error error⟩
          | .ok registered =>
              let run := resolveAll parsers registered rest
              ⟨resolvedEvent entity :: run.events, run.outcome⟩

/-- The registry of a settled context, unless the settings forbid what it left unresolved. -/
def conclude (context : Context) : Except ResolutionError Registry :=
  if context.settings.strictReferences then
    match context.registry.checkReferences with
    | .ok () => .ok context.registry
    | .error problems => .error (.unresolvedReferences problems)
  else .ok context.registry

/-- Resolve a document. -/
def run (resolver : Resolver) (document : String) : Run Registry :=
  match Context.ofSettings resolver.settings with
  | .error error => ⟨[], .error error⟩
  | .ok context =>
      let drops := (resolver.splitter.drops document.toList).map Event.dropped
      let declared := resolveAll resolver.parsers context (resolver.splitter.split document)
      match declared.outcome with
      | .error error => ⟨drops ++ declared.events, .error error⟩
      | .ok last =>
          let settled := last.settle
          ⟨drops ++ declared.events ++ settled.store.pendingNames.map Event.neverAttached,
            conclude settled⟩

/-- Resolve a document into a registry. -/
def resolve (resolver : Resolver) (document : String) : Except ResolutionError Registry :=
  (resolver.run document).outcome

end Resolver

/-- Resolve a document with the parsers of all kinds. -/
def resolve (document : String) (settings : Settings) : Except ResolutionError Registry :=
  (Resolver.ofSettings settings).resolve document

end ModelGraph
