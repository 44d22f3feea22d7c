import ModelGraph.Resolution.Context

/-! # Parsers of declarations

A parser accepts some declarations and resolves them in a context. There is one for every kind;
callers may append their own. -/

namespace ModelGraph

/-- A parser of declarations of one kind. -/
structure Parser where
  kind : Kind
  accepts : String → Bool
  parse : String → Context → Except ResolutionError Entity × Context

namespace Parser

/-- The parser of a kind. It accepts any text whose normal form is a declaration of the kind, and
refuses others with the text as it was given. -/
def ofKind (kind : Kind) : Parser where
  kind := kind
  accepts declaration := (Declaration.read? kind declaration).isSome
  parse declaration context :=
    match Declaration.read? kind declaration with
    | some read =>
        let (entity, next) := context.resolveDeclaration read
        (.ok entity, next)
    | none => (.error (.unsupportedEntity kind declaration), context)

/-- The parsers of all kinds, in the order in which they are tried. -/
def builtin : List Parser :=
  [ofKind .record, ofKind .input, ofKind .enum, ofKind .union]

end Parser

end ModelGraph
