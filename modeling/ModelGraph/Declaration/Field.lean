import ModelGraph.Declaration.TypeExpr
import ModelGraph.Trivia

/-! # Fields of a declaration

The body of a record or input is read in three steps: default values are blanked out, so that the
keys of an object in one are no fields; then argument lists; what is left of the form `name: type`
is a field. -/

namespace ModelGraph

open Text

/-- The characters with the ASCII property of a space. -/
def isAsciiSpace (c : Char) : Bool :=
  c == ' ' || c == '\t' || c == '\n' || c == '\r' || c == '\x0c'

namespace DefaultValue

/-- The length of a bracketed value of which `depth` brackets are open, up to the bracket that
closes the last of them. Braces and square brackets are not told apart. -/
def bracketedLength (depth : Nat) : List Char → Nat
  | [] => 0
  | c :: rest =>
      if c = '\x7b' || c = '[' then bracketedLength (depth + 1) rest + 1
      else if c = '\x7d' || c = ']' then
        if depth ≤ 1 then 1 else bracketedLength (depth - 1) rest + 1
      else bracketedLength depth rest + 1

/-- The characters of a value without brackets. -/
def isTokenChar (c : Char) : Bool :=
  !isAsciiSpace c && c != ',' && c != ':' && c != '\x7d' && c != ']' && c != ')'

/-- The length of a value that follows an equals sign. A word before a colon is no value but the
next field: the value was a string, of which nothing is left. -/
def valueLength (text : List Char) : Nat :=
  let gap := (text.takeWhile isAsciiSpace).length
  let value := text.dropWhile isAsciiSpace
  match value with
  | '\x7b' :: _ | '[' :: _ => gap + bracketedLength 0 value
  | _ =>
      let token := (value.takeWhile isTokenChar).length
      match trimStart (value.dropWhile isTokenChar) with
      | ':' :: _ => gap
      | _ => gap + token

/-- A default value with its equals sign. -/
def default? : Recogniser
  | '=' :: rest => some (valueLength rest + 1)
  | _ => none

end DefaultValue

/-- A field as it is declared. -/
structure FieldSyntax where
  ident : String
  type : TypeExpr
  required : Bool
  deriving DecidableEq, Repr

namespace FieldSyntax

/-- The length of the brackets and marks that close a type. A mark may follow the name and each
bracket. Blanks count only before one of these. -/
def closingLength (mayMark : Bool) (gap : Nat) : List Char → Nat
  | [] => 0
  | c :: rest =>
      if isBlank c then closingLength mayMark (gap + 1) rest
      else if c = ']' then gap + 1 + closingLength true 0 rest
      else if c = '!' && mayMark then gap + 1 + closingLength false 0 rest
      else 0

/-- A name, a colon and a type. -/
def field? : Recogniser := fun text => do
  let (_, afterName) ← identifier? text
  match trimStart afterName with
  | ':' :: afterColon =>
      let (_, afterType) ← identifier? (afterColon.dropWhile fun c => c == '[' || isBlank c)
      some (text.length - afterType.length + closingLength true 0 afterType)
  | _ => none

/-- Read a span of the form `name: type`. The brackets of the type may fail to pair. -/
def ofSpan? (span : List Char) : Option FieldSyntax :=
  (TypeExpr.read? ((span.dropWhile (· ≠ ':')).drop 1)).map fun (type, required) =>
    { ident := String.ofList (span.takeWhile isIdentRest)
      type := type
      required := required }

/-- The fields of a body, in order. -/
def readAll (body : List Char) : List FieldSyntax :=
  (spans field? (blankOut Trivia.parenthesized? (blankOut DefaultValue.default? body))).filterMap
    ofSpan?

end FieldSyntax

end ModelGraph
