import ModelGraph.Declaration.Field
import ModelGraph.Kind

/-! # Declarations

A declaration in normal form is a keyword, a name, and a body that depends on the kind: fields in
braces, members in braces, or alternatives after an equals sign. -/

namespace ModelGraph

open Text

/-- A declaration as it is written. -/
inductive Declaration where
  | record (ident : String) (fields : List FieldSyntax)
  | input (ident : String) (fields : List FieldSyntax)
  | enum (ident : String) (members : List String)
  | union (ident : String) (members : List String)
  deriving DecidableEq, Repr

namespace Declaration

/-- The kind of entity that is declared. -/
def kind : Declaration → Kind
  | record _ _ => .record
  | input _ _ => .input
  | enum _ _ => .enum
  | union _ _ => .union

/-- The declared name. -/
def ident : Declaration → String
  | record ident _ | input ident _ | enum ident _ | union ident _ => ident

/-- Read a keyword and a name, and give the rest from its first character that is not blank. -/
def heading? (keyword : String) (text : List Char) : Option (String × List Char) :=
  let word := keyword.toList
  let afterKeyword := text.drop word.length
  if text.take word.length = word && (afterKeyword.head?.any isBlank) then
    (identifier? (trimStart afterKeyword)).map fun (name, rest) =>
      (String.ofList name, trimStart rest)
  else none

/-- Read a body in braces, the last of which ends the text. -/
def braced? : List Char → Option (List Char)
  | '\x7b' :: rest => TypeExpr.dropLast? '\x7d' rest
  | _ => none

/-- The members of an enum, between commas and blanks. -/
def enumMembers (body : List Char) : List String :=
  (runs (fun c => c != ',' && !isBlank c) body).map String.ofList

/-- The alternatives of a union, between bars. -/
def unionMembers (body : List Char) : List String :=
  (((pieces '|' body).map trim).filter fun member => !member.isEmpty).map String.ofList

/-- Read a declaration of a kind from text in normal form. -/
def ofNormalForm? (kind : Kind) (text : List Char) : Option Declaration := do
  let (name, rest) ← heading? kind.keyword text
  match kind with
  | .record => (braced? rest).map fun body => record name (FieldSyntax.readAll body)
  | .input => (braced? rest).map fun body => input name (FieldSyntax.readAll body)
  | .enum =>
      let body ← braced? rest
      if body.any fun c => c == '\x7b' || c == '\x7d' then none
      else some (enum name (enumMembers body))
  | .union =>
      match rest with
      | '=' :: body =>
          if body.any fun c => c == '\x7b' || c == '\x7d' || c == '=' then none
          else some (union name (unionMembers body))
      | _ => none

/-- Read a declaration of a kind from any text. -/
def read? (kind : Kind) (text : String) : Option Declaration :=
  ofNormalForm? kind (normalForm text.toList)

end Declaration

end ModelGraph
