import ModelGraph.Text.Blank
import ModelGraph.Text.Identifier
import ModelGraph.Text.Span

/-! # The normal form of declaration text

Comments, descriptions and directives say nothing about the model. The normal form of a text has
none of them, and one space where blanks stood. Trivia are found in one walk, so whichever starts
first wins: a `#` inside a description is no comment, and a quote inside a comment opens no
string. -/

namespace ModelGraph

open Text

namespace Trivia

/-- The characters up to and including the next three quotes. -/
def toBlockEnd : List Char → Option Nat
  | [] => none
  | c :: rest =>
      match c, rest with
      | '"', '"' :: '"' :: _ => some 3
      | _, rest => (toBlockEnd rest).map (· + 1)

/-- The characters up to and including the quote that closes a string on its line. A backslash
takes the next character with it. -/
def toLineEnd : List Char → Option Nat
  | [] => none
  | '"' :: _ => some 1
  | '\n' :: _ => none
  | '\\' :: [] => none
  | '\\' :: '\n' :: _ => none
  | '\\' :: _ :: rest => (toLineEnd rest).map (· + 2)
  | _ :: rest => (toLineEnd rest).map (· + 1)

/-- A block string, between three quotes and the next three. -/
def block? : Recogniser
  | '"' :: '"' :: '"' :: rest => (toBlockEnd rest).map (· + 3)
  | _ => none

/-- A string that closes on the line where it opens. -/
def string? : Recogniser
  | '"' :: rest => (toLineEnd rest).map (· + 1)
  | _ => none

/-- A comment, from its `#` to the end of the line. -/
def comment? : Recogniser
  | '#' :: rest => some ((rest.takeWhile (· ≠ '\n')).length + 1)
  | _ => none

/-- A description or a comment. Three quotes that nothing closes may still open with an empty
string. -/
def trivium? : Recogniser := fun text =>
  (block? text).or ((string? text).or (comment? text))

/-- The characters up to and including the next closing parenthesis. -/
def toParenEnd : List Char → Option Nat
  | [] => none
  | ')' :: _ => some 1
  | _ :: rest => (toParenEnd rest).map (· + 1)

/-- A parenthesized list, up to the first closing parenthesis. -/
def parenthesized? : Recogniser
  | '(' :: rest => (toParenEnd rest).map (· + 1)
  | _ => none

/-- A directive: `@`, its name, and its parenthesized arguments if it has any. -/
def directive? : Recogniser
  | '@' :: rest =>
      (identifier? rest).map fun (name, after) =>
        let gap := (after.takeWhile isBlank).length
        let arguments :=
          match parenthesized? (after.drop gap) with
          | some n => gap + n
          | none => 0
        1 + name.length + arguments
  | _ => none

end Trivia

/-- The words of a text without its trivia and directives. -/
def normalWords (text : List Char) : List (List Char) :=
  words (blankOut Trivia.directive? (blankOut Trivia.trivium? text))

/-- The normal form of a text: no trivia, no directives, single spaces between words. -/
def normalForm (text : List Char) : List Char :=
  spaced (normalWords text)

/-- The normal form, of a string. -/
def normalize (text : String) : String :=
  String.ofList (normalForm text.toList)

end ModelGraph
