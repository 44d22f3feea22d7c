import ModelGraph.Text.Identifier
import ModelGraph.Text.Span

/-! # Lexemes of a document

A document is read as a row of lexemes: comments, strings, identifiers and single characters.
Strings are taken whole whether or not something closes them, so no bracket inside one counts.
Main statement: the lexemes, written one after the other, are the document (`text_lexemes`). -/

namespace ModelGraph.Document

open Text

/-- One lexeme of a document. -/
inductive Lexeme where
  | comment (text : List Char)
  | quoted (text : List Char)
  | word (text : List Char)
  | single (c : Char)
  deriving DecidableEq, Repr

/-- The characters that a lexeme stands for. -/
def Lexeme.text : Lexeme → List Char
  | .comment text | .quoted text | .word text => text
  | .single c => [c]

/-- The length of a block string after its opening quotes. A backslash takes the next character
with it; without closing quotes the string runs to the end of the document. -/
def blockLength : List Char → Nat
  | [] => 0
  | '\\' :: [] => 1
  | '\\' :: _ :: rest => blockLength rest + 2
  | '"' :: '"' :: '"' :: _ => 3
  | _ :: rest => blockLength rest + 1

/-- The length of a string after its opening quote. A backslash takes the next character with it;
without a closing quote the string runs to the end of the line. -/
def lineLength : List Char → Nat
  | [] => 0
  | '\n' :: _ => 0
  | '"' :: _ => 1
  | '\\' :: [] => 1
  | '\\' :: _ :: rest => lineLength rest + 2
  | _ :: rest => lineLength rest + 1

/-- Recognises the lexemes that may have more than one character. -/
def longLexeme? : Recogniser
  | [] => none
  | '#' :: rest => some ((rest.takeWhile (· ≠ '\n')).length + 1)
  | '"' :: '"' :: '"' :: rest => some (blockLength rest + 3)
  | '"' :: rest => some (lineLength rest + 1)
  | text => (identifier? text).map fun (name, _) => name.length

/-- The lexeme that a piece of the document is. -/
def Lexeme.ofPiece : Piece → Lexeme
  | .kept c => .single c
  | .span text =>
      match text with
      | '#' :: _ => .comment text
      | '"' :: _ => .quoted text
      | _ => .word text

/-- The lexemes of a document. -/
def lexemes (document : List Char) : List Lexeme :=
  (cut longLexeme? document).map Lexeme.ofPiece

@[simp] theorem Lexeme.text_ofPiece (piece : Piece) : (ofPiece piece).text = piece.text := by
  cases piece with
  | kept c => rfl
  | span text =>
      simp only [ofPiece, Piece.text]
      split <;> rfl

/-- The lexemes, written one after the other, are the document. -/
theorem text_lexemes (document : List Char) :
    (lexemes document).flatMap Lexeme.text = document := by
  simp only [lexemes, List.flatMap_map, Lexeme.text_ofPiece]
  exact text_cut longLexeme? document

end ModelGraph.Document
