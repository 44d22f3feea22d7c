import ModelGraph.Document.Lexeme
import ModelGraph.Text.Blank

/-! # Chunks of a document

A chunk is the text of one top-level declaration. A declaration opens at an identifier or a brace
outside all others and ends with the brace that closes it, before the next declaration keyword, or,
if it has no braces, at a blank line. -/

namespace ModelGraph.Document

open Text

/-- The words that open a declaration. -/
def keywords : List String :=
  ["directive", "enum", "extend", "input", "interface", "scalar", "schema", "type", "union"]

/-- The keywords of declarations without braces, which a blank line ends. -/
def bracelessKeywords : List String :=
  ["directive", "scalar", "union"]

/-- A declaration that is being read. -/
structure Opened where
  /-- What has been read of it, last lexeme first. -/
  backwards : List Lexeme
  /-- A brace has been opened since. -/
  braced : Bool
  /-- A blank line ends it as long as it has no braces. -/
  endsAtBlankLine : Bool
  /-- The next word belongs to the same declaration even if it is a keyword. -/
  awaitsWord : Bool
  deriving Repr

/-- Where the reader stands: the declaration it is in, and how many braces are open. -/
structure Reader where
  opened : Option Opened
  depth : Nat
  deriving Repr

/-- The reader before the first lexeme. -/
def Reader.start : Reader := ⟨none, 0⟩

/-- A declaration that opens with a word. -/
def Opened.atWord (word : List Char) : Opened where
  backwards := [.word word]
  braced := false
  endsAtBlankLine :=
    !keywords.contains (String.ofList word) || bracelessKeywords.contains (String.ofList word)
  awaitsWord := String.ofList word == "extend"

/-- A declaration that opens with a brace. -/
def Opened.atBrace : Opened where
  backwards := [.single '\x7b']
  braced := true
  endsAtBlankLine := true
  awaitsWord := false

/-- Read one more lexeme of a declaration. -/
def Opened.push (opened : Opened) (lexeme : Lexeme) : Opened :=
  { opened with backwards := lexeme :: opened.backwards }

/-- The text of a declaration, without the blanks around it. -/
def Opened.chunk (opened : Opened) : List Char :=
  trim (opened.backwards.reverse.flatMap Lexeme.text)

/-- The lexemes ahead begin with a line of spaces only, or are at the end of the document. -/
def blankLineAhead : List Lexeme → Bool
  | [] => true
  | .single c :: rest =>
      c == '\n' || ((c == ' ' || c == '\t' || c == '\r') && blankLineAhead rest)
  | _ :: _ => false

/-- Read a lexeme that ends nothing. -/
def Reader.pass (reader : Reader) (lexeme : Lexeme) : Option Opened × Reader :=
  (none, { reader with opened := reader.opened.map (·.push lexeme) })

/-- Read an identifier. Only outside all braces can it open a declaration. -/
def Reader.word (reader : Reader) (text : List Char) : Option Opened × Reader :=
  if 0 < reader.depth then reader.pass (.word text)
  else
    match reader.opened with
    | none => (none, { reader with opened := some (.atWord text) })
    | some opened =>
        if opened.awaitsWord then
          (none, { reader with
            opened := some { opened.push (.word text) with awaitsWord := false } })
        else if keywords.contains (String.ofList text) then
          (some opened, { reader with opened := some (.atWord text) })
        else reader.pass (.word text)

/-- Read an opening brace. Outside all declarations it opens one of its own. -/
def Reader.openBrace (reader : Reader) : Option Opened × Reader :=
  let opened :=
    match reader.opened with
    | some opened => some { opened.push (.single '\x7b') with braced := true }
    | none => if reader.depth = 0 then some .atBrace else none
  (none, ⟨opened, reader.depth + 1⟩)

/-- Read a closing brace. The one that leaves all braces ends a declaration that had some. -/
def Reader.closeBrace (reader : Reader) : Option Opened × Reader :=
  let depth := reader.depth - 1
  match reader.opened.map (·.push (.single '\x7d')) with
  | some opened =>
      if depth = 0 && opened.braced then (some opened, ⟨none, depth⟩)
      else (none, ⟨some opened, depth⟩)
  | none => (none, ⟨none, depth⟩)

/-- Read the end of a line. With a blank line ahead it may end a declaration. -/
def Reader.newline (reader : Reader) (blankAhead : Bool) : Option Opened × Reader :=
  match reader.opened with
  | some opened =>
      if reader.depth = 0 && !opened.braced && opened.endsAtBlankLine && blankAhead then
        (some opened, { reader with opened := none })
      else reader.pass (.single '\n')
  | none => (none, reader)

/-- Read one lexeme, with the lexemes ahead of it, and hand out the declaration that it ends. -/
def Reader.step (reader : Reader) (ahead : List Lexeme) : Lexeme → Option Opened × Reader
  | .word text => reader.word text
  | .single c =>
      if c = '\x7b' then reader.openBrace
      else if c = '\x7d' then reader.closeBrace
      else if c = '\n' then reader.newline (blankLineAhead ahead)
      else reader.pass (.single c)
  | lexeme => reader.pass lexeme

/-- The declarations among the lexemes that a reader has ahead. The end of the document ends the
last one. -/
def Reader.declarations (reader : Reader) : List Lexeme → List Opened
  | [] => reader.opened.toList
  | lexeme :: ahead =>
      match reader.step ahead lexeme with
      | (some ended, next) => ended :: next.declarations ahead
      | (none, next) => next.declarations ahead

/-- The chunks of a document, in order. -/
def chunks (document : List Char) : List (List Char) :=
  (Reader.start.declarations (lexemes document)).map Opened.chunk

end ModelGraph.Document
