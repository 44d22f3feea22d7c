import ModelGraph.Text.Span

/-! # Tokens of a TOML file

A file is read as a row of words, texts, marks and line ends. Blanks and comments between them are
dropped. Numbers and dates have no token of their own: as words and marks they are no value that a
setting can have. -/

namespace ModelGraph.Toml

/-- One token. -/
inductive Token where
  /-- A bare word: a key or a flag. -/
  | word (name : String)
  /-- A quoted text, and whether it has only one line and so may be a key. -/
  | text (value : String) (oneLine : Bool)
  /-- One of the marks `=`, `.`, `,` and the brackets. -/
  | mark (c : Char)
  /-- The end of a line. -/
  | newline
  deriving DecidableEq, Repr

/-- The characters of a bare word. -/
def isWordChar (c : Char) : Bool :=
  c.isAlphanum || c == '_' || c == '-'

/-- The marks. -/
def isMark (c : Char) : Bool :=
  c == '=' || c == '.' || c == ',' || c == '[' || c == ']' || c == '\x7b' || c == '\x7d'

/-- The characters that may stand in a comment or a text of one line. A carriage return is checked
for the line end after it when the file is read. -/
def isPlain (c : Char) : Bool :=
  c == '\t' || c == '\r' || (0x20 ≤ c.toNat && c.toNat ≠ 0x7F)

/-- The value of digits in base sixteen. -/
def hexValue? (digits : List Char) : Option Nat :=
  digits.foldlM
    (fun n c =>
      if c.isDigit then some (16 * n + (c.toNat - '0'.toNat))
      else if 'a' ≤ c && c ≤ 'f' then some (16 * n + (c.toNat - 'a'.toNat + 10))
      else if 'A' ≤ c && c ≤ 'F' then some (16 * n + (c.toNat - 'A'.toNat + 10))
      else none)
    0

/-- The character whose code point the first `count` characters spell. -/
def codePoint? (count : Nat) (text : List Char) : Option Char := do
  let digits := text.take count
  if digits.length = count then
    let n ← hexValue? digits
    if n.isValidChar then some (Char.ofNat n) else none
  else none

/-- What a backslash and the characters after it stand for, and how many characters those are. A
backslash at the end of a line stands for nothing and takes the blanks up to the next text. -/
def escape? (oneLine : Bool) (text : List Char) : Option (List Char × Nat) :=
  match text with
  | 'b' :: _ => some (['\x08'], 1)
  | 't' :: _ => some (['\t'], 1)
  | 'n' :: _ => some (['\n'], 1)
  | 'f' :: _ => some (['\x0c'], 1)
  | 'r' :: _ => some (['\r'], 1)
  | 'e' :: _ => some (['\x1b'], 1)
  | '"' :: _ => some (['"'], 1)
  | '\\' :: _ => some (['\\'], 1)
  | 'x' :: rest => (codePoint? 2 rest).map fun c => ([c], 3)
  | 'u' :: rest => (codePoint? 4 rest).map fun c => ([c], 5)
  | 'U' :: rest => (codePoint? 8 rest).map fun c => ([c], 9)
  | _ =>
      let blank := fun c => c == ' ' || c == '\t' || c == '\r'
      if !oneLine && (text.dropWhile blank).head? == some '\n' then
        some ([], (text.takeWhile fun c => blank c || c == '\n').length)
      else none

/-- The text that a body between quotes stands for, after `skip` characters of an escape. -/
def decodeAfter (escapes oneLine : Bool) : Nat → List Char → Option (List Char)
  | _, [] => some []
  | skip + 1, _ :: rest => decodeAfter escapes oneLine skip rest
  | 0, c :: rest =>
      if escapes && c = '\\' then
        match escape? oneLine rest with
        | some (written, taken) =>
            (decodeAfter escapes oneLine taken rest).map (written ++ ·)
        | none => none
      else if isPlain c || (!oneLine && c == '\n') then
        (decodeAfter escapes oneLine 0 rest).map (c :: ·)
      else none

/-- The length of a body up to the quote that closes it on the same line. -/
def lineLength? (quote : Char) (escapes : Bool) : List Char → Option Nat
  | [] => none
  | c :: rest =>
      if c = quote then some 0
      else if c = '\n' then none
      else if escapes && c = '\\' then
        match rest with
        | [] => none
        | d :: more =>
            if d = '\n' then none else (lineLength? quote escapes more).map (· + 2)
      else (lineLength? quote escapes rest).map (· + 1)

/-- The length of a body up to the three quotes that close it. Of more quotes in a row, up to two
belong to the body. -/
def blockLength? (quote : Char) (escapes : Bool) : List Char → Option Nat
  | [] => none
  | c :: rest =>
      if c = quote && rest.take 2 == [quote, quote] then
        some (min 2 ((rest.drop 2).takeWhile (· == quote)).length)
      else if escapes && c = '\\' then
        match rest with
        | [] => none
        | _ :: more => (blockLength? quote escapes more).map (· + 2)
      else (blockLength? quote escapes rest).map (· + 1)

/-- A body without the line end that directly follows its opening quotes. -/
def afterFirstNewline : List Char → List Char
  | '\n' :: rest => rest
  | '\r' :: '\n' :: rest => rest
  | body => body

/-- Read a quoted text whose first quote has been seen, and tell how many characters follow that
quote. -/
def quoted? (quote : Char) (rest : List Char) : Option (Token × Nat) :=
  let escapes := quote == '"'
  if rest.take 2 == [quote, quote] then do
    let inner := rest.drop 2
    let length ← blockLength? quote escapes inner
    let value ← decodeAfter escapes false 0 (afterFirstNewline (inner.take length))
    some (.text (String.ofList value) false, length + 5)
  else do
    let length ← lineLength? quote escapes rest
    let value ← decodeAfter escapes true 0 (rest.take length)
    some (.text (String.ofList value) true, length + 1)

/-- Read what a character opens: at most one token, and how many characters follow the first. -/
def read? (c : Char) (rest : List Char) : Option (Option Token × Nat) :=
  if c = ' ' || c = '\t' || c = '\r' then some (none, 0)
  else if c = '\n' then some (some .newline, 0)
  else if c = '#' then
    let comment := rest.takeWhile (· ≠ '\n')
    if comment.all isPlain then some (none, comment.length) else none
  else if isMark c then some (some (.mark c), 0)
  else if c = '"' || c = '\'' then
    (quoted? c rest).map fun (token, length) => (some token, length)
  else if isWordChar c then
    let word := rest.takeWhile isWordChar
    some (some (.word (String.ofList (c :: word))), word.length)
  else none

/-- The tokens of a text of which the first `skip` characters belong to a token already read. -/
def tokensAfter : Nat → List Char → Option (List Token)
  | _, [] => some []
  | skip + 1, _ :: rest => tokensAfter skip rest
  | 0, c :: rest =>
      match read? c rest with
      | some (token?, length) => (tokensAfter length rest).map (token?.toList ++ ·)
      | none => none

/-- Every carriage return stands before a line end. -/
def returnsPaired : List Char → Bool
  | [] => true
  | '\r' :: rest => rest.head? == some '\n' && returnsPaired rest
  | _ :: rest => returnsPaired rest

/-- A file without the mark of byte order that it may begin with. -/
def afterOrderMark : List Char → List Char
  | '\ufeff' :: rest => rest
  | text => text

/-- The tokens of a file, if it can be read as such. -/
def tokens? (file : List Char) : Option (List Token) :=
  if returnsPaired file then tokensAfter 0 (afterOrderMark file) else none

end ModelGraph.Toml
