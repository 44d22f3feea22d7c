import ModelGraph.Text.Class.Joining
import ModelGraph.Text.Class.Printable

/-! # Quoted text

Texts as log lines show them: between quotes, with an escape for every character that would not be
seen as itself. -/

namespace ModelGraph.Text

/-- The digits of a code point, in base sixteen. -/
def hexDigits (n : Nat) : List Char :=
  Nat.toDigits 16 n

/-- The modifiers of the tone of a picture. They are marks, and are shown as they are. -/
def isToneModifier (c : Char) : Bool :=
  0x1F3FB ≤ c.toNat && c.toNat ≤ 0x1F3FF

/-- How a character is written between quotes. -/
def escaped (c : Char) : List Char :=
  if c = '\x00' then ['\\', '0']
  else if c = '\t' then ['\\', 't']
  else if c = '\n' then ['\\', 'n']
  else if c = '\r' then ['\\', 'r']
  else if c = '"' then ['\\', '"']
  else if c = '\\' then ['\\', '\\']
  else if (' ' ≤ c && c ≤ '~') ||
      (isPrintable c && (!isMark c || isToneModifier c)) then [c]
  else '\\' :: 'u' :: '\x7b' :: (hexDigits c.toNat ++ ['\x7d'])

/-- A text between quotes. -/
def quoted (text : String) : String :=
  String.ofList ('"' :: (text.toList.flatMap escaped ++ ['"']))

end ModelGraph.Text
