/-! # JSON values

Values made of texts, flags, lists and objects, which is all that a model needs, and their two
written forms: on one line without spaces, or indented by two spaces a level. Members of an object
keep their order. -/

namespace ModelGraph

/-- A value. -/
inductive JsonValue where
  | text (value : String)
  | flag (value : Bool)
  | list (items : List JsonValue)
  | object (members : List (String × JsonValue))
  deriving Repr

namespace JsonValue

/-- The last two digits of a code point, in base sixteen. -/
def byteDigits (n : Nat) : List Char :=
  [Nat.digitChar (n / 16 % 16), Nat.digitChar (n % 16)]

/-- How a character is written in a text. -/
def escaped (c : Char) : List Char :=
  if c = '"' then ['\\', '"']
  else if c = '\\' then ['\\', '\\']
  else if c = '\x08' then ['\\', 'b']
  else if c = '\x0c' then ['\\', 'f']
  else if c = '\n' then ['\\', 'n']
  else if c = '\r' then ['\\', 'r']
  else if c = '\t' then ['\\', 't']
  else if c.toNat < 0x20 then '\\' :: 'u' :: '0' :: '0' :: byteDigits c.toNat
  else [c]

/-- A text between quotes. -/
def quoted (value : String) : String :=
  String.ofList ('"' :: (value.toList.flatMap escaped ++ ['"']))

/-- A flag as a word. -/
def flagText (value : Bool) : String :=
  if value then "true" else "false"

mutual

/-- A value on one line. -/
def compact : JsonValue → String
  | text value => quoted value
  | flag value => flagText value
  | list items => "[" ++ ",".intercalate (compactItems items) ++ "]"
  | object members => "\x7b" ++ ",".intercalate (compactMembers members) ++ "\x7d"

/-- The items of a list on one line each. -/
def compactItems : List JsonValue → List String
  | [] => []
  | item :: rest => compact item :: compactItems rest

/-- The members of an object on one line each. -/
def compactMembers : List (String × JsonValue) → List String
  | [] => []
  | (key, value) :: rest => (quoted key ++ ":" ++ compact value) :: compactMembers rest

end

/-- The start of a line at a level. -/
def newline (level : Nat) : String :=
  String.ofList ('\n' :: List.replicate (2 * level) ' ')

/-- Lines between brackets, one level deeper than the brackets. Without lines the brackets touch. -/
def block (opening closing : String) (level : Nat) (lines : List String) : String :=
  if lines.isEmpty then opening ++ closing
  else
    opening ++ newline (level + 1) ++ ("," ++ newline (level + 1)).intercalate lines ++
      newline level ++ closing

mutual

/-- A value indented, at a level. -/
def indentedAt (level : Nat) : JsonValue → String
  | text value => quoted value
  | flag value => flagText value
  | list items => block "[" "]" level (indentedItems (level + 1) items)
  | object members => block "\x7b" "\x7d" level (indentedMembers (level + 1) members)

/-- The items of a list, indented. -/
def indentedItems (level : Nat) : List JsonValue → List String
  | [] => []
  | item :: rest => indentedAt level item :: indentedItems level rest

/-- The members of an object, indented. -/
def indentedMembers (level : Nat) : List (String × JsonValue) → List String
  | [] => []
  | (key, value) :: rest =>
      (quoted key ++ ": " ++ indentedAt level value) :: indentedMembers level rest

end

/-- A value indented. -/
def indented (value : JsonValue) : String :=
  indentedAt 0 value

end JsonValue

end ModelGraph
