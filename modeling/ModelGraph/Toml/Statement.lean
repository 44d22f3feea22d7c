import ModelGraph.Toml.Token

/-! # Statements of a TOML file

A file is a row of statements: the heading of a table, or a value for a key. Only the forms of value
that settings have are read: texts, flags, lists of texts, and tables of texts. -/

namespace ModelGraph.Toml

/-- A value of a setting. -/
inductive Value where
  | text (value : String)
  | flag (value : Bool)
  | texts (values : List String)
  | table (members : List (String × String))
  deriving DecidableEq, Repr

/-- One statement. -/
inductive Statement where
  /-- The keys that follow belong to the table of this name. -/
  | heading (table : String)
  /-- A key, or a member of the table at a key, has a value. -/
  | assign (key : String) (member : Option String) (value : Value)
  deriving DecidableEq, Repr

/-- The key that a token may be. -/
def Token.key? : Token → Option String
  | word name => some name
  | text value true => some value
  | _ => none

/-- Cut tokens at the line ends outside all brackets, of which `depth` are open. -/
def lines (depth : Nat) : List Token → List (List Token)
  | [] => [[]]
  | token :: rest =>
      if token = .newline && depth = 0 then [] :: lines 0 rest
      else
        let next :=
          if token = .mark '[' || token = .mark '\x7b' then depth + 1
          else if token = .mark ']' || token = .mark '\x7d' then depth - 1
          else depth
        match lines next rest with
        | line :: more => (token :: line) :: more
        | [] => [[token]]

/-- Read the items of a list up to its bracket, which ends the tokens. After an item only a comma
leads to the next. -/
def items? (itemDue : Bool) : List Token → Option (List String)
  | [.mark ']'] => some []
  | .newline :: rest => items? itemDue rest
  | .text value _ :: rest => if itemDue then (items? false rest).map (value :: ·) else none
  | .mark ',' :: rest => if itemDue then none else items? true rest
  | _ => none

/-- Read the members of a table up to its bracket, which ends the tokens. After a member only a
comma leads to the next. -/
def members? (memberDue : Bool) : List Token → Option (List (String × String))
  | [.mark '\x7d'] => some []
  | .newline :: rest => members? memberDue rest
  | .mark ',' :: rest => if memberDue then none else members? true rest
  | key :: .mark '=' :: .text value _ :: rest =>
      if memberDue then do
        let name ← key.key?
        let more ← members? false rest
        some ((name, value) :: more)
      else none
  | _ => none

/-- Read a value, which takes all the tokens. -/
def value? : List Token → Option Value
  | [.text value _] => some (.text value)
  | [.word "true"] => some (.flag true)
  | [.word "false"] => some (.flag false)
  | .mark '[' :: rest => (items? true rest).map .texts
  | .mark '\x7b' :: rest => (members? true rest).map .table
  | _ => none

/-- Read a statement, which takes all the tokens of a line. -/
def statement? : List Token → Option Statement
  | [.mark '[', name, .mark ']'] => name.key?.map .heading
  | key :: .mark '=' :: value => do some (.assign (← key.key?) none (← value? value))
  | key :: .mark '.' :: member :: .mark '=' :: value => do
      some (.assign (← key.key?) (some (← member.key?)) (← value? value))
  | _ => none

/-- The statements of a file, if it can be read as such. Lines without tokens are none. -/
def statements? (file : List Char) : Option (List Statement) := do
  let tokens ← tokens? file
  ((lines 0 tokens).filter fun line => !line.isEmpty).mapM statement?

end ModelGraph.Toml
