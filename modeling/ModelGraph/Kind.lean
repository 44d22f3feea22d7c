import ModelGraph.Text.Blank

/-! # Kinds of declarations -/

namespace ModelGraph

/-- The kinds of entities that a schema declares. -/
inductive Kind where
  | enum
  | input
  | record
  | union
  deriving DecidableEq, Repr

namespace Kind

/-- All kinds. -/
def all : List Kind :=
  [enum, input, record, union]

/-- What the kind is called. -/
def name : Kind → String
  | enum => "enum"
  | input => "input"
  | record => "record"
  | union => "union"

/-- The keyword that declares an entity of the kind. -/
def keyword : Kind → String
  | record => "type"
  | kind => kind.name

/-- The kind that a keyword declares. -/
def ofKeyword? (word : String) : Option Kind :=
  all.find? (·.keyword == word)

/-- The kind with a name. -/
def ofName? (name : String) : Option Kind :=
  all.find? (·.name == name)

/-- The kind that a declaration means to declare: that of its first word, up to a brace. -/
def ofDeclaration? (declaration : String) : Option Kind :=
  match Text.words declaration.toList with
  | word :: _ => ofKeyword? (String.ofList (word.takeWhile (· ≠ '\x7b')))
  | [] => none

/-- A keyword declares a kind exactly if it is the kind's keyword. -/
theorem ofKeyword?_eq_some_iff {word : String} {kind : Kind} :
    ofKeyword? word = some kind ↔ kind.keyword = word := by
  constructor
  · intro h
    have := List.find?_some h
    simpa using this
  · rintro rfl
    cases kind <;> rfl

/-- A name belongs to a kind exactly if it is the kind's name. -/
theorem ofName?_eq_some_iff {word : String} {kind : Kind} :
    ofName? word = some kind ↔ kind.name = word := by
  constructor
  · intro h
    have := List.find?_some h
    simpa using this
  · rintro rfl
    cases kind <;> rfl

end Kind

end ModelGraph
