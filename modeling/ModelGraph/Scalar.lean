/-! # Built-in scalars -/

namespace ModelGraph

/-- The scalar types that every schema has. -/
inductive Scalar where
  | boolean
  | float
  | id
  | int
  | string
  deriving DecidableEq, Repr

namespace Scalar

/-- All scalars. -/
def all : List Scalar :=
  [boolean, float, id, int, string]

/-- The name under which a schema refers to the scalar. -/
def name : Scalar → String
  | boolean => "Boolean"
  | float => "Float"
  | id => "ID"
  | int => "Int"
  | string => "String"

/-- The name of the scalar in the written form of a model. -/
def tag : Scalar → String
  | id => "Id"
  | scalar => scalar.name

/-- The type that holds values of the scalar in generated code. -/
def hostType : Scalar → String
  | boolean => "bool"
  | float => "f64"
  | id => "i64"
  | int => "i32"
  | string => "String"

/-- The scalar of a name. -/
def ofName? (name : String) : Option Scalar :=
  all.find? (·.name == name)

/-- A name has a scalar exactly if it is the scalar's name. -/
theorem ofName?_eq_some_iff {name : String} {scalar : Scalar} :
    ofName? name = some scalar ↔ scalar.name = name := by
  constructor
  · intro h
    have := List.find?_some h
    simpa using this
  · rintro rfl
    cases scalar <;> rfl

end Scalar

end ModelGraph
