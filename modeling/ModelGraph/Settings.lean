/-! # Settings

What a caller may choose about a resolution. -/

namespace ModelGraph

/-- The settings of a resolution. -/
structure Settings where
  /-- The package recorded with every entity. -/
  package : String := ""
  /-- What goes before every type name. -/
  affixBefore : String := ""
  /-- What goes after every type name. -/
  affixAfter : String := ""
  /-- Convert names to the casing convention. -/
  convertCase : Bool := true
  /-- Take fields of an enum type for strings. -/
  enumsAsStrings : Bool := false
  /-- Fail when a reference stays unresolved. -/
  strictReferences : Bool := false
  /-- The types that only list operations and are no entities. -/
  rootOperations : List String := ["Query", "Mutation"]
  /-- Custom scalars, each with the built-in scalar that stands for it, in the order of names. -/
  scalars : List (String × String) := []
  deriving DecidableEq, Repr

end ModelGraph
