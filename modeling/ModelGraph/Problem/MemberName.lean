import ModelGraph.Registry

/-! # Duplicate member names

Conversion may give two fields the same name, and an enum may list a member twice. Each name that
occurred before is reported with the two declared names, the nearest earlier one first. -/

namespace ModelGraph

/-- What the report says about a field whose name occurred before. -/
def duplicateMessage (name earlier ident : String) : String :=
  "duplicate member name '" ++ name ++ "' for '" ++ earlier ++ "' and '" ++ ident ++ "'"

/-- The messages about the fields whose names occurred before. The names seen so far come with the
declared name that had each last. -/
def duplicatesAfter (seen : List (String × String)) : List Field → List String
  | [] => []
  | field :: rest =>
      let more := duplicatesAfter ((field.name, field.ident) :: seen) rest
      match seen.lookup field.name with
      | some earlier => duplicateMessage field.name earlier field.ident :: more
      | none => more

/-- The messages about the duplicate member names of an entity. -/
def Entity.duplicateNames (entity : Entity) : List String :=
  duplicatesAfter [] entity.body.fields

/-- File a message for every duplicate member name, under its entity. -/
def Registry.reportMemberNames (registry : Registry) (tree : ProblemTree) : ProblemTree :=
  registry.entities.foldl
    (fun tree entity =>
      tree.mergeFor entity.name (ProblemTree.empty.addAll entity.duplicateNames))
    tree

end ModelGraph
