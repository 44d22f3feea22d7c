import ModelGraph.Kind
import ModelGraph.Problem.Tree

/-! # Why a resolution fails -/

namespace ModelGraph

/-- The causes that end a resolution. -/
inductive ResolutionError where
  /-- No reader accepts the declaration, though its keyword is known. -/
  | unsupportedEntity (kind : Kind) (declaration : String)
  /-- No reader accepts the declaration, and nothing tells its kind. -/
  | unsupportedDeclaration (declaration : String)
  /-- An entity of this resolved name is registered already. -/
  | duplicateEntity (name : String)
  /-- A custom scalar stands for something that is no built-in scalar. -/
  | unknownScalar (name target : String)
  /-- References are left unresolved, and the settings forbid it. -/
  | unresolvedReferences (problems : ProblemTree)
  deriving Repr

/-- The message to the user. -/
def ResolutionError.message : ResolutionError → String
  | unsupportedEntity kind declaration =>
      "Cannot parse to " ++ kind.name ++ " entity: " ++ declaration
  | unsupportedDeclaration declaration => "Cannot parse declaration: " ++ declaration
  | duplicateEntity name => "duplicate entity '" ++ name ++ "'"
  | unknownScalar name target =>
      "custom scalar '" ++ name ++ "' maps to unknown scalar '" ++ target ++ "'"
  | unresolvedReferences problems => "reference validation failed:\n" ++ problems.text

end ModelGraph
