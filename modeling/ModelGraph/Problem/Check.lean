import ModelGraph.Problem.MemberName
import ModelGraph.Problem.Reference

/-! # Checks of a registry

Resolution does not fail on what it could not resolve. The checks collect what is left. -/

namespace ModelGraph.Registry

/-- The unresolved references. -/
def referenceProblems (registry : Registry) : ProblemTree :=
  registry.reportReferences .empty

/-- The duplicate member names. -/
def memberNameProblems (registry : Registry) : ProblemTree :=
  registry.reportMemberNames .empty

/-- The unresolved references and the duplicate member names. -/
def problems (registry : Registry) : ProblemTree :=
  registry.reportMemberNames (registry.reportReferences .empty)

/-- No reference is left unresolved. -/
def checkReferences (registry : Registry) : Except ProblemTree Unit :=
  registry.referenceProblems.verdict

/-- No reference is left unresolved, and no member name occurs twice in an entity. -/
def check (registry : Registry) : Except ProblemTree Unit :=
  registry.problems.verdict

end ModelGraph.Registry
