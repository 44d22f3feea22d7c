import ModelGraph.Document.Chunk
import ModelGraph.Trivia

/-! # Splitting a document

A splitter keeps the chunks that declare entities of the model. Entry points of a service and
declarations that only annotate are dropped; text that no rule knows is kept, so that the reader of
declarations can refuse it. -/

namespace ModelGraph.Document

open Text

/-- The keywords of declarations that describe no entity. -/
def nonEntityKeywords : List String :=
  ["directive", "scalar", "schema"]

/-- Why a chunk is dropped. -/
inductive Dropped where
  | nonEntity (keyword name : String)
  | rootOperation (name : String)
  deriving DecidableEq, Repr

/-- A splitter knows the names of the types that only list operations. -/
structure Splitter where
  rootOperations : List String
  deriving DecidableEq, Repr

/-- The identifiers and numbers of a text. -/
def identifierRuns (text : List Char) : List String :=
  (runs isIdentRest text).map String.ofList

/-- The keyword of a declaration and the name after it, empty where the text has none. The word
`extend` before the keyword does not count. -/
def heading (chunk : List Char) : String × String :=
  match identifierRuns (normalForm chunk) with
  | "extend" :: more => (more.headD "", more.tail.headD "")
  | all => (all.headD "", all.tail.headD "")

namespace Splitter

/-- The splitter that drops queries and mutations. -/
def standard : Splitter := ⟨["Query", "Mutation"]⟩

/-- The reason to drop a chunk, if there is one. -/
def dropped? (splitter : Splitter) (chunk : List Char) : Option Dropped :=
  let (keyword, name) := heading chunk
  if nonEntityKeywords.contains keyword then some (.nonEntity keyword name)
  else if keyword == "type" && splitter.rootOperations.contains name then
    some (.rootOperation name)
  else none

/-- The chunks of a document that the splitter drops, in order. -/
def drops (splitter : Splitter) (document : List Char) : List Dropped :=
  (chunks document).filterMap splitter.dropped?

/-- The chunks of a document that the splitter keeps, in order. -/
def keptChunks (splitter : Splitter) (document : List Char) : List (List Char) :=
  (chunks document).filter fun chunk => (splitter.dropped? chunk).isNone

/-- The texts of the declarations that the splitter keeps, in order. -/
def split (splitter : Splitter) (document : String) : List String :=
  (splitter.keptChunks document.toList).map String.ofList

end Splitter

end ModelGraph.Document
