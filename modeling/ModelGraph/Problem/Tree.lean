import ModelGraph.Keyed

/-! # Problem trees

Messages about a model, filed under routes: the entity first, then the member. Trees are merged
under a route without losing a message, and are read in the order of routes. -/

namespace ModelGraph

/-- The messages filed at one place, and the trees filed under names below it. -/
inductive ProblemTree where
  | node (messages : List String) (branches : List (String × ProblemTree))
  deriving Repr

namespace ProblemTree

/-- The tree without messages. -/
def empty : ProblemTree := node [] []

/-- The messages filed at the root. -/
def messages : ProblemTree → List String
  | node messages _ => messages

/-- The trees below the root. -/
def branches : ProblemTree → Keyed ProblemTree
  | node _ branches => branches

mutual

/-- No message is filed anywhere. -/
def isEmpty : ProblemTree → Bool
  | node messages branches => messages.isEmpty && areEmpty branches

/-- No message is filed anywhere in the given trees. -/
def areEmpty : List (String × ProblemTree) → Bool
  | [] => true
  | (_, tree) :: rest => tree.isEmpty && areEmpty rest

end

mutual

/-- The number of messages. -/
def count : ProblemTree → Nat
  | node messages branches => messages.length + countAll branches

/-- The number of messages in the given trees. -/
def countAll : List (String × ProblemTree) → Nat
  | [] => 0
  | (_, tree) :: rest => tree.count + countAll rest

end

/-- File messages at the root, after those that are there. -/
def addAll (tree : ProblemTree) (more : List String) : ProblemTree :=
  node (tree.messages ++ more) tree.branches

/-- File a message at the root. -/
def add (tree : ProblemTree) (message : String) : ProblemTree :=
  tree.addAll [message]

/-- Change the tree filed under a name, which may be empty so far. -/
def alterBranch (tree : ProblemTree) (name : String) (change : ProblemTree → ProblemTree) :
    ProblemTree :=
  node tree.messages (tree.branches.alter name fun branch => change (branch.getD empty))

/-- File a message under a name. -/
def addFor (tree : ProblemTree) (name message : String) : ProblemTree :=
  tree.alterBranch name (·.add message)

mutual

/-- File all messages of another tree at the same routes, after those that are there. -/
def absorb (tree : ProblemTree) : ProblemTree → ProblemTree
  | node messages branches => absorbBranches (tree.addAll messages) branches

/-- File all messages of other trees under their names. Empty ones leave no trace. -/
def absorbBranches (tree : ProblemTree) : List (String × ProblemTree) → ProblemTree
  | [] => tree
  | (name, other) :: rest =>
      absorbBranches
        (if other.isEmpty then tree else tree.alterBranch name fun branch => absorb branch other)
        rest

end

/-- File all messages of another tree under a name. An empty tree leaves no trace. -/
def mergeFor (tree : ProblemTree) (name : String) (other : ProblemTree) : ProblemTree :=
  if other.isEmpty then tree else tree.alterBranch name fun branch => branch.absorb other

/-- A route as text, one name deeper. -/
def routeBelow (route name : String) : String :=
  if route = "" then name else route ++ "." ++ name

mutual

/-- The messages below a route with their routes. -/
def flattenAt (route : String) : ProblemTree → List (String × String)
  | node messages branches =>
      messages.map (fun message => (route, message)) ++ flattenAll route branches

/-- The messages of the trees filed below a route, with their routes. -/
def flattenAll (route : String) : List (String × ProblemTree) → List (String × String)
  | [] => []
  | (name, tree) :: rest => flattenAt (routeBelow route name) tree ++ flattenAll route rest

end

/-- All messages with their routes: at each place its own first, then those below in the order of
names. -/
def flatten (tree : ProblemTree) : List (String × String) :=
  flattenAt "" tree

/-- One problem as a line of text. -/
def line (route message : String) : String :=
  if route = "" then message ++ "\n" else route ++ ": " ++ message ++ "\n"

/-- All problems as text, one to a line. -/
def text (tree : ProblemTree) : String :=
  String.join (tree.flatten.map fun (route, message) => line route message)

/-- The verdict on what was checked: no problem, or the tree of problems. -/
def verdict (tree : ProblemTree) : Except ProblemTree Unit :=
  if tree.isEmpty then .ok () else .error tree

end ProblemTree

end ModelGraph
