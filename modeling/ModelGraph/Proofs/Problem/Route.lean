import Mathlib.Data.List.Basic
import ModelGraph.Proofs.Problem.Count

/-! # Routes of problem trees

A tree files its messages under routes: lists of names that lead from the root to a place. The
operations on trees are told by the messages that they leave under each route, and the flattened
tree by the messages under its routes in order (`messagesAt_mergeFor`, `flatten_eq`). -/

namespace ModelGraph.ProblemTree

/-- The tree filed under a name, which is empty if none is. -/
def branch (tree : ProblemTree) (name : String) : ProblemTree :=
  (tree.branches.get? name).getD empty

/-- The messages filed under a route, in order. -/
def messagesAt : ProblemTree → List String → List String
  | tree, [] => tree.messages
  | tree, name :: rest => (tree.branch name).messagesAt rest

/-- The tree that has nothing but another one under a name. -/
def under (name : String) (tree : ProblemTree) : ProblemTree :=
  node [] [(name, tree)]

/-- Branches stand in the order of names, none of them is empty, and the same holds in each. -/
inductive Sound : ProblemTree → Prop
  | node {messages : List String} {branches : Keyed ProblemTree} (ordered : branches.Ordered)
      (filled : ∀ entry ∈ branches, entry.2.isEmpty = false)
      (sound : ∀ entry ∈ branches, Sound entry.2) : Sound (node messages branches)

mutual

/-- The routes with messages, in the order in which the tree is read. -/
def routes : ProblemTree → List (List String)
  | node messages branches => (if messages.isEmpty then [] else [[]]) ++ routesAll branches

/-- The routes with messages of the given trees, each below its name. -/
def routesAll : List (String × ProblemTree) → List (List String)
  | [] => []
  | (name, tree) :: rest => tree.routes.map (name :: ·) ++ routesAll rest

end

/-- A route as text. -/
def routeText (route : List String) : String :=
  route.foldl routeBelow ""

@[simp] theorem messagesAt_nil (tree : ProblemTree) : tree.messagesAt [] = tree.messages := rfl

@[simp] theorem messagesAt_cons (tree : ProblemTree) (name : String) (rest : List String) :
    tree.messagesAt (name :: rest) = (tree.branch name).messagesAt rest := rfl

@[simp] theorem messages_addAll (tree : ProblemTree) (more : List String) :
    (tree.addAll more).messages = tree.messages ++ more := rfl

@[simp] theorem branch_addAll (tree : ProblemTree) (more : List String) (name : String) :
    (tree.addAll more).branch name = tree.branch name := rfl

@[simp] theorem messages_alterBranch (tree : ProblemTree) (name : String)
    (change : ProblemTree → ProblemTree) :
    (tree.alterBranch name change).messages = tree.messages := rfl

@[simp] theorem branch_empty (name : String) : empty.branch name = empty := rfl

@[simp] theorem messagesAt_empty (route : List String) : empty.messagesAt route = [] := by
  induction route with
  | nil => rfl
  | cons name rest ih => exact ih

theorem branches_alterBranch (tree : ProblemTree) (name : String)
    (change : ProblemTree → ProblemTree) :
    (tree.alterBranch name change).branches =
      tree.branches.alter name fun branch => change (branch.getD empty) := rfl

theorem messagesAt_addAll (tree : ProblemTree) (more : List String) (route : List String) :
    (tree.addAll more).messagesAt route =
      tree.messagesAt route ++ if route = [] then more else [] := by
  cases route with
  | nil => rfl
  | cons name rest => exact (List.append_nil _).symm

theorem branch_alterBranch {tree : ProblemTree} (h : tree.branches.Ordered) (name other : String)
    (change : ProblemTree → ProblemTree) :
    (tree.alterBranch name change).branch other =
      if other = name then change (tree.branch name) else tree.branch other := by
  rw [branch, branches_alterBranch]
  split
  · next hn =>
    rw [hn, Keyed.get?_alter_self h]
    rfl
  · next hn =>
    rw [Keyed.get?_alter_of_ne hn]
    rfl

theorem routesAll_eq (branches : List (String × ProblemTree)) :
    routesAll branches = branches.flatMap fun entry => entry.2.routes.map (entry.1 :: ·) := by
  induction branches with
  | nil => rfl
  | cons entry rest ih => rw [routesAll, ih, List.flatMap_cons]

theorem flattenAll_eq (base : String) (branches : List (String × ProblemTree)) :
    flattenAll base branches =
      branches.flatMap fun entry => flattenAt (routeBelow base entry.1) entry.2 := by
  induction branches with
  | nil => rfl
  | cons entry rest ih => rw [flattenAll, ih, List.flatMap_cons]

theorem areEmpty_eq_all (branches : List (String × ProblemTree)) :
    areEmpty branches = branches.all fun entry => entry.2.isEmpty := by
  induction branches with
  | nil => rfl
  | cons entry rest ih => rw [areEmpty, ih, List.all_cons]

/-- Trees are absorbed one after the other, each under its name. -/
theorem absorbBranches_eq (tree : ProblemTree) (branches : List (String × ProblemTree)) :
    tree.absorbBranches branches =
      branches.foldl (fun tree entry => tree.mergeFor entry.1 entry.2) tree := by
  induction branches generalizing tree with
  | nil => rfl
  | cons entry rest ih =>
      rw [absorbBranches, ih]
      rfl

theorem messagesAt_under_nil (name : String) (tree : ProblemTree) :
    (under name tree).messagesAt [] = [] := rfl

theorem branch_node_cons (messages : List String) (key name : String) (tree : ProblemTree)
    (rest : List (String × ProblemTree)) :
    (node messages ((key, tree) :: rest)).branch name =
      if name = key then tree else (node messages rest).branch name := by
  by_cases hn : name = key
  · simp [branch, branches, Keyed.get?, hn]
  · simp [branch, branches, Keyed.get?, List.lookup_cons, hn, beq_false_of_ne hn]

theorem messagesAt_under_cons (name other : String) (tree : ProblemTree) (rest : List String) :
    (under name tree).messagesAt (other :: rest) =
      if other = name then tree.messagesAt rest else [] := by
  rw [messagesAt_cons, under, branch_node_cons]
  split
  · rfl
  · exact messagesAt_empty rest

namespace Sound

theorem empty : Sound empty :=
  .node Keyed.ordered_nil (by simp) (by simp)

variable {tree other : ProblemTree} (h : tree.Sound)
include h

theorem ordered : tree.branches.Ordered := by
  cases h
  assumption

/-- A branch that is there is found under its name. -/
theorem branch_eq {entry : String × ProblemTree} (he : entry ∈ tree.branches) :
    tree.branch entry.1 = entry.2 := by
  rw [branch, h.ordered.mem_iff.1 he, Option.getD_some]

theorem branch (name : String) : (tree.branch name).Sound := by
  rw [ProblemTree.branch]
  cases hb : tree.branches.get? name with
  | none => exact .empty
  | some found =>
      have hmem := h.ordered.mem_iff.2 hb
      obtain ⟨-, -, hsound⟩ := h
      exact hsound _ hmem

theorem addAll (more : List String) : (tree.addAll more).Sound := by
  obtain ⟨hordered, hfilled, hsound⟩ := h
  exact .node hordered hfilled hsound

/-- A change that leaves something under a name keeps the tree sound. -/
theorem alterBranch {name : String} {change : ProblemTree → ProblemTree}
    (hfilled : (change (tree.branch name)).isEmpty = false)
    (hsound : (change (tree.branch name)).Sound) : (tree.alterBranch name change).Sound := by
  have hordered : (tree.alterBranch name change).branches.Ordered := h.ordered.alter
  have hentry : ∀ entry ∈ (tree.alterBranch name change).branches,
      entry.2 = change (tree.branch name) ∨ entry ∈ tree.branches := by
    intro entry he
    have hget := hordered.mem_iff.1 he
    rw [branches_alterBranch] at hget
    by_cases hn : entry.1 = name
    · rw [hn, Keyed.get?_alter_self h.ordered] at hget
      exact .inl (Option.some.inj hget).symm
    · rw [Keyed.get?_alter_of_ne hn] at hget
      exact .inr (h.ordered.mem_iff.2 hget)
  obtain ⟨-, hfilled', hsound'⟩ := h
  apply Sound.node hordered
  · intro entry he
    rcases hentry entry he with heq | hold
    · rw [heq, hfilled]
    · exact hfilled' entry hold
  · intro entry he
    rcases hentry entry he with heq | hold
    · rw [heq]
      exact hsound
    · exact hsound' entry hold

/-- A tree that files a message at the root is not empty. -/
theorem addFor (name message : String) : (tree.addFor name message).Sound := by
  apply h.alterBranch _ ((h.branch name).addAll [message])
  rw [Bool.eq_false_iff, ne_eq, isEmpty_iff_count, add, count_addAll]
  simp

end Sound

/-- An empty tree has no message under any route. -/
theorem messagesAt_of_isEmpty {tree : ProblemTree} (h : tree.isEmpty = true) (route : List String) :
    tree.messagesAt route = [] := by
  induction route generalizing tree with
  | nil =>
      obtain ⟨own, branches⟩ := tree
      exact List.isEmpty_iff.1 (Bool.and_eq_true_iff.1 h).1
  | cons name rest ih =>
      apply ih
      rw [branch]
      cases hb : tree.branches.get? name with
      | none => rfl
      | some found =>
          obtain ⟨own, branches⟩ := tree
          have hall := (Bool.and_eq_true_iff.1 h).2
          rw [areEmpty_eq_all, List.all_eq_true] at hall
          obtain ⟨before, after, hbranches, -⟩ := List.lookup_eq_some_iff.1 hb
          apply hall (name, found)
          rw [show branches = _ from hbranches]
          simp

section Merge

variable {tree other : ProblemTree} {name : String}

/-- Merging keeps a tree sound if absorbing does. -/
theorem Sound.mergeFor_of_absorb (h : tree.Sound)
    (habsorb : ((tree.branch name).absorb other).Sound) : (tree.mergeFor name other).Sound := by
  rw [mergeFor]
  split
  · exact h
  · next hfilled =>
    apply h.alterBranch _ habsorb
    rw [isEmpty_iff_count] at hfilled
    rw [Bool.eq_false_iff, ne_eq, isEmpty_iff_count, count_absorb]
    omega

/-- Merging files what absorbing does, below the name. -/
theorem Sound.messagesAt_mergeFor_of_absorb (h : tree.Sound)
    (habsorb : ∀ route, ((tree.branch name).absorb other).messagesAt route =
      (tree.branch name).messagesAt route ++ other.messagesAt route) (route : List String) :
    (tree.mergeFor name other).messagesAt route =
      tree.messagesAt route ++ (under name other).messagesAt route := by
  cases route with
  | nil =>
      rw [messagesAt_under_nil, List.append_nil, mergeFor]
      split <;> rfl
  | cons first rest =>
      rw [messagesAt_under_cons, mergeFor]
      split
      · next hempty => simp [messagesAt_of_isEmpty hempty]
      · rw [messagesAt_cons, branch_alterBranch h.ordered]
        split
        · next hfirst => rw [habsorb, hfirst, messagesAt_cons]
        · rw [List.append_nil, messagesAt_cons]

end Merge

/-- The messages of a tree are its own and those of the branches, each below its name. -/
theorem messagesAt_node {messages : List String} {branches : Keyed ProblemTree}
    (h : branches.Ordered) (route : List String) :
    (node messages branches).messagesAt route =
      (if route = [] then messages else []) ++
        branches.flatMap fun entry => (under entry.1 entry.2).messagesAt route := by
  cases route with
  | nil =>
      have hnone : (branches.flatMap fun entry => (under entry.1 entry.2).messagesAt []) = [] :=
        List.flatMap_eq_nil_iff.2 fun _ _ => rfl
      rw [hnone, List.append_nil]
      rfl
  | cons name rest =>
      rw [if_neg (List.cons_ne_nil _ _), List.nil_append, messagesAt_cons]
      simp only [messagesAt_under_cons]
      induction branches with
      | nil => exact messagesAt_empty rest
      | cons entry others ih =>
          obtain ⟨key, tree⟩ := entry
          simp only [Keyed.Ordered, Keyed.names_cons, List.pairwise_cons] at h
          rw [branch_node_cons, List.flatMap_cons, ← ih h.2]
          split
          · next hk =>
            -- no other branch has the name, for their names are above it
            have hnone : Keyed.get? others name = none := Keyed.get?_eq_none_of_lt (hk ▸ h.1)
            rw [branch, branches, hnone, Option.getD_none, messagesAt_empty, List.append_nil]
          · rw [List.nil_append]

/-- Trees are absorbed soundly and without a loss if each of them is. -/
theorem absorbBranches_spec {branches : List (String × ProblemTree)}
    (ih : ∀ entry ∈ branches, ∀ tree : ProblemTree, tree.Sound →
      (tree.absorb entry.2).Sound ∧ ∀ route, (tree.absorb entry.2).messagesAt route =
        tree.messagesAt route ++ entry.2.messagesAt route)
    {tree : ProblemTree} (h : tree.Sound) :
    (tree.absorbBranches branches).Sound ∧
      ∀ route, (tree.absorbBranches branches).messagesAt route = tree.messagesAt route ++
        branches.flatMap fun entry => (under entry.1 entry.2).messagesAt route := by
  rw [absorbBranches_eq]
  induction branches generalizing tree with
  | nil => exact ⟨h, fun route => (List.append_nil _).symm⟩
  | cons entry rest ihrest =>
      obtain ⟨hsound, hmessages⟩ := ih entry List.mem_cons_self _ (h.branch entry.1)
      have hmerged := h.mergeFor_of_absorb hsound
      obtain ⟨hlast, hall⟩ :=
        ihrest (fun other hother => ih other (List.mem_cons_of_mem _ hother)) hmerged
      refine ⟨hlast, fun route => ?_⟩
      rw [List.foldl_cons, hall, h.messagesAt_mergeFor_of_absorb hmessages, List.append_assoc,
        List.flatMap_cons]

/-- Absorbing a tree adds its messages under each route behind those that are there. The induction
is on the absorbed tree. -/
theorem absorb_spec {tree other : ProblemTree} (h : tree.Sound) (h' : other.Sound) :
    (tree.absorb other).Sound ∧
      ∀ route, (tree.absorb other).messagesAt route =
        tree.messagesAt route ++ other.messagesAt route := by
  induction h' generalizing tree with
  | @node messages branches hordered _ _ ih =>
      obtain ⟨hsound, hmessages⟩ :=
        absorbBranches_spec (fun entry he tree => ih entry he) (h.addAll messages)
      rw [ProblemTree.absorb]
      refine ⟨hsound, fun route => ?_⟩
      rw [hmessages, messagesAt_node hordered, ← List.append_assoc, messagesAt_addAll]

/-- Sound trees are absorbed one after the other. -/
theorem absorbBranches_of_sound {branches : List (String × ProblemTree)}
    (hsound : ∀ entry ∈ branches, entry.2.Sound) {tree : ProblemTree} (h : tree.Sound) :
    (tree.absorbBranches branches).Sound ∧
      ∀ route, (tree.absorbBranches branches).messagesAt route = tree.messagesAt route ++
        branches.flatMap fun entry => (under entry.1 entry.2).messagesAt route :=
  absorbBranches_spec (fun entry he _ htree => absorb_spec htree (hsound entry he)) h

section Spec

variable {tree other : ProblemTree} (h : tree.Sound) (h' : other.Sound)
include h h'

theorem Sound.mergeFor (name : String) : (tree.mergeFor name other).Sound :=
  h.mergeFor_of_absorb (absorb_spec (h.branch name) h').1

/-- Merging a tree under a name adds its messages, below the name, behind those that are there. -/
theorem messagesAt_mergeFor (name : String) (route : List String) :
    (tree.mergeFor name other).messagesAt route =
      tree.messagesAt route ++ (under name other).messagesAt route :=
  h.messagesAt_mergeFor_of_absorb (absorb_spec (h.branch name) h').2 route

end Spec

/-- Filing a message under a name adds it there, behind those that are there. -/
theorem messagesAt_addFor {tree : ProblemTree} (h : tree.Sound) (name message : String)
    (route : List String) :
    (tree.addFor name message).messagesAt route =
      tree.messagesAt route ++ if route = [name] then [message] else [] := by
  cases route with
  | nil => simp [addFor]
  | cons first rest =>
      rw [addFor, messagesAt_cons, branch_alterBranch h.ordered]
      split
      · next hfirst =>
        rw [add, messagesAt_addAll, messagesAt_cons, hfirst]
        simp
      · next hfirst => simp [hfirst]

section Routes

variable {tree : ProblemTree} (h : tree.Sound)
include h

/-- Something is filed under a route below the root exactly if it is in the branch of that name. -/
theorem Sound.messagesAt_cons_ne_nil_iff {name : String} {rest : List String} :
    tree.messagesAt (name :: rest) ≠ [] ↔
      ∃ entry ∈ tree.branches, entry.1 = name ∧ entry.2.messagesAt rest ≠ [] := by
  rw [messagesAt_cons]
  constructor
  · intro hne
    rw [ProblemTree.branch] at hne
    cases hb : tree.branches.get? name with
    | none => simp [hb] at hne
    | some found =>
        rw [hb] at hne
        exact ⟨(name, found), h.ordered.mem_iff.2 hb, rfl, hne⟩
  · rintro ⟨entry, he, rfl, hne⟩
    rw [h.branch_eq he]
    exact hne

/-- The routes of a tree are those that messages are filed under. -/
theorem mem_routes_iff {route : List String} :
    route ∈ tree.routes ↔ tree.messagesAt route ≠ [] := by
  induction h generalizing route with
  | @node messages branches hordered hfilled hsound ih =>
      have hnode : (node messages branches).Sound := .node hordered hfilled hsound
      rw [routes, routesAll_eq, List.mem_append, List.mem_flatMap]
      cases route with
      | nil =>
          have hbelow : ¬ ∃ entry ∈ branches, [] ∈ entry.2.routes.map (entry.1 :: ·) := by simp
          rw [or_iff_left hbelow, messagesAt_nil, ProblemTree.messages]
          cases messages <;> simp
      | cons name rest =>
          have hroot :
              name :: rest ∉ (if messages.isEmpty then [] else [[]] : List (List String)) := by
            split <;> simp
          rw [or_iff_right hroot, hnode.messagesAt_cons_ne_nil_iff]
          refine exists_congr fun entry => and_congr_right fun he => ?_
          rw [List.mem_map, ← ih entry he]
          constructor
          · rintro ⟨route, hroute, heq⟩
            obtain ⟨hname, rfl⟩ := List.cons_eq_cons.1 heq
            exact ⟨hname, hroute⟩
          · rintro ⟨rfl, hroute⟩
            exact ⟨rest, hroute, rfl⟩

/-- The routes of a tree stand in lexicographic order of their names. -/
theorem pairwise_routes : tree.routes.Pairwise (· < ·) := by
  induction h with
  | @node messages branches hordered hfilled hsound ih =>
      rw [routes, routesAll_eq, List.pairwise_append, List.pairwise_flatMap]
      refine ⟨by split <;> simp, ⟨fun entry he => ?_, ?_⟩, ?_⟩
      · apply (ih entry he).map
        intro first second hlt
        exact List.cons_lt_cons_iff.2 (.inr ⟨rfl, hlt⟩)
      · rw [Keyed.Ordered, Keyed.names, List.pairwise_map] at hordered
        apply hordered.imp
        intro entry entry' hlt route hroute route' hroute'
        obtain ⟨rest, -, rfl⟩ := List.mem_map.1 hroute
        obtain ⟨rest', -, rfl⟩ := List.mem_map.1 hroute'
        exact List.cons_lt_cons_iff.2 (.inl hlt)
      · intro root hroot below hbelow
        obtain rfl : root = [] := by
          split at hroot <;> simp_all
        obtain ⟨entry, -, hbelow⟩ := List.mem_flatMap.1 hbelow
        obtain ⟨rest, -, rfl⟩ := List.mem_map.1 hbelow
        exact List.nil_lt_cons _ _

/-- A flattened tree has the messages under its routes, route by route. -/
theorem flattenAt_eq (base : String) :
    flattenAt base tree = tree.routes.flatMap fun route =>
      (tree.messagesAt route).map fun message => (route.foldl routeBelow base, message) := by
  induction h generalizing base with
  | @node messages branches hordered hfilled hsound ih =>
      have hnode : (node messages branches).Sound := .node hordered hfilled hsound
      rw [flattenAt, flattenAll_eq, routes, routesAll_eq, List.flatMap_append, List.flatMap_assoc]
      congr 1
      · cases messages <;> simp [ProblemTree.messages]
      · apply List.flatMap_congr
        intro entry he
        rw [ih entry he, List.flatMap_map]
        simp only [messagesAt_cons, hnode.branch_eq he, List.foldl_cons]

theorem flatten_eq :
    tree.flatten = tree.routes.flatMap fun route =>
      (tree.messagesAt route).map fun message => (routeText route, message) :=
  flattenAt_eq h ""

end Routes

end ModelGraph.ProblemTree
