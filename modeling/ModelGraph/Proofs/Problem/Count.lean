import ModelGraph.Problem.Check

/-! # Counting problems

Filing messages in a tree, under whatever routes, adds to the number of its messages as many as are
filed; a tree is empty exactly if that number is zero. Hence a check passes exactly if it has
nothing to report (`Registry.checkReferences_eq_ok_iff`). -/

namespace ModelGraph

namespace ProblemTree

@[simp] theorem count_empty : empty.count = 0 := rfl

theorem count_eq (tree : ProblemTree) :
    tree.count = tree.messages.length + countAll tree.branches := by
  cases tree
  simp [count, messages, branches]

mutual

/-- A tree is empty exactly if it has no messages. -/
theorem isEmpty_iff_count : ∀ tree : ProblemTree, tree.isEmpty = true ↔ tree.count = 0
  | node messages branches => by
      simp [isEmpty, count, areEmpty_iff_countAll branches, Nat.add_eq_zero_iff]

theorem areEmpty_iff_countAll :
    ∀ trees : List (String × ProblemTree), areEmpty trees = true ↔ countAll trees = 0
  | [] => by simp [areEmpty, countAll]
  | (_, tree) :: rest => by
      simp [areEmpty, countAll, isEmpty_iff_count tree, areEmpty_iff_countAll rest,
        Nat.add_eq_zero_iff]

end

/-- A change of one branch that adds some messages to it, whether it is there or not, adds as many
to all branches together. -/
theorem countAll_alter {change : Option ProblemTree → ProblemTree} {n : Nat}
    (hchange : ∀ branch, (change branch).count = (branch.getD empty).count + n) (name : String)
    (branches : Keyed ProblemTree) :
    countAll (branches.alter name change) = countAll branches + n := by
  induction branches with
  | nil => simp [Keyed.alter, countAll, hchange]
  | cons entry rest ih =>
      obtain ⟨key, tree⟩ := entry
      simp only [Keyed.alter]
      split
      · simp only [countAll, hchange, Option.getD_some]
        omega
      · split
        · simp only [countAll, hchange, Option.getD_none, count_empty]
          omega
        · simp only [countAll, ih]
          omega

theorem count_alterBranch {change : ProblemTree → ProblemTree} {n : Nat}
    (hchange : ∀ branch, (change branch).count = branch.count + n) (tree : ProblemTree)
    (name : String) : (tree.alterBranch name change).count = tree.count + n := by
  have hbranches := countAll_alter (fun branch => hchange (branch.getD empty)) name tree.branches
  rw [alterBranch, count, hbranches, tree.count_eq]
  omega

@[simp] theorem count_addAll (tree : ProblemTree) (more : List String) :
    (tree.addAll more).count = tree.count + more.length := by
  rw [addAll, count, List.length_append, tree.count_eq]
  omega

@[simp] theorem count_addFor (tree : ProblemTree) (name message : String) :
    (tree.addFor name message).count = tree.count + 1 :=
  count_alterBranch (fun branch => branch.count_addAll [message]) tree name

mutual

/-- A tree that absorbs another has the messages of both. -/
theorem count_absorb :
    ∀ tree other : ProblemTree, (tree.absorb other).count = tree.count + other.count
  | tree, node messages branches => by
      rw [absorb, count_absorbBranches, count_addAll, count, Nat.add_assoc]

theorem count_absorbBranches : ∀ (tree : ProblemTree) (branches : List (String × ProblemTree)),
    (tree.absorbBranches branches).count = tree.count + countAll branches
  | tree, [] => by simp [absorbBranches, countAll]
  | tree, (name, other) :: rest => by
      rw [absorbBranches, count_absorbBranches, countAll]
      split
      · next hempty =>
        rw [(isEmpty_iff_count other).1 hempty, Nat.zero_add]
      · rw [count_alterBranch (fun branch => count_absorb branch other), Nat.add_assoc]

end

@[simp] theorem count_mergeFor (tree : ProblemTree) (name : String) (other : ProblemTree) :
    (tree.mergeFor name other).count = tree.count + other.count := by
  rw [mergeFor]
  split
  · next hempty => rw [(isEmpty_iff_count other).1 hempty, Nat.add_zero]
  · exact count_alterBranch (fun branch => count_absorb branch other) tree name

/-- What was checked is in order exactly if no problem is counted. -/
theorem verdict_eq_ok_iff {tree : ProblemTree} : tree.verdict = .ok () ↔ tree.count = 0 := by
  rw [verdict, ← isEmpty_iff_count]
  split <;> simp_all

theorem eq_of_verdict_eq_error {tree problems : ProblemTree} (h : tree.verdict = .error problems) :
    problems = tree := by
  rw [verdict] at h
  split at h
  · cases h
  · exact (Except.error.inj h).symm

end ProblemTree

namespace Registry

/-- Nothing is unresolved exactly if every reference of every entity is resolved. -/
theorem unresolvedReferences_eq_nil_iff {registry : Registry} :
    registry.unresolvedReferences = [] ↔
      ∀ entity ∈ registry.entities, ∀ reference ∈ entity.body.references,
        reference.2.unresolvedName? = none := by
  simp [unresolvedReferences, unresolvedOf, List.flatMap_eq_nil_iff, List.filterMap_eq_nil_iff]

/-- The report has one message for each unresolved reference. -/
theorem count_reportReferences (registry : Registry) (tree : ProblemTree) :
    (registry.reportReferences tree).count = tree.count + registry.unresolvedReferences.length := by
  rw [reportReferences]
  induction registry.unresolvedReferences generalizing tree with
  | nil => rfl
  | cons reference rest ih =>
      rw [List.foldl_cons, ih, List.length_cons]
      simp only [ProblemTree.count_mergeFor, ProblemTree.count_addFor, ProblemTree.count_empty]
      omega

/-- The check of references passes exactly if all of them are resolved. -/
theorem checkReferences_eq_ok_iff {registry : Registry} :
    registry.checkReferences = .ok () ↔ registry.unresolvedReferences = [] := by
  rw [checkReferences, ProblemTree.verdict_eq_ok_iff, referenceProblems, count_reportReferences,
    ProblemTree.count_empty, Nat.zero_add, List.length_eq_zero_iff]

end Registry

end ModelGraph
