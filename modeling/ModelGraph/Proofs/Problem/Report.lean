import Mathlib.Algebra.Ring.Nat
import ModelGraph.Proofs.Problem.Repeated
import ModelGraph.Proofs.Problem.Route
import ModelGraph.Proofs.Text.ByteOrder

/-! # The report of a check

The check of a registry files one message for each unresolved reference under its owner and member,
and one for each repeated name under its entity. The report is told by these routes, its count, and
the order in which it is read (`reports_problems`). -/

namespace ModelGraph

open ProblemTree Text

/-- What is reported under a route: the repeated names of an entity, or the unresolved references of
a member, in the order of the registry. -/
def Registry.reportedAt (registry : Registry) : List String → List String
  | [owner] => (registry.entities.filter (·.name = owner)).flatMap Entity.duplicateNames
  | [owner, member] =>
      (registry.unresolvedReferences.filter fun reference =>
        reference.owner = owner ∧ reference.member = member).map UnresolvedReference.message
  | _ => []

/-- The tree is the report of what is wrong with the registry. -/
structure ProblemTree.Reports (tree : ProblemTree) (registry : Registry) : Prop where
  /-- There is a message for each unresolved reference under its owner and member, and one for each
  repeated name under its entity. -/
  messagesAt : ∀ route, tree.messagesAt route = registry.reportedAt route
  /-- They are as many as the unresolved references, and the fields beyond the distinct names. -/
  count : tree.count = registry.unresolvedReferences.length +
    (registry.entities.map fun entity =>
      entity.body.fields.length - (entity.body.fields.map Field.name).dedup.length).sum
  /-- They are read route by route, in the order of the bytes of the names on the routes; a route
  comes before those that go on from it. -/
  flatten : ∃ routes : List (List String),
    routes.Pairwise (fun first second => first.map bytes < second.map bytes) ∧
      (∀ route, route ∈ routes ↔ registry.reportedAt route ≠ []) ∧
      tree.flatten = routes.flatMap fun route =>
        (registry.reportedAt route).map fun message => (routeText route, message)

/-- Elements that contribute nothing may be left out. -/
theorem flatMap_ite {α β : Type} (p : α → Prop) [DecidablePred p] (f : α → List β) (l : List α) :
    (l.flatMap fun a => if p a then f a else []) = (l.filter p).flatMap f := by
  induction l with
  | nil => rfl
  | cons a rest ih =>
      by_cases hp : p a <;> simp [hp, ih]

theorem messagesAt_under_addFor (owner member message : String) (route : List String) :
    (under owner (ProblemTree.empty.addFor member message)).messagesAt route =
      if [owner, member] = route then [message] else [] := by
  cases route with
  | nil => rfl
  | cons first rest =>
      rw [messagesAt_under_cons, messagesAt_addFor Sound.empty, messagesAt_empty, List.nil_append]
      by_cases hfirst : first = owner <;> simp [hfirst, eq_comm]

theorem messagesAt_under_addAll (owner : String) (messages route : List String) :
    (under owner (ProblemTree.empty.addAll messages)).messagesAt route =
      if [owner] = route then messages else [] := by
  cases route with
  | nil => rfl
  | cons first rest =>
      rw [messagesAt_under_cons, messagesAt_addAll, messagesAt_empty, List.nil_append]
      by_cases hfirst : first = owner <;> simp [hfirst, eq_comm]

namespace Registry

variable (registry : Registry)

/-- The trees that a check merges for the unresolved references. -/
def referenceEntries : List (String × ProblemTree) :=
  registry.unresolvedReferences.map fun reference =>
    (reference.owner, ProblemTree.empty.addFor reference.member reference.message)

/-- The trees that a check merges for the repeated names. -/
def memberNameEntries : List (String × ProblemTree) :=
  registry.entities.map fun entity => (entity.name, ProblemTree.empty.addAll entity.duplicateNames)

theorem reportReferences_eq (tree : ProblemTree) :
    registry.reportReferences tree = tree.absorbBranches registry.referenceEntries := by
  rw [absorbBranches_eq, referenceEntries, List.foldl_map]
  rfl

theorem reportMemberNames_eq (tree : ProblemTree) :
    registry.reportMemberNames tree = tree.absorbBranches registry.memberNameEntries := by
  rw [absorbBranches_eq, memberNameEntries, List.foldl_map]
  rfl

theorem problems_eq :
    registry.problems =
      ProblemTree.empty.absorbBranches
        (registry.referenceEntries ++ registry.memberNameEntries) := by
  rw [problems, reportMemberNames_eq, reportReferences_eq, absorbBranches_eq, absorbBranches_eq,
    absorbBranches_eq, List.foldl_append]

theorem sound_entries :
    ∀ entry ∈ registry.referenceEntries ++ registry.memberNameEntries, entry.2.Sound := by
  intro entry he
  rcases List.mem_append.1 he with he | he
  · obtain ⟨reference, -, rfl⟩ := List.mem_map.1 he
    exact Sound.empty.addFor _ _
  · obtain ⟨entity, -, rfl⟩ := List.mem_map.1 he
    exact Sound.empty.addAll _

theorem sound_problems : registry.problems.Sound := by
  rw [problems_eq]
  exact (absorbBranches_of_sound registry.sound_entries Sound.empty).1

theorem messagesAt_problems (route : List String) :
    registry.problems.messagesAt route = registry.reportedAt route := by
  rw [problems_eq, (absorbBranches_of_sound registry.sound_entries Sound.empty).2,
    messagesAt_empty, List.nil_append, List.flatMap_append, referenceEntries, memberNameEntries,
    List.flatMap_map, List.flatMap_map]
  simp only [messagesAt_under_addFor, messagesAt_under_addAll, flatMap_ite]
  match route with
  | [] => simp [reportedAt]
  | [owner] => simp [reportedAt]
  | [owner, member] => simp [reportedAt, List.map_eq_flatMap]
  | _ :: _ :: _ :: _ => simp [reportedAt]

theorem count_memberNameEntries :
    countAll registry.memberNameEntries =
      (registry.entities.map fun entity => entity.duplicateNames.length).sum := by
  rw [memberNameEntries]
  induction registry.entities with
  | nil => rfl
  | cons entity rest ih => simp [countAll, ih]

theorem count_problems :
    registry.problems.count = registry.unresolvedReferences.length +
      (registry.entities.map fun entity => entity.duplicateNames.length).sum := by
  rw [problems, reportMemberNames_eq, count_absorbBranches, count_reportReferences, count_empty,
    Nat.zero_add, count_memberNameEntries]

theorem reports_problems : registry.problems.Reports registry where
  messagesAt := registry.messagesAt_problems
  count := by
    rw [count_problems]
    simp only [length_duplicateNames]
  flatten := by
    have hsound := registry.sound_problems
    refine ⟨registry.problems.routes, ?_, ?_, ?_⟩
    · exact (pairwise_routes hsound).imp map_bytes_lt
    · intro route
      rw [mem_routes_iff hsound, messagesAt_problems]
    · rw [flatten_eq hsound]
      simp only [messagesAt_problems]

/-- A check passes exactly if all references are resolved and no name is repeated. -/
theorem check_eq_ok_iff :
    registry.check = .ok () ↔ registry.unresolvedReferences = [] ∧
      ∀ entity ∈ registry.entities, (entity.body.fields.map Field.name).Nodup := by
  rw [check, verdict_eq_ok_iff, count_problems, Nat.add_eq_zero_iff, List.length_eq_zero_iff,
    List.sum_eq_zero_iff_forall_eq_nat]
  simp [duplicateNames_eq_nil_iff]

end Registry

end ModelGraph
