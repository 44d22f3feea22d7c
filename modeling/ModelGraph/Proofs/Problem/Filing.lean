import Mathlib.Data.List.Sort
import ModelGraph.Proofs.Problem.Route

/-! # Filing messages

A tree is filled by filing messages at the root or under a name, and by merging trees that were
filled in the same way. Whatever is filed, the tree has each message once, under the route that it
was filed under and in the order of filing, and keeps no empty branch (`messagesAt_ofFilings`,
`sound_ofFilings`). Such trees are the same as soon as they have the same messages under each route
(`Sound.ext`), so it does not matter in which order two names get their trees. -/

namespace ModelGraph

/-- Entries in the order of their names are told by which they are. -/
theorem Keyed.Ordered.ext {α : Type} {entries others : Keyed α} (h : entries.Ordered)
    (h' : others.Ordered) (hget : ∀ name, entries.get? name = others.get? name) :
    entries = others := by
  have hmem : ∀ entry, entry ∈ entries ↔ entry ∈ others := by
    rintro ⟨name, value⟩
    rw [h.mem_iff, h'.mem_iff, hget]
  have horder := List.pairwise_map.1 h
  have horder' := List.pairwise_map.1 h'
  have hne : ∀ {entry other : String × α}, entry.1 < other.1 → entry ≠ other := by
    rintro entry _ hlt rfl
    exact String.lt_irrefl _ hlt
  have hperm := (List.perm_ext_iff_of_nodup (horder.imp hne) (horder'.imp hne)).2 hmem
  exact hperm.eq_of_pairwise (fun _ _ _ _ hlt hgt => absurd hgt (String.lt_asymm hlt)) horder
    horder'

namespace ProblemTree

/-- One way to file messages: at the root, under a name, or all those of another tree under a
name. -/
inductive Filing where
  | add (message : String)
  | addFor (name message : String)
  | mergeFor (name : String) (filings : List Filing)

mutual

/-- The tree after messages were filed. -/
def Filing.file (tree : ProblemTree) : Filing → ProblemTree
  | .add message => tree.add message
  | .addFor name message => tree.addFor name message
  | .mergeFor name filings => tree.mergeFor name (fileAll empty filings)

/-- The tree after messages were filed one filing after the other. -/
def fileAll (tree : ProblemTree) : List Filing → ProblemTree
  | [] => tree
  | filing :: rest => fileAll (filing.file tree) rest

end

/-- The tree that has what was filed, and nothing else. -/
def ofFilings (filings : List Filing) : ProblemTree :=
  fileAll empty filings

/-- A message with the route that it is filed under. -/
abbrev Entry := List String × String

mutual

/-- The messages of a filing, in order. -/
def Filing.entries : Filing → List Entry
  | .add message => [([], message)]
  | .addFor name message => [([name], message)]
  | .mergeFor name filings =>
      (entriesOf filings).map fun (route, message) => (name :: route, message)

/-- The messages of filings, in order. -/
def entriesOf : List Filing → List Entry
  | [] => []
  | filing :: rest => filing.entries ++ entriesOf rest

end

/-- The messages among the entries of a route, in order. -/
def entriesAt (entries : List Entry) (route : List String) : List String :=
  (entries.filter (·.1 = route)).map Prod.snd

/-- The tree has the messages of the entries, each under its route, and tells whether there are
any. -/
structure Holds (tree : ProblemTree) (entries : List Entry) : Prop where
  /-- No branch is empty, at any depth. -/
  sound : tree.Sound
  messagesAt : ∀ route, tree.messagesAt route = entriesAt entries route
  count : tree.count = entries.length
  flatten : tree.flatten.length = entries.length
  isEmpty_iff : tree.isEmpty = true ↔ tree.count = 0
  flatten_iff : tree.flatten = [] ↔ tree.count = 0
  verdict_iff : tree.verdict = .ok () ↔ tree.count = 0

section Flatten

mutual

theorem length_flattenAt : ∀ (base : String) (tree : ProblemTree),
    (flattenAt base tree).length = tree.count
  | base, node messages branches => by
      rw [flattenAt, List.length_append, List.length_map, length_flattenAll, count]

theorem length_flattenAll : ∀ (base : String) (branches : List (String × ProblemTree)),
    (flattenAll base branches).length = countAll branches
  | base, [] => rfl
  | base, (name, tree) :: rest => by
      rw [flattenAll, List.length_append, length_flattenAt, length_flattenAll, countAll]

end

/-- A flattened tree has each message once. -/
theorem length_flatten (tree : ProblemTree) : tree.flatten.length = tree.count :=
  length_flattenAt "" tree

end Flatten

section Entries

variable (entries more : List Entry)

@[simp] theorem entriesAt_nil (route : List String) : entriesAt [] route = [] := rfl

theorem entriesAt_append (route : List String) :
    entriesAt (entries ++ more) route = entriesAt entries route ++ entriesAt more route := by
  rw [entriesAt, List.filter_append, List.map_append]
  rfl

theorem entriesAt_singleton (route : List String) (entry : Entry) :
    entriesAt [entry] route = if route = entry.1 then [entry.2] else [] := by
  by_cases h : entry.1 = route
  · simp [entriesAt, h]
  · simp [entriesAt, h, Ne.symm h]

/-- Below a name are the messages that were filed there. -/
theorem entriesAt_below (name : String) (route : List String) :
    entriesAt (entries.map fun (route, message) => (name :: route, message)) route =
      match route with
      | [] => []
      | first :: rest => if first = name then entriesAt entries rest else [] := by
  cases route with
  | nil =>
      simp only [entriesAt, List.map_eq_nil_iff, List.filter_eq_nil_iff]
      rintro _ hentry
      obtain ⟨entry, -, rfl⟩ := List.mem_map.1 hentry
      simp
  | cons first rest =>
      simp only [entriesAt, List.filter_map, List.map_map]
      by_cases hfirst : first = name
      · subst hfirst
        simp [Function.comp_def]
      · simp [Function.comp_def, Ne.symm hfirst, hfirst]

end Entries

section Filings

mutual

theorem Filing.sound_file : ∀ (filing : Filing) {tree : ProblemTree}, tree.Sound →
    (filing.file tree).Sound
  | .add message, _, h => h.addAll [message]
  | .addFor name message, _, h => h.addFor name message
  | .mergeFor name filings, _, h => h.mergeFor (sound_fileAll filings .empty) name

/-- Filing keeps a tree sound. -/
theorem sound_fileAll : ∀ (filings : List Filing) {tree : ProblemTree}, tree.Sound →
    (fileAll tree filings).Sound
  | [], _, h => h
  | filing :: rest, _, h => sound_fileAll rest (filing.sound_file h)

end

theorem sound_ofFilings (filings : List Filing) : (ofFilings filings).Sound :=
  sound_fileAll filings .empty

mutual

theorem Filing.messagesAt_file : ∀ (filing : Filing) {tree : ProblemTree}, tree.Sound →
    ∀ route, (filing.file tree).messagesAt route =
      tree.messagesAt route ++ entriesAt filing.entries route
  | .add message, tree, _, route => by
      rw [Filing.file, Filing.entries, entriesAt_singleton, add, messagesAt_addAll]
  | .addFor name message, tree, h, route => by
      rw [Filing.file, Filing.entries, entriesAt_singleton, messagesAt_addFor h]
  | .mergeFor name filings, tree, h, route => by
      rw [Filing.file, Filing.entries, messagesAt_mergeFor h (sound_fileAll filings .empty),
        entriesAt_below]
      cases route with
      | nil => rw [messagesAt_under_nil]
      | cons first rest =>
          rw [messagesAt_under_cons, messagesAt_fileAll filings .empty, messagesAt_empty,
            List.nil_append]

/-- Filing adds each message under its route, behind those that are there. -/
theorem messagesAt_fileAll : ∀ (filings : List Filing) {tree : ProblemTree}, tree.Sound →
    ∀ route, (fileAll tree filings).messagesAt route =
      tree.messagesAt route ++ entriesAt (entriesOf filings) route
  | [], tree, _, route => by
      rw [fileAll, entriesOf, entriesAt_nil, List.append_nil]
  | filing :: rest, tree, h, route => by
      rw [fileAll, messagesAt_fileAll rest (filing.sound_file h), filing.messagesAt_file h,
        entriesOf, entriesAt_append, List.append_assoc]

end

theorem messagesAt_ofFilings (filings : List Filing) (route : List String) :
    (ofFilings filings).messagesAt route = entriesAt (entriesOf filings) route := by
  rw [ofFilings, messagesAt_fileAll filings .empty, messagesAt_empty, List.nil_append]

mutual

theorem Filing.count_file : ∀ (filing : Filing) (tree : ProblemTree),
    (filing.file tree).count = tree.count + filing.entries.length
  | .add message, tree => tree.count_addAll [message]
  | .addFor name message, tree => tree.count_addFor name message
  | .mergeFor name filings, tree => by
      rw [Filing.file, Filing.entries, count_mergeFor, count_fileAll, count_empty, Nat.zero_add,
        List.length_map]

/-- Filing adds as many messages as are filed. -/
theorem count_fileAll : ∀ (filings : List Filing) (tree : ProblemTree),
    (fileAll tree filings).count = tree.count + (entriesOf filings).length
  | [], tree => rfl
  | filing :: rest, tree => by
      rw [fileAll, count_fileAll rest, filing.count_file, entriesOf, List.length_append,
        Nat.add_assoc]

end

theorem count_ofFilings (filings : List Filing) :
    (ofFilings filings).count = (entriesOf filings).length := by
  rw [ofFilings, count_fileAll, count_empty, Nat.zero_add]

end Filings

section Ext

variable {tree other : ProblemTree}

/-- A sound tree with no message under any route is empty. -/
theorem Sound.isEmpty_of_messagesAt (h : tree.Sound) (hnone : ∀ route, tree.messagesAt route = []) :
    tree.isEmpty = true := by
  rw [isEmpty_iff_count, ← length_flatten, flatten_eq h]
  simp [hnone]

theorem branch_of_get? {name : String} {found : ProblemTree}
    (hfound : tree.branches.get? name = some found) : tree.branch name = found := by
  rw [branch, hfound, Option.getD_some]

/-- There is no branch of a name exactly if no message is filed below it. -/
theorem Sound.get?_eq_none_iff (h : tree.Sound) {name : String} :
    tree.branches.get? name = none ↔ ∀ route, (tree.branch name).messagesAt route = [] := by
  constructor
  · intro hnone route
    rw [ProblemTree.branch, hnone, Option.getD_none, messagesAt_empty]
  · intro hnone
    have hempty := (h.branch name).isEmpty_of_messagesAt hnone
    cases hfound : tree.branches.get? name with
    | none => rfl
    | some found =>
        have hmem := h.ordered.mem_iff.2 hfound
        obtain ⟨-, hfilled, -⟩ := h
        rw [branch_of_get? hfound, hfilled _ hmem] at hempty
        cases hempty

/-- Sound trees with the same messages under each route are the same. The induction is on the first
tree: a branch of it has the same messages as the branch of that name in the other tree. -/
theorem Sound.ext (h : tree.Sound) (h' : other.Sound)
    (heq : ∀ route, tree.messagesAt route = other.messagesAt route) : tree = other := by
  induction h generalizing other with
  | @node messages branches hordered hfilled hsound ih =>
      obtain ⟨messages', branches'⟩ := other
      obtain rfl : messages = messages' := heq []
      have hnode : (ProblemTree.node messages branches).Sound := .node hordered hfilled hsound
      have hordered' : Keyed.Ordered branches' := h'.ordered
      suffices hget : ∀ name, Keyed.get? branches name = Keyed.get? branches' name by
        rw [hordered.ext hordered' hget]
      intro name
      have hbelow : ∀ route, ((ProblemTree.node messages branches).branch name).messagesAt route =
          ((ProblemTree.node messages branches').branch name).messagesAt route :=
        fun route => heq (name :: route)
      have hnone : branches.get? name = none ↔ Keyed.get? branches' name = none := by
        refine hnode.get?_eq_none_iff.trans (Iff.trans ?_ h'.get?_eq_none_iff.symm)
        simp only [hbelow]
      cases hfound : branches.get? name with
      | none => rw [hnone.1 hfound]
      | some found =>
          cases hfound' : Keyed.get? branches' name with
          | none =>
              rw [hnone.2 hfound'] at hfound
              cases hfound
          | some found' =>
              have hbranch : (ProblemTree.node messages branches).branch name = found :=
                branch_of_get? hfound
              have hbranch' : (ProblemTree.node messages branches').branch name = found' :=
                branch_of_get? hfound'
              have hsound' := h'.branch name
              rw [hbranch'] at hsound'
              rw [hbranch, hbranch'] at hbelow
              have hsame : found = found' :=
                ih (name, found) (hordered.mem_iff.2 hfound) hsound' hbelow
              rw [hsame]

/-- Trees merged under two names may be merged in either order. -/
theorem Sound.mergeFor_comm {tree first second : ProblemTree} (h : tree.Sound)
    (hfirst : first.Sound) (hsecond : second.Sound) {name other : String} (hne : name ≠ other) :
    (tree.mergeFor name first).mergeFor other second =
      (tree.mergeFor other second).mergeFor name first := by
  have honce := h.mergeFor hfirst name
  have hother := h.mergeFor hsecond other
  refine (honce.mergeFor hsecond other).ext (hother.mergeFor hfirst name) fun route => ?_
  rw [messagesAt_mergeFor honce hsecond, messagesAt_mergeFor hother hfirst,
    messagesAt_mergeFor h hfirst, messagesAt_mergeFor h hsecond, List.append_assoc,
    List.append_assoc]
  congr 1
  -- a route begins with one name, so at least one of the two trees has nothing under it
  cases route with
  | nil => rfl
  | cons key rest =>
      rw [messagesAt_under_cons, messagesAt_under_cons]
      by_cases hkey : key = name
      · subst hkey
        simp [hne]
      · simp [hkey]

end Ext

theorem holds_ofFilings (filings : List Filing) :
    (ofFilings filings).Holds (entriesOf filings) where
  sound := sound_ofFilings filings
  messagesAt := messagesAt_ofFilings filings
  count := count_ofFilings filings
  flatten := by rw [length_flatten, count_ofFilings]
  isEmpty_iff := isEmpty_iff_count _
  flatten_iff := by rw [← length_flatten, List.length_eq_zero_iff]
  verdict_iff := verdict_eq_ok_iff

/-- A tree that is filled by filing has what was filed, each message once and in order. Merging a
tree under a name adds its messages below that name, behind those that are there, and leaves all
other routes as they are; so trees may be merged under two names in either order. -/
theorem conserves_ofFilings (filings : List Filing) :
    (ofFilings filings).Holds (entriesOf filings) ∧
      ∀ (name : String) (merged : List Filing),
        (∀ route,
          ((ofFilings filings).mergeFor name (ofFilings merged)).messagesAt (name :: route) =
            (ofFilings filings).messagesAt (name :: route) ++
              (ofFilings merged).messagesAt route) ∧
        (∀ route, route.head? ≠ some name →
          ((ofFilings filings).mergeFor name (ofFilings merged)).messagesAt route =
            (ofFilings filings).messagesAt route) ∧
        ∀ (other : String) (last : List Filing), name ≠ other →
          ((ofFilings filings).mergeFor name (ofFilings merged)).mergeFor other (ofFilings last) =
            ((ofFilings filings).mergeFor other (ofFilings last)).mergeFor name
              (ofFilings merged) := by
  have hsound := sound_ofFilings filings
  refine ⟨holds_ofFilings filings, fun name merged => ⟨fun route => ?_, fun route hroute => ?_,
    fun other last hne => ?_⟩⟩
  · rw [messagesAt_mergeFor hsound (sound_ofFilings merged), messagesAt_under_cons, if_pos rfl]
  · rw [messagesAt_mergeFor hsound (sound_ofFilings merged)]
    cases route with
    | nil => rw [messagesAt_under_nil, List.append_nil]
    | cons first rest =>
        have hfirst : first ≠ name := fun heq => hroute (congrArg some heq)
        rw [messagesAt_under_cons, if_neg hfirst, List.append_nil]
  · exact hsound.mergeFor_comm (sound_ofFilings merged) (sound_ofFilings last) hne

/-- A tree with messages at the root and on two levels, and two more to be merged: one with an empty
tree in it, and one under the empty name. -/
theorem conserves_ofFilings_merged :
    ∃ tree first second : ProblemTree,
      tree = ofFilings [.addFor "B" "1", .add "2", .mergeFor "A" [.addFor "x" "3"]] ∧
        first = ofFilings [.mergeFor "x" [.add "4", .mergeFor "y" []], .add "5"] ∧
        second = ofFilings [.addFor "A" "6"] ∧
        tree.count = 3 ∧
        (tree.mergeFor "A" first).messagesAt ["A", "x"] = ["3", "4"] ∧
        (tree.mergeFor "A" first).messagesAt ["B"] = ["1"] ∧
        (tree.mergeFor "A" first).mergeFor "" second =
          (tree.mergeFor "" second).mergeFor "A" first ∧
        ((tree.mergeFor "A" first).mergeFor "" second).flatten =
          [("", "2"), ("A", "6"), ("A", "5"), ("A.x", "3"), ("A.x", "4"), ("B", "1")] := by
  obtain ⟨hholds, hmerge⟩ :=
    conserves_ofFilings [.addFor "B" "1", .add "2", .mergeFor "A" [.addFor "x" "3"]]
  obtain ⟨hbelow, hrest, hcomm⟩ :=
    hmerge "A" [.mergeFor "x" [.add "4", .mergeFor "y" []], .add "5"]
  refine ⟨_, _, _, rfl, rfl, rfl, hholds.count, (hbelow ["x"]).trans (by decide +kernel), ?_,
    hcomm "" [.addFor "A" "6"] (by decide), by decide +kernel⟩
  exact (hrest ["B"] (by decide)).trans (by decide +kernel)

end ProblemTree

end ModelGraph
