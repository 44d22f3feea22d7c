import ModelGraph.Text.Class.Joining

/-! # Clusters

What a reader sees as one character may be written with several: a letter with its marks, or
pictures with joiners between them. Only the joins that can hold a letter, a digit or a separator
are made; the others bind characters that have no case, between which no name is cut. Main
statement: the clusters, written one after the other, are the text (`flatten_clusters`). -/

namespace ModelGraph.Text

/-- How the cluster so far ends, as far as a picture may follow. -/
inductive ClusterEnd where
  | other
  | picture
  | joinedPicture
  deriving DecidableEq, Repr

/-- The end of a cluster after one more character. -/
def ClusterEnd.next (ending : ClusterEnd) (c : Char) : ClusterEnd :=
  if isPicture c then .picture
  else if ending = .picture && c = joiner then .joinedPicture
  else if ending = .picture && isMark c then .picture
  else .other

/-- The character `b` belongs to the cluster that ends with `a`. -/
def joins (ending : ClusterEnd) (a b : Char) : Bool :=
  !isControl a && !isControl b &&
    (isMark b || b == joiner || isSpacingMark b || isPrepended a ||
      (ending == .joinedPicture && isPicture b))

/-- The rest of the cluster that ends with `a`, and the clusters after it. -/
def clustersAfter (ending : ClusterEnd) (a : Char) : List Char → List Char × List (List Char)
  | [] => ([], [])
  | b :: rest =>
      let next := if joins ending a b then ending.next b else ClusterEnd.other.next b
      let (own, others) := clustersAfter next b rest
      if joins ending a b then (b :: own, others) else ([], (b :: own) :: others)

/-- The clusters of a text. -/
def clusters : List Char → List (List Char)
  | [] => []
  | c :: rest =>
      let (own, others) := clustersAfter (ClusterEnd.other.next c) c rest
      (c :: own) :: others

theorem flatten_clustersAfter (ending : ClusterEnd) (a : Char) (text : List Char) :
    (clustersAfter ending a text).1 ++ (clustersAfter ending a text).2.flatten = text := by
  induction text generalizing ending a with
  | nil => rfl
  | cons b rest ih =>
      simp only [clustersAfter]
      split <;> simp [ih]

/-- The clusters, written one after the other, are the text. -/
theorem flatten_clusters (text : List Char) : (clusters text).flatten = text := by
  cases text with
  | nil => rfl
  | cons c rest => simp [clusters, flatten_clustersAfter]

end ModelGraph.Text
