/-! # Positions in a text

A reader that keeps positions passes over the characters of a class one by one. It stops where the
longest front of the class ends (`skipWhile_eq`). -/

namespace ModelGraph.Text

/-- The position of the first character that is not in the class, from a position on. -/
def skipWhile (p : Char → Bool) (text : List Char) (index : Nat) : Nat :=
  if h : index < text.length then
    if p text[index] then skipWhile p text (index + 1) else index
  else index
termination_by text.length - index

variable (p : Char → Bool) (text : List Char) (index : Nat)

theorem skipWhile_eq :
    skipWhile p text index = index + ((text.drop index).takeWhile p).length := by
  fun_induction skipWhile p text index with
  | case1 index h hp ih =>
      rw [ih, List.drop_eq_getElem_cons h, List.takeWhile_cons_of_pos hp, List.length_cons]
      omega
  | case2 index h hp =>
      rw [List.drop_eq_getElem_cons h, List.takeWhile_cons_of_neg hp]
      rfl
  | case3 index h =>
      rw [List.drop_eq_nil_of_le (by omega)]
      rfl

theorem drop_skipWhile : text.drop (skipWhile p text index) = (text.drop index).dropWhile p := by
  have hsplit := List.takeWhile_append_dropWhile (p := p) (l := text.drop index)
  have hdrop := congrArg (List.drop ((text.drop index).takeWhile p).length) hsplit
  rwa [List.drop_left, List.drop_drop, ← skipWhile_eq, eq_comm] at hdrop

theorem le_skipWhile : index ≤ skipWhile p text index := by
  rw [skipWhile_eq]
  exact Nat.le_add_right _ _

variable {p text index}

theorem lt_skipWhile (h : index < text.length) (hp : p text[index] = true) :
    index < skipWhile p text index ∧ skipWhile p text index ≤ text.length := by
  have hle := (List.takeWhile_prefix p (l := text.drop (index + 1))).length_le
  rw [List.length_drop] at hle
  rw [skipWhile_eq, List.drop_eq_getElem_cons h, List.takeWhile_cons_of_pos hp, List.length_cons]
  omega

end ModelGraph.Text
