import ModelGraph.Text.Blank

/-! # Type expressions

The type of a field as it is written: a name in any number of lists, each with or without an
exclamation mark. Only the outermost mark says something about the model. -/

namespace ModelGraph

open Text

/-- A name in zero or more lists. -/
inductive TypeExpr where
  | named (name : String)
  | list (inner : TypeExpr)
  deriving DecidableEq, Repr

namespace TypeExpr

/-- The name inside all lists. -/
def innermost : TypeExpr → String
  | named name => name
  | list inner => inner.innermost

/-- Take a last character off a text that ends with it. -/
def dropLast? (c : Char) (text : List Char) : Option (List Char) :=
  if text.getLast? = some c then some text.dropLast else none

theorem length_dropLast? {c : Char} {text rest : List Char} (h : dropLast? c text = some rest) :
    rest.length ≤ text.length := by
  simp only [dropLast?] at h
  split at h
  · cases h; simp
  · cases h

theorem length_trimEnd_le (text : List Char) : (trimEnd text).length ≤ text.length := by
  simpa [trimEnd] using (List.dropWhile_sublist isBlank (l := text.reverse)).length_le

theorem length_trim_le (text : List Char) : (trim text).length ≤ text.length :=
  Nat.le_trans (length_trimEnd_le _) (List.dropWhile_sublist isBlank).length_le

/-- Take the exclamation mark off the end of a type, and tell whether there was one. -/
def unmarked (text : List Char) : List Char × Bool :=
  match dropLast? '!' (trim text) with
  | some rest => (trimEnd rest, true)
  | none => (trim text, false)

theorem length_unmarked_le (text : List Char) : (unmarked text).1.length ≤ text.length := by
  simp only [unmarked]
  split
  · next h =>
    exact Nat.le_trans (length_trimEnd_le _)
      (Nat.le_trans (length_dropLast? h) (length_trim_le text))
  · exact length_trim_le text

/-- Read a type, and tell whether it is marked at the outside. Brackets have to pair from the
outside in; what is left inside them is the name. -/
def read? (text : List Char) : Option (TypeExpr × Bool) :=
  match h : (unmarked text).1 with
  | [] => none
  | c :: rest =>
      if c = '[' then
        match h' : dropLast? ']' rest with
        | some inner =>
            have : inner.length < text.length := by
              have h1 := length_unmarked_le text
              have h2 := length_dropLast? h'
              rw [h, List.length_cons] at h1
              omega
            (read? inner).map fun (type, _) => (list type, (unmarked text).2)
        | none => none
      else some (named (String.ofList (c :: rest)), (unmarked text).2)
termination_by text.length

end TypeExpr

end ModelGraph
