/-! # Blank characters

The characters that separate words in a schema, and the ways of cutting text at them: trimming,
maximal runs of a class of characters, and pieces between separators. -/

namespace ModelGraph.Text

/-- The characters with the Unicode property `White_Space`. -/
def isBlank (c : Char) : Bool :=
  let n := c.toNat
  (0x09 ≤ n && n ≤ 0x0D) || n == 0x20 || n == 0x85 || n == 0xA0 || n == 0x1680 ||
    (0x2000 ≤ n && n ≤ 0x200A) || n == 0x2028 || n == 0x2029 || n == 0x202F || n == 0x205F ||
    n == 0x3000

/-- Drop the blanks before the first other character. -/
def trimStart (text : List Char) : List Char :=
  text.dropWhile isBlank

/-- Drop the blanks after the last other character. -/
def trimEnd (text : List Char) : List Char :=
  (text.reverse.dropWhile isBlank).reverse

/-- Drop the blanks at both ends. -/
def trim (text : List Char) : List Char :=
  trimEnd (trimStart text)

/-- The maximal runs of characters of the class `p`, in order. -/
def runs (p : Char → Bool) : List Char → List (List Char)
  | [] => []
  | c :: rest =>
      if p c then
        match rest, runs p rest with
        | d :: _, run :: more => if p d then (c :: run) :: more else [c] :: run :: more
        | _, found => [c] :: found
      else runs p rest

/-- The maximal runs of characters that are not blank. -/
def words (text : List Char) : List (List Char) :=
  runs (fun c => !isBlank c) text

/-- The pieces of a text between the occurrences of `separator`, empty ones included. -/
def pieces (separator : Char) : List Char → List (List Char)
  | [] => [[]]
  | c :: rest =>
      if c = separator then [] :: pieces separator rest
      else
        match pieces separator rest with
        | piece :: more => (c :: piece) :: more
        | [] => [[c]]

/-- Write texts one after the other with one space between neighbours. -/
def spaced : List (List Char) → List Char
  | [] => []
  | [text] => text
  | text :: more => text ++ ' ' :: spaced more

@[simp] theorem runs_nil (p : Char → Bool) : runs p [] = [] := rfl

/-- A character outside the class adds nothing to the runs after it. -/
theorem runs_cons_of_not {p : Char → Bool} {c : Char} (h : p c = false) (rest : List Char) :
    runs p (c :: rest) = runs p rest := by
  simp [runs, h]

@[simp] theorem spaced_nil : spaced [] = [] := rfl

@[simp] theorem spaced_singleton (text : List Char) : spaced [text] = text := rfl

end ModelGraph.Text
