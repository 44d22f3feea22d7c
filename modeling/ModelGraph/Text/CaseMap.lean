import ModelGraph.Text.CaseMap.Runs
import ModelGraph.Text.Class.Cased

/-! # Full case mapping

The upper-case and lower-case spelling of characters and texts. A letter may be spelled with
several in the other case, and a sigma is spelled by its place in the word. -/

namespace ModelGraph.Text

/-- The upper-case spelling of a character. -/
def upper (c : Char) : List Char :=
  if c.toNat < 128 then [c.toUpper]
  else
    match upperSpellings.lookup c.toNat with
    | some spelling => spelling.map Char.ofNat
    | none => [((upperRuns.findSome? (·.partner? c.toNat)).map Char.ofNat).getD c]

/-- The lower-case spelling of a character that stands alone. -/
def lower (c : Char) : List Char :=
  if c.toNat < 128 then [c.toLower]
  else if c = 'İ' then ['i', '\u0307']
  else [((lowerRuns.findSome? (·.partner? c.toNat)).map Char.ofNat).getD c]

/-- The upper-case spelling of a text. -/
def upperText (text : List Char) : List Char :=
  text.flatMap upper

/-- The first character that does not merely stand inside a word belongs to one. -/
def opensWithCased (text : List Char) : Bool :=
  ((text.dropWhile isCaseIgnorable).head?.map isCased).getD false

/-- The lower-case spelling of a text that follows `before`, written backwards. A sigma that ends a
word has a form of its own. -/
def lowerAfter (before : List Char) : List Char → List Char
  | [] => []
  | c :: rest =>
      let spelling :=
        if c = 'Σ' then
          [if opensWithCased before && !opensWithCased rest then 'ς' else 'σ']
        else lower c
      spelling ++ lowerAfter (c :: before) rest

/-- The lower-case spelling of a text. -/
def lowerText (text : List Char) : List Char :=
  lowerAfter [] text

/-- The first character in upper case and the rest in lower case. -/
def capitalized : List Char → List Char
  | [] => []
  | c :: rest => upper c ++ lowerText rest

@[simp] theorem upperText_nil : upperText [] = [] := rfl

@[simp] theorem lowerText_nil : lowerText [] = [] := rfl

@[simp] theorem capitalized_nil : capitalized [] = [] := rfl

theorem upper_of_ascii {c : Char} (h : c.toNat < 128) : upper c = [c.toUpper] := by
  simp [upper, h]

theorem lower_of_ascii {c : Char} (h : c.toNat < 128) : lower c = [c.toLower] := by
  simp [lower, h]

/-- In ASCII, lower case is taken character by character. -/
theorem lowerAfter_of_ascii {text : List Char} (h : ∀ c ∈ text, c.toNat < 128)
    (before : List Char) : lowerAfter before text = text.map Char.toLower := by
  induction text generalizing before with
  | nil => rfl
  | cons c rest ih =>
      have hc : c.toNat < 128 := h c (by simp)
      have hs : c ≠ 'Σ' := by
        rintro rfl
        exact absurd hc (by decide)
      simp [lowerAfter, hs, lower_of_ascii hc, ih fun d hd => h d (by simp [hd])]

end ModelGraph.Text
