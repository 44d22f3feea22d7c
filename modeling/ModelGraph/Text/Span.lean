/-! # Spans

A recogniser measures the span that opens a text. Cutting a text with a recogniser walks it from
the left: where a span opens it is taken whole, elsewhere one character is kept. Main statement:
the pieces of a cut, written one after the other, are the text (`text_cut`). -/

namespace ModelGraph.Text

/-- A recogniser tells how many characters the span that opens a text has, if one opens it. -/
abbrev Recogniser := List Char → Option Nat

/-- One piece of a cut text. -/
inductive Piece where
  | kept (c : Char)
  | span (text : List Char)
  deriving DecidableEq, Repr

/-- The characters that a piece stands for. -/
def Piece.text : Piece → List Char
  | .kept c => [c]
  | .span text => text

/-- Cut a text of which the first `skip` characters belong to a span already taken. -/
def cutAfter (recognise : Recogniser) : Nat → List Char → List Piece
  | _, [] => []
  | skip + 1, _ :: rest => cutAfter recognise skip rest
  | 0, c :: rest =>
      match recognise (c :: rest) with
      | some (n + 1) => .span (c :: rest.take n) :: cutAfter recognise n rest
      | _ => .kept c :: cutAfter recognise 0 rest

/-- Cut a text into its leftmost spans and the characters between them. -/
def cut (recognise : Recogniser) (text : List Char) : List Piece :=
  cutAfter recognise 0 text

/-- The spans of a text, in order. -/
def spans (recognise : Recogniser) (text : List Char) : List (List Char) :=
  (cut recognise text).filterMap fun
    | .kept _ => none
    | .span found => some found

/-- Write one space in place of every span. -/
def blankOut (recognise : Recogniser) (text : List Char) : List Char :=
  (cut recognise text).map fun
    | .kept c => c
    | .span _ => ' '

@[simp] theorem cut_nil (recognise : Recogniser) : cut recognise [] = [] := rfl

theorem cutAfter_eq_drop (recognise : Recogniser) :
    ∀ (skip : Nat) (text : List Char), cutAfter recognise skip text = cut recognise (text.drop skip)
  | 0, _ => by simp [cut]
  | _ + 1, [] => by simp [cutAfter]
  | skip + 1, _ :: rest => by simpa [cutAfter] using cutAfter_eq_drop recognise skip rest

/-- Where a span opens it is one piece, and the cut goes on after it. -/
theorem cut_of_some {recognise : Recogniser} {c : Char} {rest : List Char} {n : Nat}
    (h : recognise (c :: rest) = some (n + 1)) :
    cut recognise (c :: rest) = .span (c :: rest.take n) :: cut recognise (rest.drop n) := by
  rw [← cutAfter_eq_drop, cut, cutAfter, h]

/-- Where no span opens the character is kept. -/
theorem cut_of_none {recognise : Recogniser} {c : Char} {rest : List Char}
    (h : recognise (c :: rest) = none) :
    cut recognise (c :: rest) = .kept c :: cut recognise rest := by
  rw [cut, cutAfter, h]
  rfl

@[simp] theorem blankOut_nil (recognise : Recogniser) : blankOut recognise [] = [] := rfl

theorem blankOut_of_some {recognise : Recogniser} {c : Char} {rest : List Char} {n : Nat}
    (h : recognise (c :: rest) = some (n + 1)) :
    blankOut recognise (c :: rest) = ' ' :: blankOut recognise (rest.drop n) := by
  rw [blankOut, cut_of_some h]
  rfl

theorem blankOut_of_none {recognise : Recogniser} {c : Char} {rest : List Char}
    (h : recognise (c :: rest) = none) :
    blankOut recognise (c :: rest) = c :: blankOut recognise rest := by
  rw [blankOut, cut_of_none h]
  rfl

@[simp] theorem spans_nil (recognise : Recogniser) : spans recognise [] = [] := rfl

theorem spans_of_some {recognise : Recogniser} {c : Char} {rest : List Char} {n : Nat}
    (h : recognise (c :: rest) = some (n + 1)) :
    spans recognise (c :: rest) = (c :: rest.take n) :: spans recognise (rest.drop n) := by
  rw [spans, cut_of_some h]
  rfl

theorem spans_of_none {recognise : Recogniser} {c : Char} {rest : List Char}
    (h : recognise (c :: rest) = none) :
    spans recognise (c :: rest) = spans recognise rest := by
  rw [spans, cut_of_none h]
  rfl

/-- Where no span opens, everything is kept. -/
theorem blankOut_append_of_none {recognise : Recogniser} {text : List Char}
    (h : ∀ c ∈ text, ∀ rest, recognise (c :: rest) = none) (rest : List Char) :
    blankOut recognise (text ++ rest) = text ++ blankOut recognise rest := by
  induction text with
  | nil => rfl
  | cons c more ih =>
      rw [List.cons_append, blankOut_of_none (h c (by simp) _),
        ih fun d hd => h d (List.mem_cons_of_mem c hd)]
      rfl

/-- A text begins, after blanking out, as before or with a space. -/
theorem head?_blankOut (recognise : Recogniser) (text : List Char) {c : Char}
    (h : c ∈ (blankOut recognise text).head?) : c = ' ' ∨ c ∈ text.head? := by
  cases text with
  | nil => cases h
  | cons d rest =>
      simp only [blankOut, cut, cutAfter] at h
      split at h
      · exact .inl (Option.some.inj h).symm
      · exact .inr h

/-- The pieces of a cut, written one after the other, are the text. -/
theorem text_cut (recognise : Recogniser) (text : List Char) :
    (cut recognise text).flatMap Piece.text = text := by
  suffices h : ∀ (skip : Nat) (text : List Char),
      (cutAfter recognise skip text).flatMap Piece.text = text.drop skip from h 0 text
  intro skip text
  induction text generalizing skip with
  | nil => cases skip <;> simp [cutAfter]
  | cons c rest ih =>
      cases skip with
      | succ skip => simpa [cutAfter] using ih skip
      | zero =>
          simp only [cutAfter]
          split <;> simp [Piece.text, ih]

end ModelGraph.Text
