/-! # Identifiers

The names that a schema may declare: an ASCII letter or an underscore, then letters, digits and
underscores. -/

namespace ModelGraph.Text

/-- The characters that open an identifier. -/
def isIdentStart (c : Char) : Bool :=
  c.isAlpha || c == '_'

/-- The characters that continue an identifier. -/
def isIdentRest (c : Char) : Bool :=
  c.isAlphanum || c == '_'

/-- A whole text is an identifier. -/
def isIdentifier : List Char → Bool
  | [] => false
  | c :: rest => isIdentStart c && rest.all isIdentRest

/-- The longest identifier that opens a text, with the text after it. -/
def identifier? : List Char → Option (List Char × List Char)
  | [] => none
  | c :: rest =>
      if isIdentStart c then some (c :: rest.takeWhile isIdentRest, rest.dropWhile isIdentRest)
      else none

/-- Whatever opens an identifier also continues one. -/
theorem isIdentRest_of_isIdentStart {c : Char} (h : isIdentStart c = true) :
    isIdentRest c = true := by
  simp only [isIdentStart, isIdentRest, Char.isAlphanum, Bool.or_eq_true] at h ⊢
  rcases h with h | h
  · exact .inl (.inl h)
  · exact .inr h

/-- Identifiers are written in ASCII. -/
theorem toNat_lt_of_isIdentRest {c : Char} (h : isIdentRest c = true) : c.toNat < 128 := by
  have hupper : c.isUpper = true → c.toNat ≤ 90 := fun h => (of_decide_eq_true h).2
  have hlower : c.isLower = true → c.toNat ≤ 122 :=
    fun h => of_decide_eq_true (Bool.and_eq_true_iff.1 h).2
  have hdigit : c.isDigit = true → c.toNat ≤ 57 :=
    fun h => of_decide_eq_true (Bool.and_eq_true_iff.1 h).2
  rcases Bool.or_eq_true_iff.1 h with h | h
  · rcases Bool.or_eq_true_iff.1 h with h | h
    · rcases Bool.or_eq_true_iff.1 h with h | h
      · exact Nat.lt_of_le_of_lt (hupper h) (by decide)
      · exact Nat.lt_of_le_of_lt (hlower h) (by decide)
    · exact Nat.lt_of_le_of_lt (hdigit h) (by decide)
  · rw [eq_of_beq h]
    decide

/-- Reading an identifier loses nothing. -/
theorem append_of_identifier? {text name rest : List Char}
    (h : identifier? text = some (name, rest)) : name ++ rest = text := by
  cases text with
  | nil => simp [identifier?] at h
  | cons c cs =>
      simp only [identifier?] at h
      split at h
      · simp only [Option.some.injEq, Prod.mk.injEq] at h
        obtain ⟨rfl, rfl⟩ := h
        simp [List.takeWhile_append_dropWhile]
      · simp at h

/-- What is read as an identifier is one. -/
theorem isIdentifier_of_identifier? {text name rest : List Char}
    (h : identifier? text = some (name, rest)) : isIdentifier name = true := by
  cases text with
  | nil => simp [identifier?] at h
  | cons c cs =>
      simp only [identifier?] at h
      split at h
      · next hc =>
        simp only [Option.some.injEq, Prod.mk.injEq] at h
        obtain ⟨rfl, -⟩ := h
        simp [isIdentifier, hc, List.all_takeWhile]
      · simp at h

end ModelGraph.Text
