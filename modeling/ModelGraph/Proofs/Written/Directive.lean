import ModelGraph.Proofs.Written.NormalForm

/-! # Erasing directives and arguments

Parentheses without parentheses inside are one span, and so is a directive with what it is applied
to. A directive that is applied to nothing is a span where no parenthesis follows it. -/

namespace ModelGraph.Written

open Text Trivia

variable {gap : Char → Bool}

/-- No parenthesis follows. -/
def Unapplied (rest : List Token) : Prop :=
  rest.head? ≠ some (.mark '(')

theorem opensAt_parenthesized : OpensAt parenthesized? '(' where
  mem_openers := by decide
  eq_none c rest hc := by simp [parenthesized?, hc]

theorem opensAt_directive : OpensAt directive? '@' where
  mem_openers := by decide
  eq_none c rest hc := by simp [directive?, hc]

theorem toParenEnd_append {text : List Char} (h : ')' ∉ text) (rest : List Char) :
    toParenEnd (text ++ ')' :: rest) = some (text.length + 1) := by
  induction text with
  | nil => rfl
  | cons c more ih =>
      simp only [List.mem_cons, not_or] at h
      rw [List.cons_append, toParenEnd, ih h.2]
      · rfl
      · rintro rfl
        exact h.1 rfl

/-- Parentheses are one span if there are none inside. -/
theorem takes_parenthesized {inner : List Token} (hinner : Unparenthesized inner)
    (rest : List Token) :
    Takes gap parenthesized? (.mark '(' :: (inner ++ [.mark ')'])) rest := by
  intro text hbegins ht
  rw [List.cons_append, List.append_assoc] at ht
  obtain ⟨afterOpen, rfl, -, -, -, hafter⟩ := ht.cons_inv_of_begins hbegins
  obtain ⟨before, after, rfl, hbefore, hafter⟩ := hafter.append_inv
  obtain ⟨blanks, left, rfl, hb, hleft⟩ := hafter.mark_inv
  have hnot : ')' ∉ before ++ blanks := by
    refine (hbefore.append_blanks hb).not_mem_text (by decide) ?_
    exact fun token htoken => (hinner token htoken).2
  have hend := toParenEnd_append hnot left
  refine ⟨(before ++ blanks).length + 1, ?_, ?_⟩
  · simp only [Token.text, List.singleton_append, parenthesized?]
    rw [← List.append_assoc, hend]
    rfl
  · have hsplit : (Token.mark '(').text ++ (before ++ (blanks ++ ')' :: left)) =
        ('(' :: (before ++ blanks ++ [')'])) ++ left := by simp [Token.text]
    have hlength : ('(' :: (before ++ blanks ++ [')'])).length =
        (before ++ blanks).length + 1 + 1 := by
      rw [List.length_cons, List.length_append]
      rfl
    rw [hsplit, List.drop_left' hlength]
    exact hleft

/-- An identifier is read up to the first character that continues none. -/
theorem identifier?_append_of_stop {name after : List Char} (h : isIdentifier name = true)
    (hstop : ∀ d ∈ after.head?, isIdentRest d = false) :
    identifier? (name ++ after) = some (name, after) := by
  cases name with
  | nil => cases h
  | cons c more =>
      simp only [isIdentifier, Bool.and_eq_true, List.all_eq_true] at h
      simp only [List.cons_append, identifier?, h.1, if_true]
      rw [takeWhile_append_eq h.2 hstop, dropWhile_append_eq h.2 hstop]

/-- An identifier is read up to the end of its token. -/
theorem identifier?_append {name after : List Char} (h : isIdentifier name = true)
    (hends : (Token.word name).Ends after) : identifier? (name ++ after) = some (name, after) :=
  identifier?_append_of_stop h fun d hd => isIdentRest_eq_false (hends d hd)

theorem drop_length_takeWhile (text : List Char) :
    text.drop (text.takeWhile isBlank).length = trimStart text := by
  have h : (text.takeWhile isBlank ++ text.dropWhile isBlank).drop
      (text.takeWhile isBlank).length = text.dropWhile isBlank := List.drop_left
  rwa [List.takeWhile_append_dropWhile] at h

theorem directive?_append_of_stop {name after : List Char} (h : isIdentifier name = true)
    (hstop : ∀ d ∈ after.head?, isIdentRest d = false) :
    directive? ('@' :: (name ++ after)) =
      some (1 + name.length +
        match parenthesized? (trimStart after) with
        | some n => (after.takeWhile isBlank).length + n
        | none => 0) := by
  cases hp : parenthesized? (trimStart after) <;>
    simp [directive?, identifier?_append_of_stop h hstop, drop_length_takeWhile, hp]

theorem directive?_append {name after : List Char} (h : isIdentifier name = true)
    (hends : (Token.word name).Ends after) :
    directive? ('@' :: (name ++ after)) =
      some (1 + name.length +
        match parenthesized? (trimStart after) with
        | some n => (after.takeWhile isBlank).length + n
        | none => 0) :=
  directive?_append_of_stop h fun d hd => isIdentRest_eq_false (hends d hd)

/-- No parenthesis opens the text of other tokens. -/
theorem parenthesized?_trimStart {rest : List Token} {text : List Char} (h : Spaced gap rest text)
    (hrest : Unapplied rest) : parenthesized? (trimStart text) = none := by
  cases rest with
  | nil =>
      rw [h.blanks_of_nil.trimStart_eq_nil]
      rfl
  | cons token more =>
      have hhead := h.head?_trimStart
      obtain ⟨-, -, -, -, hproper, hquoted, -⟩ := h.cons_inv
      cases ht : trimStart text with
      | nil => rfl
      | cons c after =>
          refine opensAt_parenthesized.eq_none c after ?_
          rintro rfl
          rw [ht] at hhead
          have hmem : '(' ∈ token.text := List.mem_of_mem_head? hhead.symm
          have hmark := Token.eq_mark_of_mem_text hproper hquoted (by decide) hmem
          exact hrest (congrArg some hmark)

theorem takes_directive (name : List Char) {rest : List Token} (hrest : Unapplied rest) :
    Takes gap directive? [.directive name] rest := by
  intro text hbegins ht
  obtain ⟨after, rfl, hproper, -, hends, hafter⟩ := ht.cons_inv_of_begins hbegins
  refine ⟨name.length, ?_, ?_⟩
  · rw [Token.text, List.cons_append, directive?_append hproper hends,
      parenthesized?_trimStart hafter hrest, Nat.add_comm 1]
    rfl
  · simpa [Token.text] using hafter

theorem takes_directive_applied (name : List Char) {inner : List Token}
    (hinner : Unparenthesized inner) (rest : List Token) :
    Takes gap directive? (.directive name :: .mark '(' :: (inner ++ [.mark ')'])) rest := by
  intro text hbegins ht
  obtain ⟨after, rfl, hproper, -, hends, hafter⟩ := ht.cons_inv_of_begins hbegins
  obtain ⟨blanks, left, rfl, hb, hleft⟩ := hafter.mark_inv
  have hopen : Begins ('(' :: left) := begins_mark (by decide) left
  obtain ⟨n, hn, hdrop⟩ := takes_parenthesized hinner rest ('(' :: left) hopen
    (hleft.mark (by decide))
  have hgap : (blanks ++ '(' :: left).takeWhile isBlank = blanks :=
    takeWhile_append_eq (fun c hc => (hb c hc).1) hopen
  refine ⟨name.length + blanks.length + n + 1, ?_, ?_⟩
  · rw [Token.text, List.cons_append, directive?_append hproper hends,
      hb.trimStart_append hopen, hn, hgap]
    simp only [Option.some.injEq]
    omega
  · have hsplit : (Token.directive name).text ++ (blanks ++ '(' :: left) =
        ('@' :: (name ++ blanks)) ++ '(' :: left := by simp [Token.text]
    have hlength : name.length + blanks.length + n + 1 + 1 =
        ('@' :: (name ++ blanks)).length + (n + 1) := by
      simp only [List.length_cons, List.length_append]
      omega
    rw [hsplit, hlength, ← List.drop_drop, List.drop_left]
    exact hdrop

/-- No parenthesis follows where directives and then none follow. -/
theorem Directives.unapplied_append {tokens rest : List Token} (h : Directives tokens)
    (hrest : Unapplied rest) : Unapplied (tokens ++ rest) := by
  cases h with
  | nil => exact hrest
  | plain | applied => exact nofun

/-- Directives are erased, however many there are. -/
theorem passes_directives : Passes gap directive? Unapplied Directives Absent := by
  intro tokens hd rest left hrest he
  refine ⟨[], rfl, ?_⟩
  induction hd with
  | nil => exact he
  | @plain name more hmore ih =>
      have hdrop : Erases gap directive? (.directive name :: ([] ++ (more ++ rest))) ([] ++ left) :=
        .drop (takes_directive name (hmore.unapplied_append hrest)) ih
      exact hdrop
  | @applied name inner more hinner _ ih =>
      have hdrop := Erases.drop (takes_directive_applied name hinner (more ++ rest)) ih
      simpa using hdrop

end ModelGraph.Written
