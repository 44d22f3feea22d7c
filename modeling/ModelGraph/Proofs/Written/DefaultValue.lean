import ModelGraph.Proofs.Written.NormalForm

/-! # Erasing default values

A default value is one span with its equals sign, whatever it is: brackets up to the one that closes
them, a word, or nothing if it was a string. In the last case the span stops before the next field,
which is known by the colon after its first word. -/

namespace ModelGraph.Written

open Text DefaultValue

/-- The default values that are left without their strings. -/
inductive BareDefault : List Token → Prop
  | none : BareDefault []
  | some {value : List Token} (h : ValueTokens .value value) :
      BareDefault (.mark '=' :: bare value)

/-- What may follow a default value: nothing, a comma, the end of the arguments, or a field. -/
inductive AfterDefault : List Token → Prop
  | nil : AfterDefault []
  | comma (more : List Token) : AfterDefault (.mark ',' :: more)
  | close (more : List Token) : AfterDefault (.mark ')' :: more)
  | field (name : List Char) (more : List Token) : AfterDefault (.word name :: .mark ':' :: more)

theorem opensAt_default : OpensAt default? '=' where
  mem_openers := by decide
  eq_none c rest hc := by simp [default?, hc]

section Brackets

/-- The brackets of values. -/
def brackets : List Char :=
  ['\x7b', '[', '\x7d', ']']

theorem mem_marks_of_mem_brackets {c : Char} (h : c ∈ brackets) : c ∈ marks := by
  have hall : brackets.all (fun c => marks.contains c) = true := by decide
  simpa using List.all_eq_true.1 hall c h

theorem bracketedLength_append {text : List Char} (h : ∀ c ∈ text, c ∉ brackets) (depth : Nat)
    (rest : List Char) :
    bracketedLength depth (text ++ rest) = text.length + bracketedLength depth rest := by
  induction text with
  | nil => simp
  | cons c more ih =>
      have hc : c ≠ '\x7b' ∧ c ≠ '[' ∧ c ≠ '\x7d' ∧ c ≠ ']' := by simpa [brackets] using h c
      rw [List.cons_append, bracketedLength, ih fun d hd => h d (List.mem_cons_of_mem c hd)]
      simp [hc]
      omega

theorem bracketedLength_open {c : Char} (h : c = '\x7b' ∨ c = '[') (depth : Nat)
    (rest : List Char) :
    bracketedLength depth (c :: rest) = bracketedLength (depth + 1) rest + 1 := by
  rcases h with rfl | rfl <;> rfl

theorem bracketedLength_close {c : Char} (h : c = '\x7d' ∨ c = ']') (depth : Nat)
    (rest : List Char) :
    bracketedLength depth (c :: rest) =
      if depth ≤ 1 then 1 else bracketedLength (depth - 1) rest + 1 := by
  rcases h with rfl | rfl <;> rfl

/-- Inside brackets the tokens close as many as they open, at every depth. -/
def Level (tokens : List Token) : Prop :=
  ∀ text, Spaced isSpace tokens text → ∀ depth rest, 0 < depth →
    bracketedLength depth (text ++ rest) = text.length + bracketedLength depth rest

namespace Level

theorem append {first second : List Token} (hfirst : Level first) (hsecond : Level second) :
    Level (first ++ second) := by
  intro text ht depth rest hdepth
  obtain ⟨before, after, rfl, hbefore, hafter⟩ := ht.append_inv
  rw [List.append_assoc, hfirst before hbefore depth _ hdepth,
    hsecond after hafter depth rest hdepth, List.length_append]
  omega

theorem of_not_mem_brackets {tokens : List Token}
    (h : ∀ c ∈ brackets, ∀ token ∈ tokens, token ≠ .mark c) : Level tokens := by
  intro text ht depth rest _
  refine bracketedLength_append (fun c hc hbracket => ?_) depth rest
  exact ht.not_mem_text (mem_marks_of_mem_brackets hbracket) (h c hbracket) hc

theorem nil : Level [] :=
  of_not_mem_brackets fun _ _ _ ht => nomatch ht

theorem word (text : List Char) : Level [.word text] := by
  refine of_not_mem_brackets fun c _ token ht => ?_
  rw [List.mem_singleton.1 ht]
  exact fun h => nomatch h

theorem mark {c : Char} (hc : c ∉ brackets) : Level [.mark c] := by
  refine of_not_mem_brackets fun d hd token ht => ?_
  rw [List.mem_singleton.1 ht]
  rintro ⟨⟩
  exact hc hd

theorem bracketed {first last : Char} {inner : List Token} (hfirst : first = '\x7b' ∨ first = '[')
    (hlast : last = '\x7d' ∨ last = ']') (hinner : Level inner) :
    Level (.mark first :: (inner ++ [.mark last])) := by
  intro text ht depth rest hdepth
  obtain ⟨blanks, after, rfl, hb, hafter⟩ := ht.mark_inv
  obtain ⟨before, trailing, rfl, hbefore, ht⟩ := hafter.concat_mark_inv
  have hblank : ∀ {blanks : List Char}, Blanks isSpace blanks → ∀ c ∈ blanks, c ∉ brackets := by
    intro blanks hb c hc hbracket
    have hblank := (hb c hc).1
    rw [isBlank_of_mem_marks (mem_marks_of_mem_brackets hbracket)] at hblank
    cases hblank
  have hdeep : ¬ depth + 1 ≤ 1 := by omega
  have hinside := hinner before hbefore (depth + 1) (last :: (trailing ++ rest))
    (Nat.succ_pos depth)
  rw [bracketedLength_close hlast, if_neg hdeep, Nat.add_sub_cancel,
    bracketedLength_append (hblank ht)] at hinside
  simp only [List.append_assoc, List.cons_append]
  rw [bracketedLength_append (hblank hb), bracketedLength_open hfirst, hinside]
  simp only [List.length_append, List.length_cons]
  omega

end Level

/-- Values and their entries are level, whatever strings they have. -/
theorem ValueTokens.level {phrase : Phrase} {tokens : List Token} (h : ValueTokens phrase tokens) :
    Level (bare tokens) := by
  induction h with
  | word => exact Level.word _
  | quoted | noEntries | noMembers => exact Level.nil
  | list _ ih =>
      rw [bare_mark, bare_append]
      exact Level.bracketed (.inr rfl) (.inr rfl) ih
  | object _ ih =>
      rw [bare_mark, bare_append]
      exact Level.bracketed (.inl rfl) (.inl rfl) ih
  | entriesComma _ ih | membersComma _ ih => exact (Level.mark (by decide)).append ih
  | entry _ _ ihv ih =>
      rw [bare_append]
      exact ihv.append ih
  | member _ _ _ ihv ih =>
      rw [bare_word, bare_mark, bare_append]
      exact (Level.word _).append ((Level.mark (by decide)).append (ihv.append ih))

end Brackets

section Length

theorem isTokenChar_of_isWordChar {c : Char} (h : isWordChar c = true) :
    isTokenChar c = true := by
  have hspace : isAsciiSpace c = false := by
    refine Bool.eq_false_iff.2 fun hspace => ?_
    simp only [isAsciiSpace, Bool.or_eq_true, beq_iff_eq] at hspace
    rcases hspace with (((rfl | rfl) | rfl) | rfl) | rfl <;> exact absurd h (by decide)
  have hmarks : c ≠ ',' ∧ c ≠ ':' ∧ c ≠ '\x7d' ∧ c ≠ ']' ∧ c ≠ ')' := by
    refine ⟨?_, ?_, ?_, ?_, ?_⟩ <;> rintro rfl <;> exact absurd h (by decide)
  simp [isTokenChar, hspace, hmarks]

section Core

variable {blanks core : List Char}

theorem isBlank_of_isAsciiSpace {c : Char} (h : isAsciiSpace c = true) : isBlank c = true := by
  simp only [isAsciiSpace, Bool.or_eq_true, beq_iff_eq] at h
  rcases h with (((rfl | rfl) | rfl) | rfl) | rfl <;> decide

theorem isAsciiSpace_of_blanks (hb : Blanks isSpace blanks) :
    ∀ c ∈ blanks, isAsciiSpace c = true := by
  intro c hc
  have hspace : c = ' ' := by simpa [isSpace] using (hb c hc).2
  rw [hspace]
  decide

theorem isAsciiSpace_of_begins (hcore : Begins core) :
    ∀ c ∈ core.head?, isAsciiSpace c = false := by
  intro c hc
  refine Bool.eq_false_iff.2 fun hspace => ?_
  have hblank := hcore c hc
  rw [isBlank_of_isAsciiSpace hspace] at hblank
  cases hblank

theorem valueLength_bracketed {first : Char} (hb : ∀ c ∈ blanks, isAsciiSpace c = true)
    (hfirst : first = '\x7b' ∨ first = '[') (rest : List Char) :
    valueLength (blanks ++ first :: rest) = blanks.length + bracketedLength 0 (first :: rest) := by
  have hhead : ∀ c ∈ (first :: rest).head?, isAsciiSpace c = false := by
    rintro _ ⟨⟩
    rcases hfirst with rfl | rfl <;> decide
  rw [valueLength, takeWhile_append_eq hb hhead, dropWhile_append_eq hb hhead]
  rcases hfirst with rfl | rfl <;> rfl

/-- A value without brackets ends with its token, unless a colon follows: then there is none. -/
theorem valueLength_token (hb : ∀ c ∈ blanks, isAsciiSpace c = true)
    (hcore : ∀ c ∈ core.head?, isAsciiSpace c = false)
    (hopen : ∀ c ∈ core.head?, ¬ (c = '\x7b' ∨ c = '[')) :
    valueLength (blanks ++ core) =
      if (trimStart (core.dropWhile isTokenChar)).head? = some ':' then blanks.length
      else blanks.length + (core.takeWhile isTokenChar).length := by
  rw [valueLength, takeWhile_append_eq hb hcore, dropWhile_append_eq hb hcore]
  split
  · exact absurd (.inl rfl) (hopen _ rfl)
  · exact absurd (.inr rfl) (hopen _ rfl)
  · split
    · next h => simp [h]
    · next h =>
      rw [if_neg]
      intro hcolon
      cases hc : trimStart (core.dropWhile isTokenChar) with
      | nil => simp [hc] at hcolon
      | cons c rest =>
          rw [hc] at hcolon
          cases hcolon
          exact h rest hc

end Core

namespace AfterDefault

variable {rest : List Token} {text : List Char}

/-- What follows a default value begins with no colon. -/
theorem head?_trimStart_ne (h : AfterDefault rest) (ht : Spaced isSpace rest text) :
    (trimStart text).head? ≠ some ':' := by
  cases h with
  | nil =>
      rw [ht.blanks_of_nil.trimStart_eq_nil]
      exact fun h => nomatch h
  | comma | close =>
      rw [ht.head?_trimStart]
      decide
  | field name more =>
      rw [ht.head?_trimStart]
      obtain ⟨-, -, -, -, hproper, -⟩ := ht.cons_inv
      intro hcolon
      have hword := hproper.2 ':' (List.mem_of_mem_head? hcolon)
      exact absurd hword (by decide)

/-- A word ends as a token does, before what follows a default value. -/
theorem isTokenChar_of_head? (h : AfterDefault rest) (ht : Spaced isSpace rest text)
    {word : List Char} (hends : (Token.word word).Ends text) :
    ∀ c ∈ text.head?, isTokenChar c = false := by
  intro c hc
  rcases ht.head?_cases hc with ⟨-, hspace⟩ | ⟨token, more, rfl, hproper, hfirst⟩
  · obtain rfl : c = ' ' := by simpa [isSpace] using hspace
    decide
  · cases h with
    | comma | close =>
        cases hfirst
        decide
    | field name more =>
        have hword := hproper.2 c (List.mem_of_mem_head? hfirst)
        have hstop : isWordChar c = false := hends c hc
        rw [hword] at hstop
        cases hstop

end AfterDefault

end Length

section Takes

variable {rest : List Token} {text : List Char}

theorem spaced_drop_bracketed {first last : Char} (hfirst : first = '\x7b' ∨ first = '[')
    (hlast : last = '\x7d' ∨ last = ']') {inner : List Token} (hinner : Level inner)
    (ht : Spaced isSpace (.mark first :: (inner ++ [.mark last]) ++ rest) text) :
    Spaced isSpace rest (text.drop (valueLength text)) := by
  rw [List.cons_append, List.append_assoc] at ht
  obtain ⟨blanks, after, rfl, hb, hafter⟩ := ht.mark_inv
  obtain ⟨before, afterInner, rfl, hbefore, hafter⟩ := hafter.append_inv
  obtain ⟨gap, left, rfl, hgap, hleft⟩ := hafter.mark_inv
  have hinside := hinner (before ++ gap) (hbefore.append_blanks hgap) 1 (last :: left) Nat.one_pos
  rw [bracketedLength_close hlast, if_pos (Nat.le_refl 1), List.append_assoc] at hinside
  have hlength : valueLength (blanks ++ first :: (before ++ (gap ++ last :: left))) =
      (blanks ++ first :: (before ++ (gap ++ [last]))).length := by
    rw [valueLength_bracketed (isAsciiSpace_of_blanks hb) hfirst, bracketedLength_open hfirst,
      hinside]
    simp only [List.length_append, List.length_cons, List.length_nil]
    omega
  have hsplit : blanks ++ first :: (before ++ (gap ++ last :: left)) =
      (blanks ++ first :: (before ++ (gap ++ [last]))) ++ left := by simp
  rw [hlength, hsplit, List.drop_left]
  exact hleft

/-- A word does not begin with a bracket. -/
theorem head?_word_append {word : List Char} (h : (Token.word word).Proper) (after : List Char) :
    ∀ c ∈ ((Token.word word).text ++ after).head?, ¬ (c = '\x7b' ∨ c = '[') := by
  cases word with
  | nil => exact absurd rfl h.1
  | cons d more =>
      rintro _ ⟨⟩ hbracket
      have hword := h.2 d (by simp)
      rcases hbracket with rfl | rfl <;> exact absurd hword (by decide)

theorem spaced_drop_word {word : List Char} (hrest : AfterDefault rest)
    (ht : Spaced isSpace (.word word :: rest) text) :
    Spaced isSpace rest (text.drop (valueLength text)) := by
  obtain ⟨blanks, after, rfl, hb, hproper, hquoted, hends, hafter⟩ := ht.cons_inv
  have hstop := hrest.isTokenChar_of_head? hafter hends
  have hchars : ∀ c ∈ word, isTokenChar c = true :=
    fun c hc => isTokenChar_of_isWordChar (hproper.2 c hc)
  have htake : ((Token.word word).text ++ after).takeWhile isTokenChar = word :=
    takeWhile_append_eq hchars hstop
  have hdrop : ((Token.word word).text ++ after).dropWhile isTokenChar = after :=
    dropWhile_append_eq hchars hstop
  rw [valueLength_token (isAsciiSpace_of_blanks hb)
      (isAsciiSpace_of_begins (Spaced.begins_text_append hproper hquoted after))
      (head?_word_append hproper after),
    htake, hdrop, if_neg (hrest.head?_trimStart_ne hafter), ← List.drop_drop, List.drop_left]
  change Spaced isSpace rest ((word ++ after).drop word.length)
  rw [List.drop_left]
  exact hafter

/-- Nothing but blanks is taken before a comma or a closing parenthesis. -/
theorem spaced_drop_before_mark {c : Char} {more : List Token} (hc : c = ',' ∨ c = ')')
    (ht : Spaced isSpace (.mark c :: more) text) :
    Spaced isSpace (.mark c :: more) (text.drop (valueLength text)) := by
  obtain ⟨hmarks, htoken, hcolon, hbracket⟩ :
      c ∈ marks ∧ isTokenChar c = false ∧ c ≠ ':' ∧ ¬ (c = '\x7b' ∨ c = '[') := by
    rcases hc with rfl | rfl <;> decide
  have hblank := isBlank_of_mem_marks hmarks
  obtain ⟨blanks, after, rfl, hb, hafter⟩ := ht.mark_inv
  have hbegins := begins_mark hmarks after
  have hopen : ∀ d ∈ (c :: after).head?, ¬ (d = '\x7b' ∨ d = '[') := by
    rintro _ ⟨⟩
    exact hbracket
  have hlength : valueLength (blanks ++ c :: after) = blanks.length := by
    simp [valueLength_token (isAsciiSpace_of_blanks hb) (isAsciiSpace_of_begins hbegins) hopen,
      htoken, trimStart, hblank, hcolon]
  rw [hlength, List.drop_left]
  exact hafter.mark hmarks

/-- Nothing but blanks is taken before the name of a field, for there is a colon after it. -/
theorem spaced_drop_before_field {name : List Char} {more : List Token}
    (ht : Spaced isSpace (.word name :: .mark ':' :: more) text) :
    Spaced isSpace (.word name :: .mark ':' :: more) (text.drop (valueLength text)) := by
  obtain ⟨blanks, after, rfl, hb, hproper, hquoted, hends, hafter⟩ := ht.cons_inv
  have hchars : ∀ c ∈ name, isTokenChar c = true :=
    fun c hc => isTokenChar_of_isWordChar (hproper.2 c hc)
  have hstop : ∀ c ∈ after.head?, isTokenChar c = false := by
    intro c hc
    rcases hafter.head?_cases hc with ⟨-, hspace⟩ | ⟨token, more, hcons, -, hfirst⟩
    · obtain rfl : c = ' ' := by simpa [isSpace] using hspace
      decide
    · cases hcons
      cases hfirst
      decide
  have hdrop : ((Token.word name).text ++ after).dropWhile isTokenChar = after :=
    dropWhile_append_eq hchars hstop
  have hcolon : (trimStart after).head? = some ':' := hafter.head?_trimStart
  rw [valueLength_token (isAsciiSpace_of_blanks hb)
      (isAsciiSpace_of_begins (Spaced.begins_text_append hproper hquoted after))
      (head?_word_append hproper after),
    hdrop, if_pos hcolon, List.drop_left]
  exact .token hproper hquoted hends hafter

/-- Where a string stood, nothing is taken of what follows. -/
theorem spaced_drop_nothing (hrest : AfterDefault rest) (ht : Spaced isSpace rest text) :
    Spaced isSpace rest (text.drop (valueLength text)) := by
  cases hrest with
  | nil =>
      have hlength := valueLength_token (isAsciiSpace_of_blanks ht.blanks_of_nil)
        (isAsciiSpace_of_begins begins_nil) (fun _ => (nomatch ·))
      have hnone : trimStart (([] : List Char).dropWhile isTokenChar) = [] := rfl
      rw [List.append_nil, hnone, if_neg (by simp), List.takeWhile_nil, List.length_nil,
        Nat.add_zero] at hlength
      rw [hlength, List.drop_length]
      exact .nil
  | comma more => exact spaced_drop_before_mark (.inl rfl) ht
  | close more => exact spaced_drop_before_mark (.inr rfl) ht
  | field name more => exact spaced_drop_before_field ht

/-- A default value is one span with its equals sign. -/
theorem takes_default {value : List Token} (h : ValueTokens .value value)
    (hrest : AfterDefault rest) : Takes isSpace default? (.mark '=' :: bare value) rest := by
  intro text hbegins ht
  rw [List.cons_append] at ht
  obtain ⟨after, rfl, -, -, -, hafter⟩ := ht.cons_inv_of_begins hbegins
  suffices hleft : Spaced isSpace rest (after.drop (valueLength after)) from
    ⟨valueLength after, rfl, hleft⟩
  cases h with
  | word => exact spaced_drop_word hrest hafter
  | quoted => exact spaced_drop_nothing hrest hafter
  | list h =>
      rw [bare_mark, bare_append] at hafter
      exact spaced_drop_bracketed (.inr rfl) (.inr rfl) h.level hafter
  | object h =>
      rw [bare_mark, bare_append] at hafter
      exact spaced_drop_bracketed (.inl rfl) (.inl rfl) h.level hafter

/-- Default values are erased. -/
theorem passes_default : Passes isSpace default? AfterDefault BareDefault Absent := by
  intro tokens hd rest left hrest he
  refine ⟨[], rfl, ?_⟩
  cases hd with
  | none => exact he
  | some h => exact .drop (takes_default h hrest) he

end Takes

end ModelGraph.Written
