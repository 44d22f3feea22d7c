import Mathlib.Data.List.Infix
import ModelGraph.Proofs.Written.Directive
import ModelGraph.Proofs.Written.NormalForm

/-! # When a text is its own normal form

A normal form has no comments, no directives and single spaces (`normal_normalForm`). What it may
have are quotes that nothing closed on their line; once lines are joined, two of them can close a
string. So normalizing a second time changes nothing exactly if no literal stands in the normal form
(`normalize_normalize_iff`), in particular if no quote of the text was left open. -/

namespace ModelGraph

open Text Document Written

section Blanks

/-- The characters of a text that are not blank. -/
def solid (text : List Char) : List Char :=
  text.filter fun c => !isBlank c

@[simp] theorem solid_nil : solid [] = [] := rfl

theorem solid_cons_blank {c : Char} (hc : isBlank c = true) (rest : List Char) :
    solid (c :: rest) = solid rest := by
  simp [solid, hc]

theorem solid_cons {c : Char} (hc : isBlank c = false) (rest : List Char) :
    solid (c :: rest) = c :: solid rest := by
  simp [solid, hc]

/-- Blanks do not matter where a character is counted that is none. -/
theorem count_solid {c : Char} (hc : isBlank c = false) (text : List Char) :
    (solid text).count c = text.count c :=
  List.count_filter (by simp [hc])

/-- A character that is no blank stays in front of what is left of the rest, with a space between
them if blanks stood there. -/
theorem spaced_words_cons_cases {c : Char} (hc : isBlank c = false) (rest : List Char) :
    (Begins rest ∧ spaced (words (c :: rest)) = c :: spaced (words rest)) ∨
      (spaced (words rest) = [] ∧ spaced (words (c :: rest)) = [c]) ∨
      spaced (words (c :: rest)) = c :: ' ' :: spaced (words rest) := by
  cases rest with
  | nil => exact .inl ⟨begins_nil, spaced_words_cons hc begins_nil⟩
  | cons d rest =>
      cases hd : isBlank d with
      | false =>
          have hrest : Begins (d :: rest) := by
            rintro _ ⟨⟩
            exact hd
          exact .inl ⟨hrest, spaced_words_cons hc hrest⟩
      | true =>
          rcases spaced_words_cons_blank hc hd rest with ⟨hone, hnone⟩ | hmore
          · exact .inr (.inl ⟨hnone, hone⟩)
          · exact .inr (.inr hmore)

/-- Collapsing blanks keeps every other character, in order. -/
theorem solid_spaced_words (text : List Char) : solid (spaced (words text)) = solid text := by
  induction text with
  | nil => rfl
  | cons c rest ih =>
      cases hc : isBlank c with
      | true => rw [words_cons_blank hc, ih, solid_cons_blank hc]
      | false =>
          have hspace : isBlank ' ' = true := by decide
          rw [solid_cons hc, ← ih]
          rcases spaced_words_cons_cases hc rest with ⟨-, heq⟩ | ⟨hnil, heq⟩ | heq
          · rw [heq, solid_cons hc]
          · rw [heq, hnil, solid_cons hc]
          · rw [heq, solid_cons hc, solid_cons_blank hspace]

/-- Two characters are neighbours at the front of a text or further on. -/
theorem pair_isInfix_cons_iff {a b c : Char} {rest : List Char} :
    [a, b] <:+: c :: rest ↔ a = c ∧ rest.head? = some b ∨ [a, b] <:+: rest := by
  rw [List.infix_cons_iff, List.cons_prefix_cons]
  cases rest with
  | nil => simp
  | cons d rest => simp [eq_comm]

/-- Neighbours in a collapsed text that are not blank were neighbours before. -/
theorem neighbours_of_spaced_words {a b : Char} (ha : isBlank a = false) (hb : isBlank b = false)
    {text : List Char} (h : [a, b] <:+: spaced (words text)) : [a, b] <:+: text := by
  have hspace : isBlank ' ' = true := by decide
  induction text with
  | nil => exact h
  | cons c rest ih =>
      rw [pair_isInfix_cons_iff]
      cases hc : isBlank c with
      | true =>
          rw [words_cons_blank hc] at h
          exact .inr (ih h)
      | false =>
          rcases spaced_words_cons_cases hc rest with ⟨hrest, heq⟩ | ⟨-, heq⟩ | heq
          · rw [heq, pair_isInfix_cons_iff, head?_spaced_words hrest] at h
            exact h.imp_right ih
          · rw [heq, pair_isInfix_cons_iff] at h
            simp at h
          · rw [heq, pair_isInfix_cons_iff, pair_isInfix_cons_iff] at h
            rcases h with ⟨-, hhead⟩ | ⟨rfl, -⟩ | hlater
            · obtain rfl : ' ' = b := Option.some.inj hhead
              rw [hspace] at hb
              cases hb
            · rw [hspace] at ha
              cases ha
            · exact .inr (ih hlater)

/-- A word is read up to the blank that follows it. -/
theorem words_append {word rest : List Char} (hne : word ≠ [])
    (hword : ∀ c ∈ word, isBlank c = false) (hrest : ∀ c ∈ rest.head?, isBlank c = true) :
    words (word ++ rest) = word :: words rest :=
  runs_append hne (fun c hc => by simp [hword c hc]) fun c hc => by simp [hrest c hc]

/-- Words are read back from a text in which they stand with spaces between them. -/
theorem words_spaced {texts : List (List Char)}
    (h : ∀ text ∈ texts, text ≠ [] ∧ ∀ c ∈ text, isBlank c = false) :
    words (spaced texts) = texts := by
  induction texts with
  | nil => rfl
  | cons first more ih =>
      obtain ⟨hne, hfirst⟩ := h first List.mem_cons_self
      have hmore := ih fun text ht => h text (List.mem_cons_of_mem first ht)
      cases more with
      | nil =>
          have hnothing : ∀ c ∈ [].head?, isBlank c = true := fun _ hc => nomatch hc
          have hone := words_append hne hfirst hnothing
          rwa [List.append_nil] at hone
      | cons second more =>
          have hspace : isBlank ' ' = true := by decide
          calc words (spaced (first :: second :: more))
              = words (first ++ ' ' :: spaced (second :: more)) := rfl
            _ = first :: words (' ' :: spaced (second :: more)) := by
                apply words_append hne hfirst
                rintro _ ⟨⟩
                exact hspace
            _ = first :: second :: more := by rw [words_cons_blank hspace, hmore]

end Blanks

section Erasing

/-- A text is blanked out from the left. Either a span opens it, or its first character is kept. -/
theorem blankOut_cons_cases (recognise : Recogniser) (c : Char) (rest : List Char) :
    (∃ n, recognise (c :: rest) = some (n + 1) ∧
        blankOut recognise (c :: rest) = ' ' :: blankOut recognise (rest.drop n)) ∨
      ((∀ n, recognise (c :: rest) ≠ some (n + 1)) ∧
        blankOut recognise (c :: rest) = c :: blankOut recognise rest) := by
  cases h : recognise (c :: rest) with
  | none => exact .inr ⟨fun _ => nofun, blankOut_of_none h⟩
  | some n =>
      cases n with
      | succ n => exact .inl ⟨n, rfl, blankOut_of_some h⟩
      | zero =>
          refine .inr ⟨fun _ => nofun, ?_⟩
          simp [blankOut, cut, cutAfter, h]

/-- What holds of the empty text, and of a text if it holds of what is left behind its first piece,
holds of every text. -/
theorem blankOut_induction (recognise : Recogniser) {P : List Char → Prop} (hnil : P [])
    (hspan : ∀ c rest n, recognise (c :: rest) = some (n + 1) →
      blankOut recognise (c :: rest) = ' ' :: blankOut recognise (rest.drop n) →
        P (rest.drop n) → P (c :: rest))
    (hkept : ∀ c rest, (∀ n, recognise (c :: rest) ≠ some (n + 1)) →
      blankOut recognise (c :: rest) = c :: blankOut recognise rest → P rest → P (c :: rest))
    (text : List Char) : P text := by
  match text with
  | [] => exact hnil
  | c :: rest =>
      rcases blankOut_cons_cases recognise c rest with ⟨n, hn, heq⟩ | ⟨hn, heq⟩
      · exact hspan c rest n hn heq (blankOut_induction recognise hnil hspan hkept (rest.drop n))
      · exact hkept c rest hn heq (blankOut_induction recognise hnil hspan hkept rest)
termination_by text.length
decreasing_by
  · rw [List.length_cons, List.length_drop]
    omega
  · exact Nat.lt_succ_self _

/-- Blanking out leaves some of the characters, in order. -/
theorem solid_blankOut_sublist (recognise : Recogniser) (text : List Char) :
    (solid (blankOut recognise text)).Sublist (solid text) := by
  have hspace : isBlank ' ' = true := by decide
  induction text using blankOut_induction recognise with
  | hnil => exact .slnil
  | hspan c rest n _ heq ih =>
      rw [heq, solid_cons_blank hspace]
      exact ih.trans (((List.drop_sublist n rest).trans (List.sublist_cons_self c rest)).filter _)
  | hkept c rest _ heq ih =>
      rw [heq]
      cases hc : isBlank c with
      | true => rwa [solid_cons_blank hc, solid_cons_blank hc]
      | false =>
          rw [solid_cons hc, solid_cons hc]
          exact ih.cons_cons c

/-- A text in which no span opens is left as it is. -/
theorem blankOut_eq_self {recognise : Recogniser} {text : List Char}
    (h : ∀ c rest, c :: rest <:+ text → recognise (c :: rest) = none) :
    blankOut recognise text = text := by
  induction text with
  | nil => rfl
  | cons c rest ih =>
      have hrest := ih fun d more hmore => h d more (hmore.trans (List.suffix_cons c rest))
      rw [blankOut_of_none (h c rest List.suffix_rfl), hrest]

end Erasing

/-- A text without comments and directives, with single spaces between its words. Quotes it may
have. -/
structure Normal (text : List Char) : Prop where
  collapsed : spaced (words text) = text
  sign : '#' ∉ text
  directive : ∀ c, isIdentStart c = true → ¬ ['@', c] <:+: text

section Forms

/-- Wherever a number sign is not in a literal, it opens a comment. -/
theorem sign_not_mem_blankOut (text : List Char) : '#' ∉ blankOut Trivia.trivium? text := by
  induction text using blankOut_induction Trivia.trivium? with
  | hnil => exact List.not_mem_nil
  | hspan c rest n _ heq ih =>
      rw [heq, List.mem_cons, not_or]
      exact ⟨by decide, ih⟩
  | hkept c rest hkept heq ih =>
      rw [heq, List.mem_cons, not_or]
      refine ⟨?_, ih⟩
      rintro rfl
      exact hkept _ rfl

/-- An at sign before a name opens a directive. -/
theorem exists_directive?_eq_some {c : Char} (hc : isIdentStart c = true) {rest : List Char}
    (hhead : rest.head? = some c) : ∃ n, Trivia.directive? ('@' :: rest) = some (n + 1) := by
  obtain ⟨more, rfl⟩ := List.head?_eq_some_iff.1 hhead
  have hname : identifier? (c :: more) =
      some (c :: more.takeWhile isIdentRest, more.dropWhile isIdentRest) := if_pos hc
  simp only [Trivia.directive?, hname, Option.map_some, Nat.add_assoc]
  exact ⟨_, congrArg some (Nat.add_comm 1 _)⟩

theorem directive?_eq_none {rest : List Char} (h : ∀ c ∈ rest.head?, isIdentStart c = false) :
    Trivia.directive? ('@' :: rest) = none := by
  cases rest with
  | nil => rfl
  | cons c more => simp [Trivia.directive?, identifier?, h c rfl]

/-- Where directives are blanked out none is left, and no other is made. -/
theorem directive_not_isInfix_blankOut {c : Char} (hc : isIdentStart c = true) (text : List Char) :
    ¬ ['@', c] <:+: blankOut Trivia.directive? text := by
  induction text using blankOut_induction Trivia.directive? with
  | hnil => exact fun h => absurd h.length_le (by simp)
  | hspan d rest n _ heq ih =>
      rw [heq, pair_isInfix_cons_iff]
      rintro (⟨hat, -⟩ | h)
      · cases hat
      · exact ih h
  | hkept d rest hkept heq ih =>
      rw [heq, pair_isInfix_cons_iff]
      rintro (⟨rfl, hhead⟩ | h)
      · rcases head?_blankOut Trivia.directive? rest hhead with rfl | hrest
        · cases hc
        · obtain ⟨n, hn⟩ := exists_directive?_eq_some hc hrest
          exact hkept n hn
      · exact ih h

/-- A normal form has some of the characters that are left without trivia, in order. -/
theorem solid_normalForm_sublist (text : List Char) :
    (solid (normalForm text)).Sublist (solid (blankOut Trivia.trivium? text)) := by
  rw [normalForm, normalWords, solid_spaced_words]
  exact solid_blankOut_sublist Trivia.directive? _

theorem mem_of_mem_normalForm {c : Char} (hc : isBlank c = false) {text : List Char}
    (h : c ∈ normalForm text) : c ∈ blankOut Trivia.trivium? text := by
  have hsolid : c ∈ solid (normalForm text) := List.mem_filter.2 ⟨h, by simp [hc]⟩
  exact (List.mem_filter.1 ((solid_normalForm_sublist text).subset hsolid)).1

/-- A normal form is collapsed, without comments and without directives. -/
theorem normal_normalForm (text : List Char) : Normal (normalForm text) where
  collapsed := by
    have hwords : words (spaced (normalWords text)) = normalWords text :=
      words_spaced fun _ hword => mem_words hword
    exact congrArg spaced hwords
  sign hmem := sign_not_mem_blankOut text (mem_of_mem_normalForm (by decide) hmem)
  directive := by
    intro c hc h
    have hblank : isBlank c = false := isBlank_of_isIdentRest (isIdentRest_of_isIdentStart hc)
    exact directive_not_isInfix_blankOut hc _
      (neighbours_of_spaced_words (by decide) hblank h)

end Forms

section Literals

/-- A string that closes on its line has the content of one. -/
theorem exists_lineContent_of_toLineEnd {text : List Char} {n : Nat}
    (h : Trivia.toLineEnd text = some n) :
    ∃ content after, text = content ++ '"' :: after ∧ LineContent content := by
  fun_induction Trivia.toLineEnd text generalizing n with
  | case1 => cases h
  | case2 after => exact ⟨[], after, rfl, .nil⟩
  | case3 => cases h
  | case4 => cases h
  | case5 => cases h
  | case6 c rest hline ih =>
      obtain ⟨m, hm, -⟩ := Option.map_eq_some_iff.1 h
      obtain ⟨content, after, rfl, hcontent⟩ := ih hm
      exact ⟨'\\' :: c :: content, after, rfl, .escaped hline hcontent⟩
  | case7 c rest hquote hline hend _ hescaped ih =>
      obtain ⟨m, hm, -⟩ := Option.map_eq_some_iff.1 h
      obtain ⟨content, after, rfl, hcontent⟩ := ih hm
      refine ⟨c :: content, after, rfl, .plain hquote ?_ hline hcontent⟩
      intro hslash
      cases content with
      | nil => exact hescaped '"' after hslash rfl
      | cons d more => exact hescaped d (more ++ '"' :: after) hslash rfl

/-- If no literal stands in a text without number signs, nothing opens a trivium there. -/
theorem trivium?_eq_none_of_no_literal {text : List Char} (hsign : '#' ∉ text)
    (h : ∀ literal, Closed literal → ¬ literal <:+: text) (c : Char) (rest : List Char)
    (hrest : c :: rest <:+ text) : Trivia.trivium? (c :: rest) = none := by
  by_cases hquote : c = '"'
  · subst hquote
    -- a block string would begin with two quotes, which are a literal by themselves
    have hblock : Trivia.block? ('"' :: rest) = none := by
      rw [Trivia.block?.eq_def]
      split
      · next more heq =>
        refine absurd ?_ (h _ (.line .nil))
        rw [heq] at hrest
        exact List.IsInfix.trans ⟨[], '"' :: more, rfl⟩ hrest.isInfix
      · rfl
    have hstring : Trivia.string? ('"' :: rest) = none := by
      cases hend : Trivia.toLineEnd rest with
      | none => simp [Trivia.string?, hend]
      | some n =>
          obtain ⟨content, after, rfl, hcontent⟩ := exists_lineContent_of_toLineEnd hend
          refine absurd ?_ (h _ (.line hcontent))
          exact List.IsInfix.trans ⟨[], after, by simp⟩ hrest.isInfix
    rw [Trivia.trivium?, hblock, hstring]
    rfl
  · apply trivium?_eq_none hquote
    rintro rfl
    exact hsign (hrest.subset List.mem_cons_self)

/-- Where a string closes, a trivium opens. -/
theorem exists_trivium?_eq_some {rest : List Char} (h : Trivia.string? ('"' :: rest) ≠ none) :
    ∃ n, Trivia.trivium? ('"' :: rest) = some (n + 1) := by
  obtain ⟨k, hk⟩ := Option.ne_none_iff_exists'.1 h
  obtain ⟨m, -, rfl⟩ := Option.map_eq_some_iff.1 hk
  cases hblock : Trivia.block? ('"' :: rest) with
  | none => exact ⟨m, by rw [Trivia.trivium?, hblock, hk]; rfl⟩
  | some j =>
      obtain ⟨i, rfl⟩ : ∃ i, j = i + 3 := by
        rw [Trivia.block?.eq_def] at hblock
        split at hblock
        · obtain ⟨i, -, hi⟩ := Option.map_eq_some_iff.1 hblock
          exact ⟨i, hi.symm⟩
        · cases hblock
      exact ⟨i + 2, by rw [Trivia.trivium?, hblock]; rfl⟩

/-- A literal in a text is a place where a string closes. -/
theorem exists_string?_ne_none {literal text : List Char} (h : Closed literal)
    (hpart : literal <:+: text) :
    ∃ rest, '"' :: rest <:+ text ∧ Trivia.string? ('"' :: rest) ≠ none := by
  obtain ⟨before, after, rfl⟩ := hpart
  cases h with
  | @line content hcontent =>
      refine ⟨content ++ '"' :: after, ⟨before, by simp⟩, ?_⟩
      simp [Trivia.string?, toLineEnd_content hcontent]
  | @block content hcontent =>
      refine ⟨'"' :: '"' :: (content ++ blockQuotes ++ after), ⟨before, by simp [blockQuotes]⟩, ?_⟩
      simp [Trivia.string?, Trivia.toLineEnd]

/-- If blanking out trivia takes no quote away, no string closes. -/
theorem string?_eq_none_of_count {text : List Char} (hsign : '#' ∉ text)
    (hcount : text.count '"' ≤ (blankOut Trivia.trivium? text).count '"') (rest : List Char)
    (hrest : '"' :: rest <:+ text) : Trivia.string? ('"' :: rest) = none := by
  have hless : ∀ text : List Char, (blankOut Trivia.trivium? text).count '"' ≤ text.count '"' := by
    intro text
    have hle := (solid_blankOut_sublist Trivia.trivium? text).count_le '"'
    rwa [count_solid (by decide), count_solid (by decide)] at hle
  induction text using blankOut_induction Trivia.trivium? with
  | hnil => simp at hrest
  | hspan c more n hspan heq _ =>
      rw [List.mem_cons, not_or] at hsign
      obtain rfl : c = '"' := by
        by_contra hquote
        rw [trivium?_eq_none hquote (Ne.symm hsign.1)] at hspan
        cases hspan
      have hdrop := (List.drop_sublist n more).count_le '"'
      have hafter := hless (more.drop n)
      rw [heq, List.count_cons_self, List.count_cons_of_ne (by decide)] at hcount
      omega
  | hkept c more hkept heq ih =>
      rw [List.mem_cons, not_or] at hsign
      rw [heq, List.count_cons, List.count_cons] at hcount
      rcases List.suffix_cons_iff.1 hrest with hself | hlater
      · obtain ⟨rfl, rfl⟩ := List.cons.inj hself
        by_contra hstring
        obtain ⟨n, hn⟩ := exists_trivium?_eq_some hstring
        exact hkept n hn
      · exact ih hsign.2 (by omega) hlater

end Literals

/-- A normal text is its own normal form exactly if no literal stands in it. -/
theorem normalForm_eq_self_iff {text : List Char} (h : Normal text) :
    normalForm text = text ↔ ∀ literal, Closed literal → ¬ literal <:+: text := by
  constructor
  · intro heq literal hclosed hpart
    obtain ⟨rest, hrest, hstring⟩ := exists_string?_ne_none hclosed hpart
    apply hstring
    apply string?_eq_none_of_count h.sign _ rest hrest
    have hquote : isBlank '"' = false := by decide
    calc text.count '"'
        = (solid (normalForm text)).count '"' := by rw [count_solid hquote, heq]
      _ ≤ (solid (blankOut Trivia.trivium? text)).count '"' :=
          (solid_normalForm_sublist text).count_le '"'
      _ = (blankOut Trivia.trivium? text).count '"' := count_solid hquote _
  · intro hliteral
    have htrivia : blankOut Trivia.trivium? text = text :=
      blankOut_eq_self (trivium?_eq_none_of_no_literal h.sign hliteral)
    have hdirectives : blankOut Trivia.directive? text = text := by
      apply blankOut_eq_self
      intro c rest hrest
      by_cases hat : c = '@'
      · subst hat
        apply directive?_eq_none
        intro d hd
        obtain ⟨more, rfl⟩ := List.head?_eq_some_iff.1 hd
        rw [Bool.eq_false_iff]
        intro hstart
        apply h.directive d hstart
        exact List.IsInfix.trans ⟨[], more, rfl⟩ hrest.isInfix
      · exact opensAt_directive.eq_none c rest hat
    rw [normalForm, normalWords, htrivia, hdirectives, h.collapsed]

/-- Every quote of the text stands in a description or in a comment. -/
def QuotesClosed (text : List Char) : Prop :=
  '"' ∉ blankOut Trivia.trivium? text

instance (text : List Char) : Decidable (QuotesClosed text) :=
  inferInstanceAs (Decidable ('"' ∉ blankOut Trivia.trivium? text))

/-- Normalizing twice is normalizing once exactly if no literal stands in the normal form. That is
so if no quote of the text is left open. -/
theorem normalize_normalize_iff (text : String) :
    (normalize (normalize text) = normalize text ↔
        ∀ literal, Closed literal → ¬ literal <:+: (normalize text).toList) ∧
      (QuotesClosed text.toList → normalize (normalize text) = normalize text) := by
  have hnormal : Normal (normalize text).toList := by
    rw [normalize, String.toList_ofList]
    exact normal_normalForm text.toList
  have hiff : normalize (normalize text) = normalize text ↔
      ∀ literal, Closed literal → ¬ literal <:+: (normalize text).toList := by
    rw [← normalForm_eq_self_iff hnormal, ← String.toList_inj, normalize, String.toList_ofList]
  refine ⟨hiff, ?_⟩
  intro hquotes
  apply hiff.2
  intro literal hclosed hpart
  have hquote : '"' ∈ literal := by cases hclosed <;> exact List.mem_cons_self
  have hmem := hpart.subset hquote
  rw [normalize, String.toList_ofList] at hmem
  exact hquotes (mem_of_mem_normalForm (by decide) hmem)

/-- A description with a number sign, a comment with a quote, and a directive with a string. -/
theorem normalize_normalize_described :
    QuotesClosed "\"\"\"a # b\"\"\" type A # c\"\n @d(e: \"f\") \x7b id: ID \x7d".toList ∧
      normalize (normalize
          "\"\"\"a # b\"\"\" type A # c\"\n @d(e: \"f\") \x7b id: ID \x7d") =
        normalize "\"\"\"a # b\"\"\" type A # c\"\n @d(e: \"f\") \x7b id: ID \x7d" := by
  have hquotes : QuotesClosed
      "\"\"\"a # b\"\"\" type A # c\"\n @d(e: \"f\") \x7b id: ID \x7d".toList := by
    decide +kernel
  exact ⟨hquotes, (normalize_normalize_iff _).2 hquotes⟩

-- Two lines with an open quote each: the joined line has a string, which the second pass takes.
example : normalize "a \"b\nc\" d" = "a \"b c\" d" ∧ normalize "a \"b c\" d" = "a d" := by
  decide +kernel

end ModelGraph
