import Mathlib.Data.List.TakeWhile
import ModelGraph.Proofs.Trivia.Idempotence

/-! # The patterns of trivia and directives

A pattern says what it matches, by the shape of the match and of the text behind it; a recogniser
computes how long the match is. The recognisers of trivia and of directives measure their patterns
(`measures_trivium`, `measures_directive`), so cutting a text with them takes the leftmost match
wherever one opens and keeps every other character, which leaves no choice (`parted_iff`). -/

namespace ModelGraph

open Text Document Written

/-- A pattern relates what it matches to the text behind the match. -/
abbrev Pattern := List Char → List Char → Prop

/-- The recogniser finds what the pattern matches at the front of a text, which is never empty. -/
structure Measures (recognise : Recogniser) (pattern : Pattern) : Prop where
  iff : ∀ text n, recognise text = some n ↔
    ∃ span rest, text = span ++ rest ∧ span.length = n ∧ pattern span rest
  ne_nil : ∀ span rest, pattern span rest → span ≠ []

/-- A text from left to right. Where the pattern matches, the match is one piece; a character is a
piece of its own only if no match begins with it. -/
inductive Parted (pattern : Pattern) : List Char → List Piece → Prop
  | nil : Parted pattern [] []
  | span {span rest : List Char} {pieces : List Piece} (h : pattern span rest)
      (hrest : Parted pattern rest pieces) :
      Parted pattern (span ++ rest) (.span span :: pieces)
  | kept {c : Char} {rest : List Char} {pieces : List Piece}
      (h : ∀ span more, c :: rest = span ++ more → ¬ pattern span more)
      (hrest : Parted pattern rest pieces) : Parted pattern (c :: rest) (.kept c :: pieces)

section Parting

variable {recognise : Recogniser} {pattern : Pattern}

namespace Measures

variable (hm : Measures recognise pattern)
include hm

theorem eq_some {span rest : List Char} (h : pattern span rest) :
    recognise (span ++ rest) = some span.length :=
  (hm.iff _ _).2 ⟨span, rest, rfl, rfl, h⟩

theorem ne_zero (text : List Char) : recognise text ≠ some 0 := by
  intro hzero
  obtain ⟨span, rest, -, hlength, hspan⟩ := (hm.iff _ _).1 hzero
  exact hm.ne_nil span rest hspan (List.length_eq_zero_iff.1 hlength)

theorem eq_none_iff (text : List Char) :
    recognise text = none ↔ ∀ span more, text = span ++ more → ¬ pattern span more := by
  constructor
  · rintro hnone span more rfl h
    rw [hm.eq_some h] at hnone
    cases hnone
  · intro h
    cases hsome : recognise text with
    | none => rfl
    | some n =>
        obtain ⟨span, rest, heq, -, hspan⟩ := (hm.iff _ _).1 hsome
        exact absurd hspan (h span rest heq)

theorem cut_append {span rest : List Char} (h : pattern span rest) :
    cut recognise (span ++ rest) = .span span :: cut recognise rest := by
  have hlength := hm.eq_some h
  obtain ⟨c, more, rfl⟩ := List.exists_cons_of_ne_nil (hm.ne_nil span rest h)
  rw [List.cons_append, List.length_cons] at hlength
  rw [List.cons_append, cut_of_some hlength, List.take_left, List.drop_left]

/-- Cutting a text parts it by what is matched. -/
theorem parted_cut (text : List Char) : Parted pattern text (cut recognise text) := by
  induction text using blankOut_induction recognise with
  | hnil => exact .nil
  | hspan c rest n hn _ ih =>
      obtain ⟨span, more, heq, hlength, hspan⟩ := (hm.iff _ _).1 hn
      obtain ⟨d, inner, rfl⟩ := List.exists_cons_of_ne_nil (hm.ne_nil span more hspan)
      obtain ⟨rfl, rfl⟩ := List.cons.inj (List.cons_append ▸ heq)
      rw [List.length_cons, Nat.add_right_cancel_iff] at hlength
      rw [← hlength, List.drop_left] at ih
      rw [heq, hm.cut_append hspan]
      exact .span hspan ih
  | hkept c rest hn _ ih =>
      have hnone : recognise (c :: rest) = none := by
        cases hsome : recognise (c :: rest) with
        | none => rfl
        | some k =>
            cases k with
            | zero => exact absurd hsome (hm.ne_zero _)
            | succ k => exact absurd hsome (hn k)
      rw [cut_of_none hnone]
      exact .kept ((hm.eq_none_iff _).1 hnone) ih

/-- A text can be parted in one way only, and cutting it finds that way. -/
theorem parted_iff (text : List Char) (pieces : List Piece) :
    Parted pattern text pieces ↔ pieces = cut recognise text := by
  constructor
  · intro h
    induction h with
    | nil => rfl
    | span hspan _ ih => rw [hm.cut_append hspan, ih]
    | kept hkept _ ih => rw [cut_of_none ((hm.eq_none_iff _).2 hkept), ih]
  · rintro rfl
    exact hm.parted_cut text

end Measures

end Parting

/-- A block string opens the text: three more quotes follow the three that open it. -/
def ClosesBlock (text : List Char) : Prop :=
  ∃ content after, text = blockQuotes ++ (content ++ (blockQuotes ++ after))

/-- Trivia, in the order in which they are tried: a block string up to the next three quotes, a
string that closes on its line where no block string does, and a comment up to the end of its
line. -/
inductive TriviumPattern : Pattern
  | block {content rest : List Char} (h : ¬ blockQuotes <:+: content ++ ['"', '"']) :
      TriviumPattern (blockQuotes ++ (content ++ blockQuotes)) rest
  | string {content rest : List Char} (hcontent : LineContent content)
      (hblock : ¬ ClosesBlock ('"' :: (content ++ '"' :: rest))) :
      TriviumPattern ('"' :: (content ++ ['"'])) rest
  | comment {body rest : List Char} (hbody : '\n' ∉ body) (hrest : ∀ c ∈ rest.head?, c = '\n') :
      TriviumPattern ('#' :: body) rest

/-- Directives: the longest name behind an at sign, and with it the parentheses behind the name up
to the first that closes, if there are any. -/
inductive DirectivePattern : Pattern
  | applied {name gap arguments rest : List Char} (hname : isIdentifier name = true)
      (hgap : ∀ c ∈ gap, isBlank c = true) (harguments : ')' ∉ arguments) :
      DirectivePattern ('@' :: (name ++ (gap ++ '(' :: (arguments ++ [')'])))) rest
  | plain {name rest : List Char} (hname : isIdentifier name = true)
      (hends : ∀ c ∈ rest.head?, isIdentRest c = false)
      (hplain : ∀ gap inner after, (∀ c ∈ gap, isBlank c = true) →
        rest ≠ gap ++ '(' :: (inner ++ ')' :: after)) :
      DirectivePattern ('@' :: name) rest

section Trivia

/-- A block string ends at the first three quotes. -/
theorem exists_content_of_toBlockEnd {text : List Char} {n : Nat}
    (h : Trivia.toBlockEnd text = some n) :
    ∃ content after, text = content ++ (blockQuotes ++ after) ∧
      ¬ blockQuotes <:+: content ++ ['"', '"'] ∧ n = content.length + 3 := by
  fun_induction Trivia.toBlockEnd text generalizing n with
  | case1 => cases h
  | case2 after =>
      obtain rfl := Option.some.inj h
      exact ⟨[], after, rfl, by decide, rfl⟩
  | case3 c rest hother ih =>
      obtain ⟨m, hm, rfl⟩ := Option.map_eq_some_iff.1 h
      obtain ⟨content, after, rfl, hcontent, rfl⟩ := ih hm
      refine ⟨c :: content, after, rfl, ?_, rfl⟩
      rw [List.cons_append, List.infix_cons_iff, not_or]
      refine ⟨?_, hcontent⟩
      rw [← blockQuotes_isPrefix_cons_iff c content after, List.append_assoc]
      rintro ⟨tail, htail⟩
      obtain ⟨rfl, hrest⟩ := List.cons.inj htail
      exact hother tail rfl hrest.symm

/-- Where three quotes follow, a block string ends. -/
theorem toBlockEnd_ne_none (content after : List Char) :
    Trivia.toBlockEnd (content ++ (blockQuotes ++ after)) ≠ none := by
  induction content with
  | nil => exact nofun
  | cons c more ih =>
      rw [List.cons_append, Trivia.toBlockEnd.eq_def]
      dsimp only
      split
      · exact nofun
      · simpa using ih

theorem block?_eq_none_iff (text : List Char) :
    Trivia.block? text = none ↔ ¬ ClosesBlock text := by
  constructor
  · rintro hnone ⟨content, after, rfl⟩
    have hend := toBlockEnd_ne_none content after
    exact hend (Option.map_eq_none_iff.1 hnone)
  · intro h
    rw [Trivia.block?.eq_def]
    split
    · next rest =>
      rw [Option.map_eq_none_iff]
      cases hend : Trivia.toBlockEnd rest with
      | none => rfl
      | some n =>
          obtain ⟨content, after, rfl, -, -⟩ := exists_content_of_toBlockEnd hend
          exact absurd ⟨content, after, rfl⟩ h
    · rfl

theorem exists_pattern_of_block? {text : List Char} {n : Nat} (h : Trivia.block? text = some n) :
    ∃ span rest, text = span ++ rest ∧ span.length = n ∧ TriviumPattern span rest := by
  rw [Trivia.block?.eq_def] at h
  split at h
  · next rest =>
    obtain ⟨m, hend, rfl⟩ := Option.map_eq_some_iff.1 h
    obtain ⟨content, after, rfl, hcontent, rfl⟩ := exists_content_of_toBlockEnd hend
    refine ⟨_, after, ?_, ?_, .block hcontent⟩
    · simp [blockQuotes]
    · simp [blockQuotes]
  · cases h

theorem exists_pattern_of_string? {text : List Char} {n : Nat} (hblock : Trivia.block? text = none)
    (h : Trivia.string? text = some n) :
    ∃ span rest, text = span ++ rest ∧ span.length = n ∧ TriviumPattern span rest := by
  rw [Trivia.string?.eq_def] at h
  split at h
  · next rest =>
    obtain ⟨m, hend, rfl⟩ := Option.map_eq_some_iff.1 h
    obtain ⟨content, after, rfl, hcontent⟩ := exists_lineContent_of_toLineEnd hend
    rw [toLineEnd_content hcontent, Option.some.injEq] at hend
    refine ⟨_, after, ?_, ?_, .string hcontent ((block?_eq_none_iff _).1 hblock)⟩
    · simp
    · simp [← hend]
  · cases h

theorem exists_pattern_of_comment? {text : List Char} {n : Nat}
    (h : Trivia.comment? text = some n) :
    ∃ span rest, text = span ++ rest ∧ span.length = n ∧ TriviumPattern span rest := by
  rw [Trivia.comment?.eq_def] at h
  split at h
  · next rest =>
    obtain rfl := Option.some.inj h
    refine ⟨'#' :: rest.takeWhile (· ≠ '\n'), rest.dropWhile (· ≠ '\n'), ?_, rfl, .comment ?_ ?_⟩
    · rw [List.cons_append, List.takeWhile_append_dropWhile]
    · intro hmem
      simpa using List.mem_takeWhile_imp hmem
    · intro c hc
      simpa using head?_dropWhile_eq_false (· ≠ '\n') rest c hc
  · cases h

/-- What is taken for a trivium is one, and no shorter or longer. -/
theorem exists_pattern_of_trivium? {text : List Char} {n : Nat}
    (h : Trivia.trivium? text = some n) :
    ∃ span rest, text = span ++ rest ∧ span.length = n ∧ TriviumPattern span rest := by
  rw [Trivia.trivium?, Option.or_eq_some_iff, Option.or_eq_some_iff] at h
  rcases h with hblock | ⟨hblock, hstring | ⟨-, hcomment⟩⟩
  · exact exists_pattern_of_block? hblock
  · exact exists_pattern_of_string? hblock hstring
  · exact exists_pattern_of_comment? hcomment

theorem trivium?_of_pattern {span rest : List Char} (h : TriviumPattern span rest) :
    Trivia.trivium? (span ++ rest) = some span.length := by
  cases h with
  | @block content _ hcontent =>
      have hspan := trivium?_block hcontent rest
      simpa [blockQuotes] using hspan
  | @string content _ hcontent hblock =>
      rw [List.cons_append, List.append_assoc, List.singleton_append, Trivia.trivium?,
        (block?_eq_none_iff _).2 hblock]
      simp [Trivia.string?, toLineEnd_content hcontent]
  | @comment body _ hbody hrest => exact trivium?_comment hbody hrest

/-- Trivia are found as their pattern says. -/
theorem measures_trivium : Measures Trivia.trivium? TriviumPattern where
  iff text n := by
    constructor
    · exact exists_pattern_of_trivium?
    · rintro ⟨span, rest, rfl, rfl, h⟩
      exact trivium?_of_pattern h
  ne_nil span rest h := by
    cases h <;> exact List.cons_ne_nil _ _

end Trivia

section Directives

theorem exists_inner_of_toParenEnd {text : List Char} {n : Nat}
    (h : Trivia.toParenEnd text = some n) :
    ∃ inner after, text = inner ++ ')' :: after ∧ ')' ∉ inner ∧ n = inner.length + 1 := by
  fun_induction Trivia.toParenEnd text generalizing n with
  | case1 => cases h
  | case2 after =>
      obtain rfl := Option.some.inj h
      exact ⟨[], after, rfl, List.not_mem_nil, rfl⟩
  | case3 c rest hother ih =>
      obtain ⟨m, hm, rfl⟩ := Option.map_eq_some_iff.1 h
      obtain ⟨inner, after, rfl, hinner, rfl⟩ := ih hm
      refine ⟨c :: inner, after, rfl, ?_, rfl⟩
      rw [List.mem_cons, not_or]
      exact ⟨fun hc => hother hc.symm, hinner⟩

theorem toParenEnd_ne_none (inner after : List Char) :
    Trivia.toParenEnd (inner ++ ')' :: after) ≠ none := by
  induction inner with
  | nil => exact nofun
  | cons c more ih =>
      by_cases hc : c = ')'
      · subst hc
        exact nofun
      · simpa [Trivia.toParenEnd, hc] using ih

/-- Behind blanks, a text opens with parentheses or does not. -/
theorem parenthesized?_trimStart_eq_none_iff (after : List Char) :
    Trivia.parenthesized? (trimStart after) = none ↔
      ∀ gap inner rest, (∀ c ∈ gap, isBlank c = true) →
        after ≠ gap ++ '(' :: (inner ++ ')' :: rest) := by
  constructor
  · rintro hnone gap inner rest hgap rfl
    have hopen : ∀ c ∈ ('(' :: (inner ++ ')' :: rest)).head?, isBlank c = false := by
      rintro _ ⟨⟩
      decide
    rw [trimStart, dropWhile_append_eq hgap hopen] at hnone
    exact toParenEnd_ne_none inner rest (Option.map_eq_none_iff.1 hnone)
  · intro h
    rw [Trivia.parenthesized?.eq_def]
    split
    · next more heq =>
      rw [Option.map_eq_none_iff]
      cases hend : Trivia.toParenEnd more with
      | none => rfl
      | some n =>
          obtain ⟨inner, rest, rfl, -, -⟩ := exists_inner_of_toParenEnd hend
          refine absurd ?_ (h (after.takeWhile isBlank) inner rest fun c => List.mem_takeWhile_imp)
          rw [← heq, trimStart, List.takeWhile_append_dropWhile]
    · rfl

/-- Parentheses behind blanks, up to the first that closes. -/
theorem exists_inner_of_parenthesized? {after : List Char} {n : Nat}
    (h : Trivia.parenthesized? (trimStart after) = some n) :
    ∃ inner rest, after = after.takeWhile isBlank ++ '(' :: (inner ++ ')' :: rest) ∧
      ')' ∉ inner ∧ n = inner.length + 2 := by
  rw [Trivia.parenthesized?.eq_def] at h
  split at h
  · next more heq =>
    obtain ⟨m, hend, rfl⟩ := Option.map_eq_some_iff.1 h
    obtain ⟨inner, rest, rfl, hinner, rfl⟩ := exists_inner_of_toParenEnd hend
    refine ⟨inner, rest, ?_, hinner, rfl⟩
    rw [← heq, trimStart, List.takeWhile_append_dropWhile]
  · cases h

/-- The longest identifier is followed by nothing that continues it. -/
theorem isIdentRest_of_identifier? {text name after : List Char}
    (h : identifier? text = some (name, after)) : ∀ c ∈ after.head?, isIdentRest c = false := by
  cases text with
  | nil => cases h
  | cons d more =>
      simp only [identifier?] at h
      split at h
      · obtain ⟨-, rfl⟩ := Prod.mk.inj (Option.some.inj h)
        exact head?_dropWhile_eq_false isIdentRest more
      · cases h

theorem exists_name_of_directive? {text : List Char} {n : Nat}
    (h : Trivia.directive? text = some n) :
    ∃ name after, text = '@' :: (name ++ after) ∧ isIdentifier name = true ∧
      ∀ c ∈ after.head?, isIdentRest c = false := by
  rw [Trivia.directive?.eq_def] at h
  split at h
  · next rest =>
    obtain ⟨⟨name, after⟩, hname, -⟩ := Option.map_eq_some_iff.1 h
    refine ⟨name, after, ?_, isIdentifier_of_identifier? hname, isIdentRest_of_identifier? hname⟩
    rw [append_of_identifier? hname]
  · cases h

/-- What is taken for a directive is one, and no shorter or longer. -/
theorem exists_pattern_of_directive? {text : List Char} {n : Nat}
    (h : Trivia.directive? text = some n) :
    ∃ span rest, text = span ++ rest ∧ span.length = n ∧ DirectivePattern span rest := by
  obtain ⟨name, after, rfl, hname, hstop⟩ := exists_name_of_directive? h
  rw [directive?_append_of_stop hname hstop, Option.some.injEq] at h
  subst h
  cases hinner : Trivia.parenthesized? (trimStart after) with
  | none =>
      refine ⟨'@' :: name, after, rfl, ?_, .plain hname hstop ?_⟩
      · simp [Nat.add_comm]
      · exact (parenthesized?_trimStart_eq_none_iff after).1 hinner
  | some k =>
      obtain ⟨inner, rest, heq, hclosed, rfl⟩ := exists_inner_of_parenthesized? hinner
      have hblank : ∀ c ∈ after.takeWhile isBlank, isBlank c = true :=
        fun c => List.mem_takeWhile_imp
      refine ⟨_, rest, ?_, ?_, .applied hname hblank hclosed⟩
      · conv_lhs => rw [heq]
        simp
      · simp only [List.length_cons, List.length_append, List.length_nil]
        omega

theorem directive?_of_pattern {span rest : List Char} (h : DirectivePattern span rest) :
    Trivia.directive? (span ++ rest) = some span.length := by
  cases h with
  | @applied name gap inner _ hname hgap hinner =>
      have hopen : ∀ c ∈ ('(' :: (inner ++ ')' :: rest)).head?, isBlank c = false := by
        rintro _ ⟨⟩
        decide
      have hstop : ∀ c ∈ (gap ++ '(' :: (inner ++ ')' :: rest)).head?, isIdentRest c = false := by
        cases gap with
        | nil =>
            rintro _ ⟨⟩
            decide
        | cons d more =>
            rintro _ ⟨⟩
            exact isIdentRest_eq_false (isWordChar_of_isBlank (hgap d List.mem_cons_self))
      have hend : Trivia.parenthesized? ('(' :: (inner ++ ')' :: rest)) =
          some (inner.length + 2) := by
        simp [Trivia.parenthesized?, toParenEnd_append hinner]
      have hsplit : '@' :: (name ++ (gap ++ '(' :: (inner ++ [')']))) ++ rest =
          '@' :: (name ++ (gap ++ '(' :: (inner ++ ')' :: rest))) := by simp
      rw [hsplit, directive?_append_of_stop hname hstop, trimStart, dropWhile_append_eq hgap hopen,
        takeWhile_append_eq hgap hopen, hend]
      simp only [List.length_cons, List.length_append, List.length_nil, Option.some.injEq]
      omega
  | @plain name _ hname hends hplain =>
      rw [List.cons_append, directive?_append_of_stop hname hends,
        (parenthesized?_trimStart_eq_none_iff rest).2 hplain]
      simp [Nat.add_comm]

/-- Directives are found as their pattern says. -/
theorem measures_directive : Measures Trivia.directive? DirectivePattern where
  iff text n := by
    constructor
    · exact exists_pattern_of_directive?
    · rintro ⟨span, rest, rfl, rfl, h⟩
      exact directive?_of_pattern h
  ne_nil span rest h := by
    cases h <;> exact List.cons_ne_nil _ _

end Directives

end ModelGraph
