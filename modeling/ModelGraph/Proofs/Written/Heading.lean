import ModelGraph.Proofs.Written.Stages

/-! # Headings

A declaration begins with the keyword of its kind, its name and its directives, up to the mark that
opens the rest. In the normal form the keyword, the name and the mark are left, and they are read as
they were written (`heading?_of_spaced`). -/

namespace ModelGraph.Written

open Text Trivia Declaration

/-- The keyword of a kind, a name and directives, with a description before them. -/
inductive Heading (kind : Kind) (ident : String) : List Token → Prop
  | mk {before directives : List Token} (hbefore : Description before)
      (hident : isIdentifier ident.toList = true) (hdirectives : Directives directives) :
      Heading kind ident (before ++ .word kind.keyword.toList :: .word ident.toList :: directives)

section Erase

variable {kind : Kind} {ident : String} {heading : List Token}

theorem Heading.isIdentifier (h : Heading kind ident heading) :
    isIdentifier ident.toList = true := by
  obtain ⟨-, hident, -⟩ := h
  exact hident

/-- Of a heading the keyword and the name are left in front of what is left behind it. -/
theorem Heading.erases (h : Heading kind ident heading) {rest left : List Token}
    (hrest : Unapplied rest) (he : Erases anyBlank directive? rest left) :
    Erases anyBlank directive? (bare heading ++ rest)
      (.word kind.keyword.toList :: .word ident.toList :: left) := by
  obtain ⟨hbefore, -, hdirectives⟩ := h
  obtain ⟨_, rfl, he⟩ := passes_directives _ hdirectives.bare _ _ hrest he
  rw [bare_append, hbefore.bare_eq, List.nil_append, bare_word, bare_word]
  exact .keep (opensAt_directive.skips_word _) (.keep (opensAt_directive.skips_word _) he)

end Erase

/-- A keyword and a name are read from the text that begins with them. -/
theorem heading?_append {keyword ident : String} {after : List Char}
    (hident : isIdentifier ident.toList = true) (hends : (Token.word keyword.toList).Ends after)
    {tokens : List Token} (h : Spaced isSpace (.word ident.toList :: tokens) after) :
    ∃ front rest, after = front ++ rest ∧ Spaced isSpace tokens rest ∧
      heading? keyword (keyword.toList ++ after) = some (ident, trimStart rest) := by
  obtain ⟨blanks, rest, rfl, hb, hproper, hquoted, hnameEnds, hrest⟩ := h.cons_inv
  have hbegins := Spaced.begins_text_append hproper hquoted rest
  -- without a blank between them, the keyword would not end before the name
  have hblank : (blanks ++ ((Token.word ident.toList).text ++ rest)).head?.any isBlank = true := by
    cases blanks with
    | cons c more => simpa using (hb c (by simp)).1
    | nil =>
        cases hn : ident.toList with
        | nil => exact absurd hn hproper.1
        | cons c more =>
            have hstop : isWordChar c = false := hends c (by simp [Token.text, hn])
            rw [hproper.2 c (by simp [hn])] at hstop
            cases hstop
  refine ⟨blanks ++ ident.toList, rest, by simp [Token.text], hrest, ?_⟩
  rw [heading?]
  simp only [List.take_left, List.drop_left, decide_true, Bool.true_and, hblank, if_true]
  rw [hb.trimStart_append hbegins]
  simp only [Token.text]
  rw [identifier?_append hident hnameEnds, Option.map_some, String.ofList_toList]

section Read

variable {kind : Kind} {ident : String} (hident : isIdentifier ident.toList = true)
include hident

/-- The keyword and the name are read from a normal form, up to the mark behind them. -/
theorem heading?_of_spaced {c : Char} (hc : c ∈ marks) {left : List Token} {text : List Char}
    (h : Spaced isSpace
      (.word kind.keyword.toList :: .word ident.toList :: .mark c :: left) text)
    (hbegins : Begins text) (hstops : Stops text) :
    ∃ rest, heading? kind.keyword text = some (ident, c :: rest) ∧ Spaced isSpace left rest ∧
      Stops (c :: rest) := by
  obtain ⟨after, rfl, -, -, hends, hafter⟩ := h.cons_inv_of_begins hbegins
  obtain ⟨front, behind, rfl, hbehind, hheading⟩ := heading?_append hident hends hafter
  obtain ⟨blanks, rest, rfl, hb, hrest⟩ := hbehind.mark_inv
  rw [hb.trimStart_append (begins_mark hc rest)] at hheading
  exact ⟨rest, hheading, hrest, hstops.of_append.of_append.of_append⟩

/-- What stands in braces behind a heading is found in the normal form of every text that says
it. -/
theorem heading?_of_braces {tokens row : List Token} {text : List Char}
    (h : Spaced anyBlank tokens (blankOut trivium? text))
    (he : Erases anyBlank directive? tokens
      (.word kind.keyword.toList :: .word ident.toList ::
        .mark '\x7b' :: (row ++ [.mark '\x7d']))) :
    ∃ body, Spaced isSpace row body ∧
      heading? kind.keyword (normalForm text) = some (ident, '\x7b' :: (body ++ ['\x7d'])) := by
  obtain ⟨hspaced, hbegins, hstops⟩ := h.normalForm opensAt_directive he
  obtain ⟨rest, hheading, hrest, hstops⟩ :=
    heading?_of_spaced hident (by decide) hspaced hbegins hstops
  obtain ⟨body, hbody, hspacedBody⟩ :=
    (hrest.mark (by decide)).between_marks (begins_mark (by decide) rest) hstops
  rw [hbody] at hheading
  exact ⟨body, hspacedBody, hheading⟩

end Read

theorem braced?_append (body : List Char) :
    braced? ('\x7b' :: (body ++ ['\x7d'])) = some body :=
  dropLast?_concat '\x7d' body

end ModelGraph.Written
