import ModelGraph.Document.Splitter
import ModelGraph.Proofs.Document.Reading
import ModelGraph.Proofs.Document.Row
import ModelGraph.Proofs.Written.TypeText

/-! # Normal forms of chunks

In a row of lexemes on which the recogniser of trivia agrees with the reader (`Plain`) every comment
and every literal is blanked out, whatever its text (`Plain.blankOut_written`). So documents that
differ in nothing else have chunks of the same normal forms (`chunks_alike`). -/

namespace ModelGraph.Document

open Text Written

/-- A row that is read back, with literals that end where the recogniser of trivia ends them. -/
structure Plain (row : List Lexeme) : Prop where
  lexed : Lexed [] row
  literals : ∀ literal, .quoted literal ∈ row → Closed literal ∧ EndsAtFirstQuotes literal

theorem plain_lexemes {document : List Char} (h : ∀ literal,
    .quoted literal ∈ lexemes document → Closed literal ∧ EndsAtFirstQuotes literal) :
    Plain (lexemes document) :=
  ⟨lexed_lexemes fun literal hmem => (h literal hmem).1.complete, h⟩

theorem Plain.of_isInfix {row part : List Lexeme} (h : Plain row) (hpart : part <:+: row) :
    Plain part :=
  ⟨h.lexed.of_isInfix hpart, fun literal hmem => h.literals literal (hpart.subset hmem)⟩

section Bare

/-- What is left of a lexeme when trivia are blanked out. -/
def Lexeme.bare : Lexeme → List Char
  | comment _ | quoted _ => [' ']
  | word text => text
  | single c => [c]

theorem Lexeme.Alike.bare_eq {lexeme other : Lexeme} (h : lexeme.Alike other) :
    lexeme.bare = other.bare := by
  cases h <;> rfl

theorem flatMap_bare_alike {row other : List Lexeme} (h : List.Forall₂ Lexeme.Alike row other) :
    row.flatMap Lexeme.bare = other.flatMap Lexeme.bare := by
  induction h with
  | nil => rfl
  | cons hlexeme _ ih => rw [List.flatMap_cons, List.flatMap_cons, hlexeme.bare_eq, ih]

theorem blankOut_span {recognise : Recogniser} {text rest : List Char} (hne : text ≠ [])
    (h : recognise (text ++ rest) = some text.length) :
    blankOut recognise (text ++ rest) = ' ' :: blankOut recognise rest := by
  cases text with
  | nil => exact absurd rfl hne
  | cons c more =>
      have hspan : recognise (c :: (more ++ rest)) = some (more.length + 1) := h
      rw [List.cons_append, blankOut_of_some hspan, List.drop_left]

/-- Blanking out trivia takes one lexeme at a time. -/
theorem blankOut_text_append {lexeme : Lexeme} {rest : List Char} (hproper : lexeme.Proper)
    (hends : lexeme.Ends rest)
    (hliteral : ∀ literal, lexeme = .quoted literal → Closed literal ∧ EndsAtFirstQuotes literal) :
    blankOut Trivia.trivium? (lexeme.text ++ rest) =
      lexeme.bare ++ blankOut Trivia.trivium? rest := by
  have hne := Lexeme.text_ne_nil hproper
  cases lexeme with
  | comment text =>
      obtain ⟨body, hbody, rfl⟩ := hproper
      exact blankOut_span hne (longLexeme?_comment hbody hends)
  | quoted text =>
      obtain ⟨hclosed, hfirst⟩ := hliteral text rfl
      exact blankOut_span hne (trivium?_literal hclosed hfirst fun htwo c hc => hends c hc htwo)
  | word text =>
      refine blankOut_append_of_none (fun c hc more => ?_) rest
      have hc := isIdentRest_of_isIdentifier hproper c hc
      refine trivium?_eq_none ?_ ?_ more <;> rintro rfl <;> exact absurd hc (by decide)
  | single c =>
      exact blankOut_of_none (trivium?_eq_none hproper.2.1 hproper.1 rest)

theorem Plain.blankOut_written {row : List Lexeme} (h : Plain row) :
    blankOut Trivia.trivium? (written row) = row.flatMap Lexeme.bare := by
  obtain ⟨hlexed, hliterals⟩ := h
  induction hlexed with
  | nil => rfl
  | @cons lexeme row hproper hends _ ih =>
      rw [List.append_nil] at hends
      have hliteral : ∀ literal, lexeme = .quoted literal →
          Closed literal ∧ EndsAtFirstQuotes literal := by
        rintro literal rfl
        exact hliterals literal List.mem_cons_self
      have hrow := ih fun literal hmem => hliterals literal (List.mem_cons_of_mem lexeme hmem)
      rw [written, List.flatMap_cons, List.flatMap_cons,
        blankOut_text_append hproper hends hliteral, hrow]

end Bare

section Trim

/-- A single blank character. -/
def Lexeme.isGap : Lexeme → Bool
  | single c => isBlank c
  | _ => false

/-- A comment, to the end of its line. -/
def Lexeme.isComment : Lexeme → Bool
  | comment _ => true
  | _ => false

/-- What is left of a row, last lexeme first, when the blanks at the end are dropped. A comment that
ends the row loses those at its own end. -/
def trimmedBack : List Lexeme → List Lexeme
  | .single c :: back => if isBlank c then trimmedBack back else .single c :: back
  | .comment text :: back => .comment (trimEnd text) :: back
  | back => back

theorem trimEnd_append_blank {c : Char} (hc : isBlank c = true) (text : List Char) :
    trimEnd (text ++ [c]) = trimEnd text := by
  simp [trimEnd, hc]

theorem trimEnd_append_cons {c : Char} (hc : isBlank c = false) (front rest : List Char) :
    trimEnd (front ++ c :: rest) = front ++ c :: trimEnd rest := by
  have hdrop : (rest.reverse ++ c :: front.reverse).dropWhile isBlank =
      rest.reverse.dropWhile isBlank ++ c :: front.reverse := by
    rw [List.dropWhile_append]
    cases rest.reverse.dropWhile isBlank <;> simp [hc]
  simp [trimEnd, hdrop]

/-- A proper lexeme other than a blank begins without one. -/
theorem begins_text_append {lexeme : Lexeme} (hproper : lexeme.Proper)
    (hgap : lexeme.isGap = false) (rest : List Char) : Begins (lexeme.text ++ rest) := by
  cases lexeme with
  | comment text =>
      obtain ⟨body, -, rfl⟩ := hproper
      rintro c ⟨⟩
      decide
  | quoted text =>
      cases hproper <;> rintro c ⟨⟩ <;> decide
  | word text =>
      cases text with
      | nil => cases hproper
      | cons d more =>
          rintro c ⟨⟩
          exact isBlank_of_isIdentRest (isIdentRest_of_isIdentifier hproper d List.mem_cons_self)
  | single d =>
      rintro c ⟨⟩
      exact hgap

/-- A proper lexeme that is neither a blank nor a comment ends without a blank. -/
theorem exists_text_eq_concat {lexeme : Lexeme} (hproper : lexeme.Proper)
    (hgap : lexeme.isGap = false) (hcomment : lexeme.isComment = false) :
    ∃ front c, lexeme.text = front ++ [c] ∧ isBlank c = false := by
  cases lexeme with
  | comment => cases hcomment
  | quoted text =>
      cases hproper with
      | @line content _ => exact ⟨'"' :: content, '"', rfl, by decide⟩
      | @block content _ =>
          refine ⟨blockQuotes ++ content ++ ['"', '"'], '"', ?_, by decide⟩
          simp [Lexeme.text, blockQuotes]
  | word text =>
      have hne : (Lexeme.word text).text ≠ [] := Lexeme.text_ne_nil hproper
      refine ⟨text.dropLast, text.getLast hne, (List.dropLast_append_getLast hne).symm, ?_⟩
      exact isBlank_of_isIdentRest (isIdentRest_of_isIdentifier hproper _ (List.getLast_mem hne))
  | single c => exact ⟨[], c, rfl, hgap⟩

theorem trimStart_written {row : List Lexeme} (h : ∀ lexeme ∈ row, lexeme.Proper) :
    trimStart (written row) = written (row.dropWhile Lexeme.isGap) := by
  induction row with
  | nil => rfl
  | cons lexeme row ih =>
      cases hgap : lexeme.isGap with
      | true =>
          cases lexeme with
          | single c =>
              have hblank : isBlank c = true := hgap
              have hrest := ih fun other hmem => h other (List.mem_cons_of_mem _ hmem)
              rw [List.dropWhile_cons_of_pos hgap, ← hrest]
              simp [written, Lexeme.text, trimStart, hblank]
          | comment | quoted | word => cases hgap
      | false =>
          rw [List.dropWhile_cons_of_neg (by simp [hgap])]
          exact trimStart_of_begins (begins_text_append (h lexeme List.mem_cons_self) hgap _)

/-- Trimming stops at a last lexeme that is neither a blank nor a comment. -/
theorem trimEnd_append_text {lexeme : Lexeme} (hproper : lexeme.Proper)
    (hgap : lexeme.isGap = false) (hcomment : lexeme.isComment = false)
    (front : List Char) : trimEnd (front ++ lexeme.text) = front ++ lexeme.text := by
  obtain ⟨init, c, htext, hc⟩ := exists_text_eq_concat hproper hgap hcomment
  rw [htext, ← List.append_assoc, trimEnd_append_cons hc]
  rfl

theorem trimEnd_written {back : List Lexeme} (h : ∀ lexeme ∈ back, lexeme.Proper) :
    trimEnd (written back.reverse) = written (trimmedBack back).reverse := by
  induction back with
  | nil => rfl
  | cons lexeme back ih =>
      have hrest := ih fun other hmem => h other (List.mem_cons_of_mem _ hmem)
      have hproper := h lexeme List.mem_cons_self
      have hsplit : ∀ last : Lexeme,
          written (last :: back).reverse = written back.reverse ++ last.text := by
        simp [written]
      rw [hsplit]
      cases lexeme with
      | single c =>
          rw [trimmedBack]
          cases hc : isBlank c with
          | true => rw [if_pos rfl, ← hrest, Lexeme.text, trimEnd_append_blank hc]
          | false =>
              rw [if_neg (by simp), hsplit]
              exact trimEnd_append_text hproper hc rfl _
      | comment text =>
          obtain ⟨body, -, rfl⟩ := hproper
          have hsign : isBlank '#' = false := by decide
          have hself : trimEnd ('#' :: body) = '#' :: trimEnd body :=
            trimEnd_append_cons hsign [] body
          rw [trimmedBack, hsplit, Lexeme.text, Lexeme.text, trimEnd_append_cons hsign, hself]
      | quoted | word =>
          rw [trimmedBack, hsplit]
          · exact trimEnd_append_text hproper rfl rfl _
          · rintro _ _ ⟨⟩
          · rintro _ _ ⟨⟩

theorem dropGaps_alike {row other : List Lexeme} (h : List.Forall₂ Lexeme.Alike row other) :
    List.Forall₂ Lexeme.Alike (row.dropWhile Lexeme.isGap) (other.dropWhile Lexeme.isGap) := by
  induction h with
  | nil => exact .nil
  | @cons lexeme lexeme' row other hlexeme hrow ih =>
      have hgap : lexeme'.isGap = lexeme.isGap := by cases hlexeme <;> rfl
      rw [List.dropWhile_cons, List.dropWhile_cons, hgap]
      split
      · exact ih
      · exact .cons hlexeme hrow

theorem trimmedBack_alike {back other : List Lexeme} (h : List.Forall₂ Lexeme.Alike back other) :
    List.Forall₂ Lexeme.Alike (trimmedBack back) (trimmedBack other) := by
  induction h with
  | nil => exact .nil
  | @cons lexeme lexeme' back other hlexeme hback ih =>
      cases hlexeme with
      | comments first second => exact .cons (.comments _ _) hback
      | literals first second => exact .cons (.literals first second) hback
      | same =>
          cases lexeme with
          | comment text => exact .cons (.same _) hback
          | quoted text => exact .cons (.same _) hback
          | word text => exact .cons (.same _) hback
          | single c =>
              rw [trimmedBack, trimmedBack]
              split
              · exact ih
              · exact .cons (.same _) hback

/-- Trimming leaves a row as it was up to some lexeme, which may be a comment that got shorter. -/
theorem Plain.trimmedBack {back : List Lexeme} (h : Plain back.reverse) :
    Plain (trimmedBack back).reverse := by
  induction back with
  | nil => exact h
  | cons lexeme back ih =>
      have hback : Plain back.reverse := by
        refine h.of_isInfix ?_
        rw [List.reverse_cons]
        exact (List.prefix_append _ _).isInfix
      cases lexeme with
      | single c =>
          rw [Document.trimmedBack]
          split
          · exact ih hback
          · exact h
      | comment text =>
          have hrow := h.lexed
          rw [List.reverse_cons] at hrow
          obtain ⟨hfront, hlast⟩ := hrow.append_inv
          obtain ⟨body, hbody, rfl⟩ := hlast.proper List.mem_cons_self
          have hself : trimEnd ('#' :: body) = '#' :: trimEnd body :=
            trimEnd_append_cons (by decide) [] body
          rw [Document.trimmedBack, hself, List.reverse_cons]
          refine ⟨.append (hfront.of_head? fun c hc => hc) (.cons ?_ (Lexeme.ends_nil _) .nil), ?_⟩
          · exact ⟨trimEnd body, fun hmem => hbody ((trimEnd_isPrefix body).subset hmem), rfl⟩
          · intro literal hmem
            rcases List.mem_append.1 hmem with hmem | hmem
            · exact hback.literals literal hmem
            · cases List.mem_singleton.1 hmem
      | quoted | word => exact h

end Trim

section Chunk

/-- The lexemes of a chunk. -/
def Opened.trimmed (opened : Opened) : List Lexeme :=
  (trimmedBack (opened.row.dropWhile Lexeme.isGap).reverse).reverse

variable {first second : Opened}

theorem Opened.chunk_eq (h : Plain first.row) : first.chunk = written first.trimmed := by
  have hproper : ∀ lexeme ∈ (first.row.dropWhile Lexeme.isGap).reverse, lexeme.Proper :=
    fun lexeme hmem => h.lexed.proper
      ((List.dropWhile_sublist _).subset (List.mem_reverse.1 hmem))
  have hend := trimEnd_written hproper
  rw [List.reverse_reverse] at hend
  calc first.chunk = trimEnd (trimStart (written first.row)) := rfl
    _ = trimEnd (written (first.row.dropWhile Lexeme.isGap)) := by
        rw [trimStart_written fun lexeme hmem => h.lexed.proper hmem]
    _ = written first.trimmed := hend

theorem Opened.plain_trimmed (h : Plain first.row) : Plain first.trimmed := by
  refine Plain.trimmedBack ?_
  rw [List.reverse_reverse]
  exact h.of_isInfix (List.dropWhile_suffix _).isInfix

theorem Opened.Alike.trimmed (h : Opened.Alike first second) :
    List.Forall₂ Lexeme.Alike first.trimmed second.trimmed := by
  refine List.rel_reverse (trimmedBack_alike (List.rel_reverse (dropGaps_alike ?_)))
  exact List.rel_reverse h.backwards

/-- Declarations that differ in nothing but the text of comments and literals have chunks of the
same normal form. -/
theorem Opened.Alike.normalForm_eq (h : Opened.Alike first second) (hfirst : Plain first.row)
    (hsecond : Plain second.row) : normalForm first.chunk = normalForm second.chunk := by
  have hbare := flatMap_bare_alike h.trimmed
  rw [normalForm, normalForm, normalWords, normalWords, Opened.chunk_eq hfirst,
    Opened.chunk_eq hsecond, (Opened.plain_trimmed hfirst).blankOut_written,
    (Opened.plain_trimmed hsecond).blankOut_written, hbare]

end Chunk

section Documents

variable {document other : List Char}

/-- Documents that differ in nothing but the text of comments and literals have as many chunks, of
the same normal forms. -/
theorem chunks_alike (h : List.Forall₂ Lexeme.Alike (lexemes document) (lexemes other))
    (hdocument : Plain (lexemes document)) (hother : Plain (lexemes other)) :
    List.Forall₂ (fun chunk chunk' => normalForm chunk = normalForm chunk') (chunks document)
      (chunks other) := by
  have hopened := declarations_alike h (.outside 0)
  have hsecond := (List.forall₂_and_left _ _).2
    ⟨fun opened hmem => hother.of_isInfix (isInfix_of_mem_declarations hmem), hopened.flip⟩
  have hboth := (List.forall₂_and_left _ _).2
    ⟨fun opened hmem => hdocument.of_isInfix (isInfix_of_mem_declarations hmem), hsecond.flip⟩
  refine List.forall₂_map_left_iff.2 (List.forall₂_map_right_iff.2 (hboth.imp ?_))
  rintro first second ⟨hfirst, hsecond, halike⟩
  exact halike.normalForm_eq hfirst hsecond

/-- Whether a chunk is dropped depends on its normal form. -/
theorem Splitter.dropped?_congr {splitter : Splitter} {chunk chunk' : List Char}
    (h : normalForm chunk = normalForm chunk') :
    splitter.dropped? chunk = splitter.dropped? chunk' := by
  have hheading : heading chunk = heading chunk' := by rw [heading, heading, h]
  rw [dropped?, dropped?, hheading]

/-- The splitter keeps the same of them. -/
theorem keptChunks_alike (splitter : Splitter)
    (h : List.Forall₂ Lexeme.Alike (lexemes document) (lexemes other))
    (hdocument : Plain (lexemes document)) (hother : Plain (lexemes other)) :
    List.Forall₂ (fun chunk chunk' => normalForm chunk = normalForm chunk')
      (splitter.keptChunks document) (splitter.keptChunks other) := by
  have hchunks := chunks_alike h hdocument hother
  refine List.rel_filter ?_ hchunks
  intro chunk chunk' heq
  simp only [Splitter.dropped?_congr heq]

end Documents

end ModelGraph.Document
