import ModelGraph.Proofs.Document.Definition
import ModelGraph.Proofs.Document.Parting

/-! # Documents one behind the other

At the seam of two documents a reader may be in the middle of a declaration. If that declaration is
one that a blank line ends, then the blank line between the documents is such an end, and the second
document is read as if it stood alone (`split_append`). What a reader does in the first document it
does with the second one behind it, since a blank line ahead is the same as nothing ahead.

## Implementation notes

A reader does not keep the word with which the open declaration begins, but only whether a blank
line ends it. `Opened.Marked` ties that mark to the word, so that the seam can be described by the
text. -/

namespace ModelGraph.Document

open Text Written

/-- The keywords of declarations that no blank line ends. -/
def bracedKeywords : List String :=
  ["enum", "extend", "input", "interface", "schema", "type"]

theorem bracedKeywords_eq :
    bracedKeywords = keywords.filter fun keyword => !bracelessKeywords.contains keyword := by
  decide

/-- A declaration that begins with the lexeme goes on behind a blank line. -/
def Lexeme.OpensBraced : Lexeme → Prop
  | word text => String.ofList text ∈ bracedKeywords
  | comment _ | quoted _ | single _ => False

/-- The declaration has no braces, and does not begin with a keyword that asks for them. -/
structure Opened.Braceless (opened : Opened) : Prop where
  braced : opened.braced = false
  first : ∀ lexeme ∈ opened.row.head?, ¬ lexeme.OpensBraced

/-- The mark of the declaration tells whether its first lexeme lets a blank line end it. -/
def Opened.Marked (opened : Opened) : Prop :=
  ∃ lexeme ∈ opened.row.head?, opened.endsAtBlankLine = true ↔ ¬ lexeme.OpensBraced

section Marked

variable {before after : Opened} {lexeme : Lexeme}

theorem Opened.marked_atWord (text : List Char) : (atWord text).Marked := by
  refine ⟨.word text, rfl, ?_⟩
  simp [atWord, Lexeme.OpensBraced, bracedKeywords_eq, imp_iff_not_or]

theorem Opened.marked_atBrace : atBrace.Marked := by
  refine ⟨.single '\x7b', rfl, ?_⟩
  simp [atBrace, Lexeme.OpensBraced]

/-- The first lexeme stays the first, and the mark is not changed. -/
theorem Opened.Marked.grown (h : before.Marked)
    (hbackwards : after.backwards = lexeme :: before.backwards)
    (hmark : after.endsAtBlankLine = before.endsAtBlankLine) : after.Marked := by
  obtain ⟨first, hfirst, hmarked⟩ := h
  refine ⟨first, ?_, by rw [hmark, hmarked]⟩
  rw [Opened.row_grown hbackwards, List.head?_append, Option.mem_def.1 hfirst]
  rfl

end Marked

namespace Reader

variable {reader : Reader}

/-- The declaration that is open, if one is, tells by its mark how it begins. -/
def Marked (reader : Reader) : Prop :=
  ∀ opened ∈ reader.opened, opened.Marked

theorem marked_start : start.Marked := by
  intro opened hopened
  cases hopened

theorem Marked.pass (h : reader.Marked) (lexeme : Lexeme) : (reader.pass lexeme).2.Marked := by
  intro opened hopened
  obtain ⟨before, hbefore, rfl⟩ := Option.map_eq_some_iff.1 hopened
  exact (h before hbefore).grown rfl rfl

theorem Marked.word (h : reader.Marked) (text : List Char) : (reader.word text).2.Marked := by
  have hpass := h.pass (.word text)
  have hfirst : Marked ⟨some (.atWord text), reader.depth⟩ := by
    rintro _ ⟨⟩
    exact Opened.marked_atWord text
  simp only [Reader.word]
  split
  · exact hpass
  · split
    · exact hfirst
    · next before hbefore =>
      split
      · rintro _ ⟨⟩
        exact (h before hbefore).grown rfl rfl
      · split
        · exact hfirst
        · exact hpass

theorem Marked.openBrace (h : reader.Marked) : reader.openBrace.2.Marked := by
  intro opened hopened
  simp only [Reader.openBrace] at hopened
  split at hopened
  · next before hbefore =>
    cases hopened
    exact (h before hbefore).grown rfl rfl
  · split at hopened
    · cases hopened
      exact Opened.marked_atBrace
    · cases hopened

theorem Marked.closeBrace (h : reader.Marked) : reader.closeBrace.2.Marked := by
  intro opened hopened
  simp only [Reader.closeBrace] at hopened
  split at hopened
  · next after hafter =>
    obtain ⟨before, hbefore, rfl⟩ := Option.map_eq_some_iff.1 hafter
    split at hopened
    · cases hopened
    · cases hopened
      exact (h before hbefore).grown rfl rfl
  · cases hopened

theorem Marked.newline (h : reader.Marked) (blankAhead : Bool) :
    (reader.newline blankAhead).2.Marked := by
  simp only [Reader.newline]
  split
  · split
    · intro opened hopened
      cases hopened
    · exact h.pass (.single '\n')
  · exact h

theorem Marked.step (h : reader.Marked) (ahead : List Lexeme) (lexeme : Lexeme) :
    (reader.step ahead lexeme).2.Marked := by
  cases lexeme with
  | comment | quoted => exact h.pass _
  | word text => exact h.word text
  | single c =>
      simp only [Reader.step]
      split
      · exact h.openBrace
      · split
        · exact h.closeBrace
        · split
          · exact h.newline _
          · exact h.pass _

/-- Where a reader stands behind a row at the end of a document. -/
def after (reader : Reader) : List Lexeme → Reader
  | [] => reader
  | lexeme :: ahead => (reader.step ahead lexeme).2.after ahead

/-- What every step keeps holds behind the row. -/
theorem after_induction {P : Reader → Prop}
    (hstep : ∀ reader ahead lexeme, P reader → P (reader.step ahead lexeme).2) (h : P reader)
    (row : List Lexeme) : P (reader.after row) := by
  induction row generalizing reader with
  | nil => exact h
  | cons lexeme ahead ih => exact ih (hstep reader ahead lexeme h)

end Reader

section Seam

variable (row rest : List Lexeme)

/-- A line ends at the end of the document as it does at a further end of line. -/
theorem blankLineAhead_append_newline :
    blankLineAhead (row ++ .single '\n' :: rest) = blankLineAhead row := by
  induction row with
  | nil => rfl
  | cons lexeme row ih =>
      cases lexeme with
      | comment | quoted | word => rfl
      | single c => simp only [List.cons_append, blankLineAhead, ih]

theorem Reader.step_append_newline (reader : Reader) (lexeme : Lexeme) :
    reader.step (row ++ .single '\n' :: rest) lexeme = reader.step row lexeme := by
  cases lexeme with
  | comment | quoted | word => rfl
  | single c => simp only [Reader.step, blankLineAhead_append_newline]

/-- With an end of line behind it, a row is read as at the end of a document, but for the
declaration that is open there. -/
theorem Reader.exists_declarations_append (reader : Reader) :
    ∃ ended, reader.declarations row = ended ++ (reader.after row).opened.toList ∧
      reader.declarations (row ++ .single '\n' :: rest) =
        ended ++ (reader.after row).declarations (.single '\n' :: rest) := by
  induction row generalizing reader with
  | nil => exact ⟨[], rfl, rfl⟩
  | cons lexeme ahead ih =>
      obtain ⟨ended, halone, hfollowed⟩ := ih (reader.step ahead lexeme).2
      rw [List.cons_append, Reader.declarations, Reader.declarations, step_append_newline,
        Reader.after]
      generalize reader.step ahead lexeme = out at halone hfollowed ⊢
      obtain ⟨_ | first, next⟩ := out
      · exact ⟨ended, halone, hfollowed⟩
      · exact ⟨first :: ended, congrArg (first :: ·) halone, congrArg (first :: ·) hfollowed⟩

variable {rest}

/-- A blank line ends the declaration that is open, if it is one that blank lines end, and leaves
the reader where it was at the start. -/
theorem Reader.Coherent.declarations_blankLine {reader : Reader} (h : reader.Coherent)
    (hmarked : reader.Marked) (hends : ∀ opened ∈ reader.opened, opened.Braceless) :
    reader.declarations (.single '\n' :: .single '\n' :: rest) =
      reader.opened.toList ++ start.declarations rest := by
  obtain ⟨_ | opened, depth⟩ := reader
  · obtain rfl := coherent_none.1 h
    rfl
  · obtain ⟨hbraced, hfirst⟩ := hends opened rfl
    obtain ⟨lexeme, hlexeme, hmark⟩ := hmarked opened rfl
    have hblank : opened.endsAtBlankLine = true := hmark.2 (hfirst lexeme hlexeme)
    obtain rfl : depth = 0 := by
      have houtside : ¬ 0 < depth := by
        rw [← coherent_some.1 h, hbraced]
        exact Bool.false_ne_true
      omega
    have hstep : Reader.step ⟨some opened, 0⟩ (.single '\n' :: rest) (.single '\n') =
        (some opened, start) := by
      simp [Reader.step, Reader.newline, hbraced, hblank, blankLineAhead, start]
    rw [Reader.declarations, hstep]
    rfl

end Seam

section Documents

variable {first : List Char} (second : List Char)

/-- A document is read for itself if an end of line stands behind it. -/
theorem lexemes_append_blankLine
    (hcomplete : ∀ literal, .quoted literal ∈ lexemes first → Complete literal) :
    lexemes (first ++ '\n' :: '\n' :: second) =
      lexemes first ++ .single '\n' :: .single '\n' :: lexemes second := by
  have hword : isIdentRest '\n' = false := by decide
  have hline : isBlank '\n' = true := by decide
  have hblank : ∀ c ∈ ['\n', '\n'], isBlank c = true := by simpa using hline
  have hgap : lexemes ('\n' :: '\n' :: second) = .single '\n' :: .single '\n' :: lexemes second :=
    lexemes_gap hblank second
  rw [lexemes_append hcomplete, hgap]
  rintro lexeme - c ⟨⟩
  cases lexeme with
  | comment => rfl
  | quoted => exact fun _ => by decide
  | word => exact hword
  | single => trivial

/-- The chunks of two documents with a blank line between them are those of the first and those of
the second, if a blank line ends the declaration that the first one leaves open. -/
theorem chunks_append (hcomplete : ∀ literal, .quoted literal ∈ lexemes first → Complete literal)
    (hends : ∀ opened ∈ (Reader.start.after (lexemes first)).opened, opened.Braceless) :
    chunks (first ++ '\n' :: '\n' :: second) = chunks first ++ chunks second := by
  have hcoherent : (Reader.start.after (lexemes first)).Coherent :=
    Reader.after_induction (fun _ ahead lexeme h => h.step ahead lexeme) Reader.coherent_start _
  have hmarked : (Reader.start.after (lexemes first)).Marked :=
    Reader.after_induction (fun _ ahead lexeme h => h.step ahead lexeme) Reader.marked_start _
  obtain ⟨ended, halone, hfollowed⟩ :=
    Reader.start.exists_declarations_append (lexemes first) (.single '\n' :: lexemes second)
  rw [hcoherent.declarations_blankLine hmarked hends, ← List.append_assoc, ← halone] at hfollowed
  rw [chunks, lexemes_append_blankLine second hcomplete, hfollowed, List.map_append]
  rfl

end Documents

/-- A document whose literals are complete, and which leaves no declaration open that needs braces,
is split for itself: with a blank line and a second document behind it, the declarations are those
of the first document and then those of the second. -/
theorem split_append (splitter : Splitter) {first : String} (second : String)
    (hcomplete : ∀ literal, .quoted literal ∈ lexemes first.toList → Complete literal)
    (hends : ∀ opened ∈ (Reader.start.after (lexemes first.toList)).opened, opened.Braceless) :
    splitter.split (first ++ "\n\n" ++ second) =
      splitter.split first ++ splitter.split second := by
  have htext : (first ++ "\n\n" ++ second).toList =
      first.toList ++ '\n' :: '\n' :: second.toList := by
    simp
  rw [Splitter.split, Splitter.keptChunks, htext, chunks_append second.toList hcomplete hends,
    List.filter_append, List.map_append]
  rfl

/-- A union without a blank line behind it, a comment and a literal with a backslash before an end
of line in it, and a second document that would go on with its alternatives. -/
theorem split_append_union :
    Splitter.standard.split
        ("type A \x7b id: ID \x7d\nunion U = \"\\\n\" A # B" ++ "\n\n" ++
          "| C enum E \x7b X \x7d") =
      ["type A \x7b id: ID \x7d", "union U = \"\\\n\" A # B", "C", "enum E \x7b X \x7d"] := by
  have hliterals : (lexemes "type A \x7b id: ID \x7d\nunion U = \"\\\n\" A # B".toList).filter
      (fun lexeme => lexeme matches .quoted _) = [.quoted ['"', '\\', '\n', '"']] := by
    decide +kernel
  have hcomplete : ∀ literal,
      .quoted literal ∈ lexemes "type A \x7b id: ID \x7d\nunion U = \"\\\n\" A # B".toList →
        Complete literal := by
    intro literal hmem
    have honly : .quoted literal ∈ [Lexeme.quoted ['"', '\\', '\n', '"']] := by
      rw [← hliterals]
      exact List.mem_filter.2 ⟨hmem, rfl⟩
    obtain rfl : literal = '"' :: (['\\', '\n'] ++ ['"']) := by simpa using honly
    exact .line (.escaped trivial .nil)
  have hopen : (Reader.start.after
        (lexemes "type A \x7b id: ID \x7d\nunion U = \"\\\n\" A # B".toList)).opened.map
      (fun opened => (opened.braced, opened.row.head?)) =
        some (false, some (.word "union".toList)) := by
    decide +kernel
  have hunion : String.ofList "union".toList ∉ bracedKeywords := by decide
  rw [split_append _ _ hcomplete]
  · decide +kernel
  · intro opened hopened
    rw [Option.mem_def.1 hopened, Option.map_some, Option.some.injEq, Prod.mk.injEq] at hopen
    refine ⟨hopen.1, ?_⟩
    rw [hopen.2]
    rintro _ ⟨⟩
    exact hunion

end ModelGraph.Document
