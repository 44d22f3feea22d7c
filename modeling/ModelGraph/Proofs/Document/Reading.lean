import Mathlib.Data.List.Forall2
import ModelGraph.Document.Chunk

/-! # What a reader of declarations sees

A reader looks neither into comments nor into literals: of two rows of lexemes that differ in
nothing else it takes declarations that differ in nothing else (`declarations_alike`). What it takes
are parts of the row (`isInfix_of_mem_declarations`). -/

namespace ModelGraph.Document

/-- The same lexeme, but for the text of a comment or of a literal. -/
inductive Lexeme.Alike : Lexeme → Lexeme → Prop
  | same (lexeme : Lexeme) : Alike lexeme lexeme
  | comments (first second : List Char) : Alike (.comment first) (.comment second)
  | literals (first second : List Char) : Alike (.quoted first) (.quoted second)

/-- Declarations of which the same has been read. -/
structure Opened.Alike (first second : Opened) : Prop where
  backwards : List.Forall₂ Lexeme.Alike first.backwards second.backwards
  braced : first.braced = second.braced
  endsAtBlankLine : first.endsAtBlankLine = second.endsAtBlankLine
  awaitsWord : first.awaitsWord = second.awaitsWord

/-- Readers that stand at the same place. -/
inductive Reader.Alike : Reader → Reader → Prop
  | outside (depth : Nat) : Alike ⟨none, depth⟩ ⟨none, depth⟩
  | inside {first second : Opened} (h : Opened.Alike first second) (depth : Nat) :
      Alike ⟨some first, depth⟩ ⟨some second, depth⟩

/-- Two readers hand out the same and go on from the same place. -/
inductive Reader.AlikeAfter : Option Opened × Reader → Option Opened × Reader → Prop
  | silent {first second : Reader} (h : Reader.Alike first second) :
      AlikeAfter (none, first) (none, second)
  | ended {opened opened' : Opened} (ho : Opened.Alike opened opened') {first second : Reader}
      (h : Reader.Alike first second) : AlikeAfter (some opened, first) (some opened', second)

theorem alike_rows_refl (row : List Lexeme) : List.Forall₂ Lexeme.Alike row row :=
  List.forall₂_same.2 fun lexeme _ => .same lexeme

theorem Opened.Alike.refl (opened : Opened) : Opened.Alike opened opened :=
  ⟨alike_rows_refl opened.backwards, rfl, rfl, rfl⟩

theorem Opened.Alike.push {first second : Opened} (h : Opened.Alike first second)
    {lexeme other : Lexeme} (hlexeme : lexeme.Alike other) :
    Opened.Alike (first.push lexeme) (second.push other) :=
  ⟨.cons hlexeme h.backwards, h.braced, h.endsAtBlankLine, h.awaitsWord⟩

theorem blankLineAhead_alike {row other : List Lexeme} (h : List.Forall₂ Lexeme.Alike row other) :
    blankLineAhead row = blankLineAhead other := by
  induction h with
  | nil => rfl
  | @cons lexeme _ _ _ hlexeme _ ih =>
      cases hlexeme with
      | same =>
          cases lexeme with
          | single c => simp only [blankLineAhead, ih]
          | comment | quoted | word => rfl
      | comments | literals => rfl

namespace Reader.Alike

variable {first second : Reader}

theorem pass (h : Reader.Alike first second) {lexeme other : Lexeme}
    (hlexeme : lexeme.Alike other) : AlikeAfter (first.pass lexeme) (second.pass other) := by
  cases h with
  | outside depth => exact .silent (.outside depth)
  | inside ho depth => exact .silent (.inside (ho.push hlexeme) depth)

theorem word (h : Reader.Alike first second) (text : List Char) :
    AlikeAfter (first.word text) (second.word text) := by
  have hpass := h.pass (.same (.word text))
  have hopens := Opened.Alike.refl (.atWord text)
  cases h with
  | outside depth =>
      simp only [Reader.word]
      split
      · exact hpass
      · exact .silent (.inside hopens depth)
  | inside ho depth =>
      simp only [Reader.word, ho.awaitsWord]
      split
      · exact hpass
      · split
        · have hpushed := ho.push (.same (.word text))
          refine .silent (.inside ?_ depth)
          exact ⟨hpushed.backwards, hpushed.braced, hpushed.endsAtBlankLine, rfl⟩
        · split
          · exact .ended ho (.inside hopens depth)
          · exact hpass

theorem openBrace (h : Reader.Alike first second) :
    AlikeAfter first.openBrace second.openBrace := by
  cases h with
  | outside depth =>
      simp only [Reader.openBrace]
      split
      · exact .silent (.inside (.refl .atBrace) _)
      · exact .silent (.outside _)
  | inside ho depth =>
      have hpushed := ho.push (.same (.single '\x7b'))
      refine .silent (.inside ?_ (depth + 1))
      exact ⟨hpushed.backwards, rfl, hpushed.endsAtBlankLine, hpushed.awaitsWord⟩

theorem closeBrace (h : Reader.Alike first second) :
    AlikeAfter first.closeBrace second.closeBrace := by
  cases h with
  | outside depth => exact .silent (.outside _)
  | @inside opened opened' ho depth =>
      have hpushed := ho.push (.same (.single '\x7d'))
      simp only [Reader.closeBrace, Option.map_some, hpushed.braced]
      split
      · exact .ended hpushed (.outside _)
      · exact .silent (.inside hpushed _)

theorem newline (h : Reader.Alike first second) (blankAhead : Bool) :
    AlikeAfter (first.newline blankAhead) (second.newline blankAhead) := by
  have hpass := h.pass (.same (.single '\n'))
  cases h with
  | outside depth => exact .silent (.outside depth)
  | inside ho depth =>
      simp only [Reader.newline, ho.braced, ho.endsAtBlankLine]
      split
      · exact .ended ho (.outside depth)
      · exact hpass

/-- One lexeme takes two readers from the same place to the same place. -/
theorem step (h : Reader.Alike first second) {ahead ahead' : List Lexeme}
    (hahead : List.Forall₂ Lexeme.Alike ahead ahead') {lexeme other : Lexeme}
    (hlexeme : lexeme.Alike other) :
    AlikeAfter (first.step ahead lexeme) (second.step ahead' other) := by
  cases hlexeme with
  | comments | literals => exact h.pass (by constructor)
  | same =>
      cases lexeme with
      | comment | quoted => exact h.pass (.same _)
      | word text => exact h.word text
      | single c =>
          simp only [Reader.step, blankLineAhead_alike hahead]
          split
          · exact h.openBrace
          · split
            · exact h.closeBrace
            · split
              · exact h.newline _
              · exact h.pass (.same _)

end Reader.Alike

/-- Rows that differ in nothing but the text of comments and literals have declarations that differ
in nothing else. -/
theorem declarations_alike {row other : List Lexeme} (h : List.Forall₂ Lexeme.Alike row other)
    {first second : Reader} (hreader : Reader.Alike first second) :
    List.Forall₂ Opened.Alike (first.declarations row) (second.declarations other) := by
  induction h generalizing first second with
  | nil =>
      cases hreader with
      | outside depth => exact .nil
      | inside ho depth => exact .cons ho .nil
  | @cons lexeme lexeme' ahead ahead' hlexeme hahead ih =>
      have hstep := hreader.step hahead hlexeme
      rw [Reader.declarations, Reader.declarations]
      generalize first.step ahead lexeme = out at hstep ⊢
      generalize second.step ahead' lexeme' = out' at hstep ⊢
      cases hstep with
      | silent hnext => exact ih hnext
      | ended ho hnext => exact .cons ho (ih hnext)

section Parts

/-- What has been read of a declaration. -/
def Opened.row (opened : Opened) : List Lexeme :=
  opened.backwards.reverse

/-- All that a step does to the text of declarations: the declaration that is open afterwards begins
with the lexeme or grows by it, and the one that ends is the one before, with the lexeme or
without it. -/
structure Reader.Adds (reader : Reader) (lexeme : Lexeme) (out : Option Opened × Reader) :
    Prop where
  opened : ∀ opened ∈ out.2.opened, opened.backwards = [lexeme] ∨
    ∃ before ∈ reader.opened, opened.backwards = lexeme :: before.backwards
  ended : ∀ ended ∈ out.1, ∃ before ∈ reader.opened,
    ended.backwards = before.backwards ∨ ended.backwards = lexeme :: before.backwards

/-- A lexeme that opens a declaration where none is open. -/
def Lexeme.opens : Lexeme → Bool
  | word _ => true
  | single c => c == '\x7b'
  | _ => false

/-- The ways in which a lexeme can take a reader on, with what happens to the declaration that is
open. A reader outside of all braces passes no lexeme at which a declaration can begin. -/
inductive Reader.Turns (lexeme : Lexeme) : Reader → Option Opened × Reader → Prop
  | idle {depth depth' : Nat} (hgap : depth = 0 → lexeme.opens = false) :
      Turns lexeme ⟨none, depth⟩ (none, ⟨none, depth'⟩)
  | opens {depth depth' : Nat} {opened : Opened} (hopens : lexeme.opens = true)
      (hbackwards : opened.backwards = [lexeme]) :
      Turns lexeme ⟨none, depth⟩ (none, ⟨some opened, depth'⟩)
  | grows {depth depth' : Nat} {before opened : Opened}
      (hbackwards : opened.backwards = lexeme :: before.backwards) :
      Turns lexeme ⟨some before, depth⟩ (none, ⟨some opened, depth'⟩)
  | closes {depth depth' : Nat} {before ended : Opened}
      (hbackwards : ended.backwards = lexeme :: before.backwards) :
      Turns lexeme ⟨some before, depth⟩ (some ended, ⟨none, depth'⟩)
  | ends {depth depth' : Nat} {before : Opened} (hgap : lexeme.opens = false) :
      Turns lexeme ⟨some before, depth⟩ (some before, ⟨none, depth'⟩)
  | follows {depth depth' : Nat} {before opened : Opened} (hopens : lexeme.opens = true)
      (hbackwards : opened.backwards = [lexeme]) :
      Turns lexeme ⟨some before, depth⟩ (some before, ⟨some opened, depth'⟩)

namespace Reader

theorem turns_pass {reader : Reader} {lexeme : Lexeme}
    (hgap : reader.opened = none → reader.depth = 0 → lexeme.opens = false) :
    Turns lexeme reader (reader.pass lexeme) := by
  obtain ⟨_ | before, depth⟩ := reader
  · exact .idle (hgap rfl)
  · exact .grows rfl

theorem turns_word (reader : Reader) (text : List Char) :
    Turns (.word text) reader (reader.word text) := by
  simp only [word]
  split
  · next hinside =>
    apply turns_pass
    intro _ houtside
    omega
  · obtain ⟨_ | before, depth⟩ := reader
    · exact .opens rfl rfl
    · simp only
      split
      · exact .grows rfl
      · split
        · exact .follows rfl rfl
        · exact .grows rfl

theorem turns_openBrace (reader : Reader) :
    Turns (.single '\x7b') reader reader.openBrace := by
  obtain ⟨_ | before, depth⟩ := reader
  · simp only [openBrace]
    split
    · exact .opens rfl rfl
    · next hinside => exact .idle fun houtside => absurd houtside hinside
  · exact .grows rfl

theorem turns_closeBrace (reader : Reader) :
    Turns (.single '\x7d') reader reader.closeBrace := by
  obtain ⟨_ | before, depth⟩ := reader
  · exact .idle fun _ => rfl
  · simp only [closeBrace, Option.map_some]
    split
    · exact .closes rfl
    · exact .grows rfl

theorem turns_newline (reader : Reader) (blankAhead : Bool) :
    Turns (.single '\n') reader (reader.newline blankAhead) := by
  obtain ⟨_ | before, depth⟩ := reader
  · exact .idle fun _ => rfl
  · simp only [newline]
    split
    · exact .ends rfl
    · exact .grows rfl

theorem turns_step (reader : Reader) (ahead : List Lexeme) (lexeme : Lexeme) :
    Turns lexeme reader (reader.step ahead lexeme) := by
  cases lexeme with
  | comment | quoted => exact turns_pass fun _ _ => rfl
  | word text => exact reader.turns_word text
  | single c =>
      simp only [step]
      split
      · next hc =>
        subst hc
        exact reader.turns_openBrace
      · next hopen =>
        split
        · next hc =>
          subst hc
          exact reader.turns_closeBrace
        · split
          · next hc =>
            subst hc
            exact reader.turns_newline _
          · apply turns_pass
            intro _ _
            simpa [Lexeme.opens] using hopen

theorem Turns.adds {reader : Reader} {lexeme : Lexeme} {out : Option Opened × Reader}
    (h : Turns lexeme reader out) : reader.Adds lexeme out := by
  cases h with
  | idle => exact ⟨fun _ => (nomatch ·), fun _ => (nomatch ·)⟩
  | opens _ hbackwards =>
      refine ⟨?_, fun _ => (nomatch ·)⟩
      rintro _ ⟨⟩
      exact .inl hbackwards
  | grows hbackwards =>
      refine ⟨?_, fun _ => (nomatch ·)⟩
      rintro _ ⟨⟩
      exact .inr ⟨_, rfl, hbackwards⟩
  | closes hbackwards =>
      refine ⟨fun _ => (nomatch ·), ?_⟩
      rintro _ ⟨⟩
      exact ⟨_, rfl, .inr hbackwards⟩
  | ends =>
      refine ⟨fun _ => (nomatch ·), ?_⟩
      rintro _ ⟨⟩
      exact ⟨_, rfl, .inl rfl⟩
  | follows _ hbackwards =>
      constructor
      · rintro _ ⟨⟩
        exact .inl hbackwards
      · rintro _ ⟨⟩
        exact ⟨_, rfl, .inl rfl⟩

end Reader

/-- What is open belongs to the end of what has been read. -/
def Reader.Behind (reader : Reader) (done : List Lexeme) : Prop :=
  ∀ opened ∈ reader.opened, opened.row <:+ done

theorem Reader.Behind.of_adds {reader : Reader} {done : List Lexeme} (h : reader.Behind done)
    {lexeme : Lexeme} {out : Option Opened × Reader} (hout : reader.Adds lexeme out) :
    out.2.Behind (done ++ [lexeme]) ∧ ∀ ended ∈ out.1, ended.row <:+: done ++ [lexeme] := by
  have hgrown : ∀ {opened before : Opened}, before ∈ reader.opened →
      opened.backwards = lexeme :: before.backwards → opened.row <:+ done ++ [lexeme] := by
    intro opened before hbefore hbackwards
    rw [Opened.row, hbackwards, List.reverse_cons]
    obtain ⟨front, hfront⟩ := h before hbefore
    exact ⟨front, by rw [← hfront, List.append_assoc, Opened.row]⟩
  constructor
  · intro opened ho
    rcases hout.opened opened ho with hone | ⟨before, hbefore, hbackwards⟩
    · rw [Opened.row, hone]
      exact List.suffix_append done [lexeme]
    · exact hgrown hbefore hbackwards
  · intro ended he
    obtain ⟨before, hbefore, hbackwards | hbackwards⟩ := hout.ended ended he
    · rw [Opened.row, hbackwards]
      exact (h before hbefore).isInfix.trans (List.prefix_append _ _).isInfix
    · exact (hgrown hbefore hbackwards).isInfix

/-- The declarations that a reader takes are parts of the row. -/
theorem Reader.Behind.isInfix {done row : List Lexeme} {reader : Reader} (h : reader.Behind done)
    {opened : Opened} (hmem : opened ∈ reader.declarations row) : opened.row <:+: done ++ row := by
  induction row generalizing done reader with
  | nil =>
      rw [List.append_nil]
      exact (h opened (Option.mem_toList.1 hmem)).isInfix
  | cons lexeme ahead ih =>
      obtain ⟨hnext, hended⟩ := h.of_adds (reader.turns_step ahead lexeme).adds
      have hsplit : done ++ lexeme :: ahead = done ++ [lexeme] ++ ahead := by simp
      rw [Reader.declarations] at hmem
      rw [hsplit]
      generalize reader.step ahead lexeme = out at hnext hended hmem
      obtain ⟨_ | ended, next⟩ := out
      · exact ih hnext hmem
      · rcases List.mem_cons.1 hmem with rfl | hmem
        · exact (hended opened rfl).trans (List.prefix_append _ _).isInfix
        · exact ih hnext hmem

theorem isInfix_of_mem_declarations {row : List Lexeme} {opened : Opened}
    (h : opened ∈ Reader.start.declarations row) : opened.row <:+: row := by
  have hstart : Reader.start.Behind [] := by
    rintro _ ⟨⟩
  exact hstart.isInfix h

end Parts

end ModelGraph.Document
