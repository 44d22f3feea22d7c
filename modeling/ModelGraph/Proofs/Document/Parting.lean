import ModelGraph.Proofs.Document.Reading

/-! # What a reader leaves out

A declaration with braces is open exactly while braces are open (`Reader.Coherent`), whatever
brackets the document has. So a reader outside of all declarations is outside of all braces, and
begins a declaration at the next word or opening brace: the row falls into declarations that begin
with such a lexeme, and lexemes between them of which none is one (`parted_declarations`). -/

namespace ModelGraph.Document

/-- A declaration with braces is open exactly while braces are open. -/
def Reader.Coherent (reader : Reader) : Prop :=
  (∃ opened ∈ reader.opened, opened.braced = true) ↔ 0 < reader.depth

namespace Reader

theorem coherent_start : start.Coherent := by
  simp [Coherent, start]

theorem coherent_none {depth : Nat} : Coherent ⟨none, depth⟩ ↔ depth = 0 := by
  simp [Coherent]

theorem coherent_some {opened : Opened} {depth : Nat} :
    Coherent ⟨some opened, depth⟩ ↔ (opened.braced = true ↔ 0 < depth) := by
  simp [Coherent]

namespace Coherent

variable {reader : Reader}

theorem pass (h : reader.Coherent) (lexeme : Lexeme) : (reader.pass lexeme).2.Coherent := by
  obtain ⟨_ | before, depth⟩ := reader
  · exact h
  · have hbefore := coherent_some.1 h
    exact coherent_some.2 hbefore

theorem word (h : reader.Coherent) (text : List Char) : (reader.word text).2.Coherent := by
  simp only [Reader.word]
  split
  · exact h.pass (.word text)
  · next houtside =>
    -- no braces are open, and a declaration that begins with a word has none
    have hatWord : Coherent ⟨some (.atWord text), reader.depth⟩ :=
      coherent_some.2 ⟨fun hbraced => absurd hbraced Bool.false_ne_true,
        fun hinside => absurd hinside houtside⟩
    obtain ⟨_ | before, depth⟩ := reader
    · exact hatWord
    · have hbefore := coherent_some.1 h
      simp only
      split
      · exact coherent_some.2 hbefore
      · split
        · exact hatWord
        · exact h.pass (.word text)

theorem openBrace (h : reader.Coherent) : reader.openBrace.2.Coherent := by
  obtain ⟨_ | before, depth⟩ := reader
  · obtain rfl := coherent_none.1 h
    exact coherent_some.2 ⟨fun _ => Nat.one_pos, fun _ => rfl⟩
  · exact coherent_some.2 ⟨fun _ => Nat.succ_pos depth, fun _ => rfl⟩

theorem closeBrace (h : reader.Coherent) : reader.closeBrace.2.Coherent := by
  obtain ⟨_ | before, depth⟩ := reader
  · obtain rfl := coherent_none.1 h
    exact coherent_none.2 rfl
  · have hbefore := coherent_some.1 h
    simp only [Reader.closeBrace, Option.map_some]
    split
    · next hlast =>
      simp only [Bool.and_eq_true, decide_eq_true_eq] at hlast
      exact coherent_none.2 hlast.1
    · next hlast =>
      simp only [Bool.and_eq_true, decide_eq_true_eq, not_and] at hlast
      apply coherent_some.2
      constructor
      · intro hbraced
        have hdepth : depth - 1 ≠ 0 := fun houtside => hlast houtside hbraced
        omega
      · intro hinside
        exact hbefore.2 (by omega)

theorem newline (h : reader.Coherent) (blankAhead : Bool) :
    (reader.newline blankAhead).2.Coherent := by
  obtain ⟨_ | before, depth⟩ := reader
  · exact h
  · simp only [Reader.newline]
    split
    · next hends =>
      simp only [Bool.and_eq_true, decide_eq_true_eq] at hends
      exact coherent_none.2 hends.1.1.1
    · exact h.pass (.single '\n')

theorem step (h : reader.Coherent) (ahead : List Lexeme) (lexeme : Lexeme) :
    (reader.step ahead lexeme).2.Coherent := by
  cases lexeme with
  | comment | quoted => exact h.pass _
  | word text => exact h.word text
  | single c =>
      simp only [Reader.step]
      split
      · exact h.openBrace
      · split
        · exact h.closeBrace
        · split
          · exact h.newline _
          · exact h.pass _

end Coherent

/-- The lexemes that have been read of the declaration that is open. -/
def pending (reader : Reader) : List Lexeme :=
  (reader.opened.map Opened.row).getD []

@[simp] theorem pending_some (opened : Opened) (depth : Nat) :
    pending ⟨some opened, depth⟩ = opened.row := rfl

end Reader

/-- The declaration begins with a lexeme at which one can begin. -/
def Opened.Begun (opened : Opened) : Prop :=
  ∃ lexeme more, opened.row = lexeme :: more ∧ lexeme.opens = true

/-- A row falls into declarations and the lexemes between them, at which no declaration can
begin. -/
inductive Parted : List Lexeme → List Opened → Prop
  | nil : Parted [] []
  | gap {lexeme : Lexeme} {row : List Lexeme} {declarations : List Opened}
      (hgap : lexeme.opens = false) (h : Parted row declarations) :
      Parted (lexeme :: row) declarations
  | declaration {opened : Opened} {row : List Lexeme} {declarations : List Opened}
      (hbegun : opened.Begun) (h : Parted row declarations) :
      Parted (opened.row ++ row) (opened :: declarations)

section Row

variable {lexeme : Lexeme} {before after : Opened}

theorem Opened.row_first (h : before.backwards = [lexeme]) : before.row = [lexeme] := by
  rw [Opened.row, h, List.reverse_singleton]

theorem Opened.row_grown (h : after.backwards = lexeme :: before.backwards) :
    after.row = before.row ++ [lexeme] := by
  rw [Opened.row, h, List.reverse_cons, Opened.row]

theorem Opened.begun_first (h : before.backwards = [lexeme]) (hopens : lexeme.opens = true) :
    before.Begun :=
  ⟨lexeme, [], Opened.row_first h, hopens⟩

theorem Opened.Begun.grown (hbegun : before.Begun)
    (h : after.backwards = lexeme :: before.backwards) : after.Begun := by
  obtain ⟨first, more, hrow, hopens⟩ := hbegun
  exact ⟨first, more ++ [lexeme], by rw [Opened.row_grown h, hrow, List.cons_append], hopens⟩

end Row

/-- The declaration that is open after a step has begun as one does, if the one before has. -/
theorem Reader.Turns.begun {lexeme : Lexeme} {reader : Reader} {out : Option Opened × Reader}
    (h : Reader.Turns lexeme reader out) (hbegun : ∀ opened ∈ reader.opened, opened.Begun) :
    ∀ opened ∈ out.2.opened, opened.Begun := by
  cases h with
  | idle | closes | ends => exact fun _ => (nomatch ·)
  | opens hopens hbackwards | follows hopens hbackwards =>
      rintro _ ⟨⟩
      exact Opened.begun_first hbackwards hopens
  | grows hbackwards =>
      rintro _ ⟨⟩
      exact (hbegun _ rfl).grown hbackwards

/-- A coherent reader takes the row that it has begun to read apart. -/
theorem Reader.Coherent.parted {reader : Reader} (h : reader.Coherent)
    (hbegun : ∀ opened ∈ reader.opened, opened.Begun) (row : List Lexeme) :
    Parted (reader.pending ++ row) (reader.declarations row) := by
  induction row generalizing reader with
  | nil =>
      obtain ⟨_ | opened, depth⟩ := reader
      · exact .nil
      · exact .declaration (hbegun opened rfl) .nil
  | cons lexeme ahead ih =>
      have hturns := reader.turns_step ahead lexeme
      have hahead := ih (h.step ahead lexeme) (hturns.begun hbegun)
      rw [Reader.declarations]
      generalize reader.step ahead lexeme = out at hturns hahead ⊢
      cases hturns with
      | idle hgap => exact .gap (hgap (coherent_none.1 h)) hahead
      | opens _ hbackwards =>
          simp only [pending_some, Opened.row_first hbackwards] at hahead
          exact hahead
      | grows hbackwards =>
          simp only [pending_some, Opened.row_grown hbackwards, List.append_assoc] at hahead
          exact hahead
      | @closes _ _ before ended hbackwards =>
          have hparted := Parted.declaration ((hbegun before rfl).grown hbackwards) hahead
          rw [Opened.row_grown hbackwards, List.append_assoc] at hparted
          exact hparted
      | ends hgap => exact .declaration (hbegun _ rfl) (.gap hgap hahead)
      | follows _ hbackwards =>
          simp only [pending_some, Opened.row_first hbackwards] at hahead
          exact .declaration (hbegun _ rfl) hahead

/-- Every word and every opening brace of a row belongs to the declaration that it begins or to one
that has begun before. -/
theorem parted_declarations (row : List Lexeme) :
    Parted row (Reader.start.declarations row) :=
  Reader.coherent_start.parted (fun _ => (nomatch ·)) row

end ModelGraph.Document
