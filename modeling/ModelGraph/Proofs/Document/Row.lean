import ModelGraph.Proofs.Document.Literal
import ModelGraph.Proofs.Written.Token

/-! # Rows of lexemes

A row of lexemes reads back from its text if each lexeme is proper and ends where the text behind it
begins (`Lexed.lexemes_append`). The lexemes of a document whose literals are complete are such a
row (`lexed_lexemes`), so one of them can be exchanged and the document read again. -/

namespace ModelGraph.Document

open Text Written

/-- The characters of a row of lexemes. -/
abbrev written (row : List Lexeme) : List Char :=
  row.flatMap Lexeme.text

namespace Lexeme

/-- A lexeme is what its constructor says. -/
def Proper : Lexeme → Prop
  | comment text => ∃ body, '\n' ∉ body ∧ text = '#' :: body
  | quoted text => Complete text
  | word text => isIdentifier text = true
  | single c => c ≠ '#' ∧ c ≠ '"' ∧ isIdentStart c = false

/-- Text that begins with the character leaves a lexeme in front of it as it is. -/
def EndsBefore : Lexeme → Char → Prop
  | comment _, c => c = '\n'
  | quoted text, c => text = ['"', '"'] → c ≠ '"'
  | word _, c => isIdentRest c = false
  | single _, _ => True

/-- A lexeme ends where a text begins. -/
def Ends (lexeme : Lexeme) (rest : List Char) : Prop :=
  ∀ c ∈ rest.head?, lexeme.EndsBefore c

variable {lexeme : Lexeme} {text rest : List Char}

theorem ends_nil (lexeme : Lexeme) : lexeme.Ends [] :=
  fun _ hc => nomatch hc

/-- Where a lexeme ends depends on the next character only. -/
theorem Ends.of_head? (h : lexeme.Ends rest) (hhead : ∀ c ∈ text.head?, c ∈ rest.head?) :
    lexeme.Ends text :=
  fun c hc => h c (hhead c hc)

theorem exists_text_eq (h : lexeme.Proper) : ∃ c more, lexeme.text = c :: more := by
  cases lexeme with
  | comment text =>
      obtain ⟨body, -, rfl⟩ := h
      exact ⟨'#', body, rfl⟩
  | quoted text => cases h <;> exact ⟨'"', _, rfl⟩
  | word text =>
      cases text with
      | nil => cases h
      | cons c more => exact ⟨c, more, rfl⟩
  | single c => exact ⟨c, [], rfl⟩

theorem text_ne_nil (h : lexeme.Proper) : lexeme.text ≠ [] := by
  obtain ⟨c, more, htext⟩ := exists_text_eq h
  rw [htext]
  exact List.cons_ne_nil c more

end Lexeme

section Reading

variable {c : Char} {text rest : List Char}

/-- A span that opens a text is its first lexeme. -/
theorem lexemes_span (hne : text ≠ []) (h : longLexeme? (text ++ rest) = some text.length) :
    lexemes (text ++ rest) = .ofPiece (.span text) :: lexemes rest := by
  cases text with
  | nil => exact absurd rfl hne
  | cons c more =>
      have hspan : longLexeme? (c :: (more ++ rest)) = some (more.length + 1) := h
      rw [List.cons_append, lexemes, cut_of_some hspan, List.take_left, List.drop_left]
      rfl

theorem longLexeme?_comment {body : List Char} (hbody : '\n' ∉ body)
    (hends : (Lexeme.comment ('#' :: body)).Ends rest) :
    longLexeme? ('#' :: body ++ rest) = some ('#' :: body).length := by
  rw [List.cons_append, longLexeme?, Written.takeWhile_line hbody hends]
  rfl

theorem longLexeme?_line (h : ∀ more, rest ≠ '"' :: '"' :: more) :
    longLexeme? ('"' :: rest) = some (lineLength rest + 1) := by
  rw [longLexeme?]
  rintro more ⟨⟩
  exact h more rfl

theorem longLexeme?_literal (hcomplete : Complete text) (hends : (Lexeme.quoted text).Ends rest) :
    longLexeme? (text ++ rest) = some text.length := by
  cases hcomplete with
  | @line content hcontent =>
      have hblock : ∀ more, content ++ '"' :: rest ≠ '"' :: '"' :: more := by
        intro more heq
        cases content with
        | nil =>
            obtain ⟨-, rfl⟩ := List.cons.inj heq
            exact hends '"' rfl rfl rfl
        | cons c content => exact head?_stringContent hcontent c rfl (List.cons.inj heq).1
      have hspan := longLexeme?_line hblock
      rw [lineLength_append hcontent] at hspan
      simpa using hspan
  | @block content hcontent =>
      have hspan : longLexeme? ('"' :: '"' :: '"' :: (content ++ blockQuotes ++ rest)) =
          some (blockLength (content ++ blockQuotes ++ rest) + 3) := rfl
      rw [blockLength_append hcontent] at hspan
      simpa [blockQuotes] using hspan

theorem ne_of_isIdentStart (h : isIdentStart c = true) : c ≠ '#' ∧ c ≠ '"' := by
  constructor <;> rintro rfl <;> exact absurd h (by decide)

theorem longLexeme?_eq_identifier? (hsign : c ≠ '#') (hquote : c ≠ '"') (rest : List Char) :
    longLexeme? (c :: rest) = (identifier? (c :: rest)).map fun (name, _) => name.length := by
  rw [longLexeme?.eq_def]
  split
  · next heq => cases heq
  · next heq => exact absurd (List.cons.inj heq).1 hsign
  · next heq => exact absurd (List.cons.inj heq).1 hquote
  · next heq => exact absurd (List.cons.inj heq).1 hquote
  · rfl

theorem ofPiece_word (hsign : c ≠ '#') (hquote : c ≠ '"') (more : List Char) :
    Lexeme.ofPiece (.span (c :: more)) = .word (c :: more) := by
  simp only [Lexeme.ofPiece]
  split
  · next heq => exact absurd (List.cons.inj heq).1 hsign
  · next heq => exact absurd (List.cons.inj heq).1 hquote
  · rfl

theorem longLexeme?_word (hword : isIdentifier text = true)
    (hends : (Lexeme.word text).Ends rest) :
    longLexeme? (text ++ rest) = some text.length := by
  cases text with
  | nil => cases hword
  | cons c more =>
      simp only [isIdentifier, Bool.and_eq_true, List.all_eq_true] at hword
      obtain ⟨hsign, hquote⟩ := ne_of_isIdentStart hword.1
      have htake : (more ++ rest).takeWhile isIdentRest = more :=
        takeWhile_append_eq hword.2 hends
      rw [List.cons_append, longLexeme?_eq_identifier? hsign hquote, identifier?, if_pos hword.1,
        htake]
      rfl

/-- A proper lexeme is read off the front of a text if it ends there. -/
theorem lexemes_text_append {lexeme : Lexeme} (hproper : lexeme.Proper) (hends : lexeme.Ends rest) :
    lexemes (lexeme.text ++ rest) = lexeme :: lexemes rest := by
  have hne := Lexeme.text_ne_nil hproper
  cases lexeme with
  | comment text =>
      obtain ⟨body, hbody, rfl⟩ := hproper
      exact lexemes_span hne (longLexeme?_comment hbody hends)
  | quoted text =>
      have hspan := lexemes_span hne (longLexeme?_literal hproper hends)
      cases hproper <;> exact hspan
  | word text =>
      have hspan := lexemes_span hne (longLexeme?_word hproper hends)
      cases text with
      | nil => cases hproper
      | cons c more =>
          simp only [Lexeme.Proper, isIdentifier, Bool.and_eq_true] at hproper
          obtain ⟨hsign, hquote⟩ := ne_of_isIdentStart hproper.1
          rwa [Lexeme.text, ofPiece_word hsign hquote] at hspan
  | single c =>
      obtain ⟨hsign, hquote, hstart⟩ := hproper
      have hnone : longLexeme? (c :: rest) = none := by
        rw [longLexeme?_eq_identifier? hsign hquote, identifier?, if_neg (by simp [hstart])]
        rfl
      rw [Lexeme.text, List.singleton_append, lexemes, cut_of_none hnone]
      rfl

/-- A text is a longest front of characters of a class and what follows it. -/
theorem exists_front (p : Char → Bool) (text : List Char) :
    ∃ front rest, text = front ++ rest ∧ (∀ c ∈ front, p c = true) ∧
      ∀ c ∈ rest.head?, p c = false := by
  refine ⟨text.takeWhile p, text.dropWhile p, List.takeWhile_append_dropWhile.symm, ?_, ?_⟩
  · exact List.all_eq_true.1 List.all_takeWhile
  · exact head?_dropWhile_eq_false p text

/-- A quote opens a literal. Behind two quotes alone there is no third. -/
theorem exists_longLexeme?_quote (more : List Char) :
    ∃ n, longLexeme? ('"' :: more) = some (n + 1) ∧
      (more.take n = ['"'] → ∀ c ∈ (more.drop n).head?, c ≠ '"') := by
  by_cases hblock : ∃ body, more = '"' :: '"' :: body
  · obtain ⟨body, rfl⟩ := hblock
    refine ⟨blockLength body + 2, rfl, fun hone => ?_⟩
    rw [List.take_succ_cons, List.take_succ_cons] at hone
    cases (List.cons.inj hone).2
  · refine ⟨lineLength more, longLexeme?_line fun body heq => hblock ⟨body, heq⟩, ?_⟩
    rintro hone c hc rfl
    have hmore := List.take_append_drop (lineLength more) more
    obtain ⟨body, hbody⟩ := List.head?_eq_some_iff.1 hc
    rw [hone, hbody] at hmore
    exact hblock ⟨body, hmore.symm⟩

/-- A text begins with its first lexeme, which is proper unless it is an open literal. -/
theorem exists_lexemes_eq (c : Char) (more : List Char) :
    ∃ lexeme rest, c :: more = lexeme.text ++ rest ∧
      lexemes (c :: more) = lexeme :: lexemes rest ∧ lexeme.Ends rest ∧
      ((∀ literal, lexeme = .quoted literal → Complete literal) → lexeme.Proper) := by
  by_cases hsign : c = '#'
  · subst hsign
    obtain ⟨body, rest, rfl, hbody, hrest⟩ := exists_front (· ≠ '\n') more
    have hproper : (Lexeme.comment ('#' :: body)).Proper :=
      ⟨body, fun hmem => of_decide_eq_true (hbody _ hmem) rfl, rfl⟩
    have hends : (Lexeme.comment ('#' :: body)).Ends rest := by
      intro c hc
      have hline : c = '\n' := by simpa using hrest c hc
      exact hline
    exact ⟨.comment ('#' :: body), rest, rfl, lexemes_text_append hproper hends, hends,
      fun _ => hproper⟩
  by_cases hquote : c = '"'
  · subst hquote
    obtain ⟨n, hspan, hends⟩ := exists_longLexeme?_quote more
    refine ⟨.quoted ('"' :: more.take n), more.drop n, ?_, ?_, ?_, fun hcomplete => hcomplete _ rfl⟩
    · rw [Lexeme.text, List.cons_append, List.take_append_drop]
    · rw [lexemes, cut_of_some hspan]
      rfl
    · exact fun c hc htwo => hends (List.cons.inj htwo).2 c hc
  cases hstart : isIdentStart c with
  | true =>
      obtain ⟨name, rest, rfl, hname, hrest⟩ := exists_front isIdentRest more
      have hproper : (Lexeme.word (c :: name)).Proper := by
        simpa [Lexeme.Proper, isIdentifier, hstart] using hname
      have hends : (Lexeme.word (c :: name)).Ends rest := hrest
      exact ⟨.word (c :: name), rest, rfl, lexemes_text_append hproper hends, hends,
        fun _ => hproper⟩
  | false =>
      have hproper : (Lexeme.single c).Proper := ⟨hsign, hquote, hstart⟩
      have hends : (Lexeme.single c).Ends more := fun _ _ => trivial
      exact ⟨.single c, more, rfl, lexemes_text_append hproper hends, hends, fun _ => hproper⟩

end Reading

/-- A lexeme of a document ends where the next one begins, and is proper unless it is an open
literal. -/
theorem lexemes_at {document : List Char} {before after : List Lexeme} {lexeme : Lexeme}
    (h : lexemes document = before ++ lexeme :: after) :
    lexeme.Ends (written after) ∧
      ((∀ literal, lexeme = .quoted literal → Complete literal) → lexeme.Proper) := by
  induction before generalizing document with
  | nil =>
      cases document with
      | nil => cases h
      | cons c more =>
          obtain ⟨first, rest, -, hlexemes, hends, hproper⟩ := exists_lexemes_eq c more
          obtain ⟨rfl, rfl⟩ := List.cons.inj (hlexemes.symm.trans h)
          rw [written, text_lexemes]
          exact ⟨hends, hproper⟩
  | cons other before ih =>
      cases document with
      | nil => cases h
      | cons c more =>
          obtain ⟨first, rest, -, hlexemes, -, -⟩ := exists_lexemes_eq c more
          exact ih (List.cons.inj (hlexemes.symm.trans h)).2

/-- A row that is read back from its text, whatever may follow where `rest` does. -/
inductive Lexed (rest : List Char) : List Lexeme → Prop
  | nil : Lexed rest []
  | cons {lexeme : Lexeme} {row : List Lexeme} (hproper : lexeme.Proper)
      (hends : lexeme.Ends (written row ++ rest)) (hrow : Lexed rest row) :
      Lexed rest (lexeme :: row)

/-- The lexemes of a document are such a row if its literals are complete. -/
theorem lexed_lexemes {document : List Char}
    (hcomplete : ∀ literal, .quoted literal ∈ lexemes document → Complete literal) :
    Lexed [] (lexemes document) := by
  match document with
  | [] => exact .nil
  | c :: more =>
      obtain ⟨lexeme, rest, htext, hlexemes, hends, hproper⟩ := exists_lexemes_eq c more
      rw [hlexemes] at hcomplete ⊢
      have hself : lexeme.Proper := by
        refine hproper ?_
        rintro literal rfl
        exact hcomplete literal List.mem_cons_self
      have hlt : rest.length < (c :: more).length := by
        have hpos := List.length_pos_iff.2 (Lexeme.text_ne_nil hself)
        rw [htext, List.length_append]
        omega
      refine .cons hself ?_ (lexed_lexemes fun literal hmem =>
        hcomplete literal (List.mem_cons_of_mem lexeme hmem))
      rwa [List.append_nil, written, text_lexemes]
termination_by document.length
decreasing_by exact hlt

namespace Lexed

variable {rest : List Char} {row first second : List Lexeme}

theorem proper (h : Lexed rest row) {lexeme : Lexeme} (hmem : lexeme ∈ row) : lexeme.Proper := by
  induction h with
  | nil => cases hmem
  | cons hproper _ _ ih =>
      rcases List.mem_cons.1 hmem with rfl | hmem
      · exact hproper
      · exact ih hmem

theorem lexemes_append (h : Lexed rest row) :
    lexemes (written row ++ rest) = row ++ lexemes rest := by
  induction h with
  | nil => rfl
  | cons hproper hends _ ih =>
      rw [written, List.flatMap_cons, List.append_assoc, lexemes_text_append hproper hends, ih]
      rfl

theorem lexemes_written (h : Lexed [] row) : lexemes (written row) = row := by
  simpa [lexemes] using h.lexemes_append

theorem append_inv (h : Lexed rest (first ++ second)) :
    Lexed (written second ++ rest) first ∧ Lexed rest second := by
  induction first with
  | nil => exact ⟨.nil, h⟩
  | cons lexeme first ih =>
      obtain _ | ⟨hproper, hends, hrow⟩ := h
      obtain ⟨hfirst, hsecond⟩ := ih hrow
      refine ⟨.cons hproper ?_ hfirst, hsecond⟩
      simpa [written] using hends

theorem append (hfirst : Lexed (written second ++ rest) first) (hsecond : Lexed rest second) :
    Lexed rest (first ++ second) := by
  induction hfirst with
  | nil => exact hsecond
  | cons hproper hends _ ih =>
      refine .cons hproper ?_ ih
      simpa [written] using hends

/-- Of what follows a row only the first character matters. -/
theorem of_head? {text : List Char} (h : Lexed rest row)
    (hhead : ∀ c ∈ text.head?, c ∈ rest.head?) : Lexed text row := by
  induction h with
  | nil => exact .nil
  | @cons lexeme row hproper hends _ ih =>
      refine .cons hproper (hends.of_head? fun c hc => ?_) ih
      cases hrow : written row with
      | nil =>
          rw [hrow] at hc
          exact hhead c hc
      | cons d more =>
          rw [hrow] at hc
          exact hc

/-- A row may be followed by any text before which its last lexeme ends. -/
theorem followed (h : Lexed [] row) (hlast : ∀ lexeme ∈ row.getLast?, lexeme.Ends rest) :
    Lexed rest row := by
  induction h with
  | nil => exact .nil
  | @cons lexeme row hproper hends hrow ih =>
      cases row with
      | nil => exact .cons hproper (hlast lexeme rfl) .nil
      | cons next more =>
          refine .cons hproper ?_ (ih hlast)
          obtain _ | ⟨hnext, -, -⟩ := hrow
          obtain ⟨c, text, htext⟩ := Lexeme.exists_text_eq hnext
          refine hends.of_head? fun d hd => ?_
          simpa [written, htext] using hd

/-- A part of a row is a row. -/
theorem of_isInfix (h : Lexed rest row) (hpart : first <:+: row) : Lexed [] first := by
  obtain ⟨before, after, rfl⟩ := hpart
  exact h.append_inv.1.append_inv.2.of_head? fun c hc => nomatch hc

end Lexed

/-- A text whose literals are complete is read for itself if its last lexeme ends where the rest
begins. -/
theorem lexemes_append {first rest : List Char}
    (hcomplete : ∀ literal, .quoted literal ∈ lexemes first → Complete literal)
    (hlast : ∀ lexeme ∈ (lexemes first).getLast?, lexeme.Ends rest) :
    lexemes (first ++ rest) = lexemes first ++ lexemes rest := by
  have hread := ((lexed_lexemes hcomplete).followed hlast).lexemes_append
  rwa [written, text_lexemes] at hread

end ModelGraph.Document
