import ModelGraph.Text.Blank
import ModelGraph.Text.Identifier

/-! # Tokens and their layout

What is written in the language is a row of tokens. Between two of them any blanks and comments may
stand, and something has to stand there if the two would otherwise run together. `Laid` relates
tokens to the texts that say them; `Spaced` does the same for texts in which nothing but blanks is
left between the tokens. -/

namespace ModelGraph.Written

open Text

/-- The characters that structure a text. Each is a token of its own. -/
def marks : List Char :=
  ['\x7b', '\x7d', '[', ']', '(', ')', ':', ',', '=', '!']

/-- The characters of names, numbers and other words. -/
def isWordChar (c : Char) : Bool :=
  !isBlank c && !('"' :: '#' :: '@' :: marks).contains c

/-- One token. -/
inductive Token where
  | word (text : List Char)
  | mark (c : Char)
  /-- The name of a directive, with its `@`. -/
  | directive (name : List Char)
  /-- A string, between single or triple quotes. -/
  | quoted (block : Bool) (body : List Char)
  deriving DecidableEq, Repr

namespace Token

/-- How a token is written. -/
def text : Token → List Char
  | word text => text
  | mark c => [c]
  | directive name => '@' :: name
  | quoted true body => '"' :: '"' :: '"' :: (body ++ ['"', '"', '"'])
  | quoted false body => '"' :: (body ++ ['"'])

/-- The token is written with the characters of its class. Strings have no quotes and backslashes
inside, and are closed on their line unless they are block strings. -/
def Proper : Token → Prop
  | word text => text ≠ [] ∧ ∀ c ∈ text, isWordChar c = true
  | mark c => c ∈ marks
  | directive name => isIdentifier name = true
  | quoted block body => '"' ∉ body ∧ '\\' ∉ body ∧ (block = false → '\n' ∉ body)

instance (token : Token) : Decidable token.Proper :=
  match token with
  | word text =>
      @instDecidableAnd (text ≠ []) (∀ c ∈ text, isWordChar c = true) inferInstance
        (List.decidableBAll _ text)
  | mark c => inferInstanceAs (Decidable (c ∈ marks))
  | directive name => inferInstanceAs (Decidable (isIdentifier name = true))
  | quoted block body =>
      inferInstanceAs (Decidable ('"' ∉ body ∧ '\\' ∉ body ∧ (block = false → '\n' ∉ body)))

/-- The character would be taken for more of the token. -/
def runsOn : Token → Char → Bool
  | word _, c | directive _, c => isWordChar c
  | mark _, _ => false
  | quoted _ _, c => c == '"'

/-- The token ends where the text begins. -/
def Ends (token : Token) (text : List Char) : Prop :=
  ∀ c ∈ text.head?, token.runsOn c = false

/-- The token is a string. -/
def isQuoted : Token → Bool
  | quoted _ _ => true
  | _ => false

end Token

/-- The text says the tokens, with blanks and comments between them. -/
inductive Laid : List Token → List Char → Prop
  | nil : Laid [] []
  | blank {c : Char} {tokens : List Token} {text : List Char} (hc : isBlank c = true)
      (h : Laid tokens text) : Laid tokens (c :: text)
  | comment {body text : List Char} {tokens : List Token} (hbody : '\n' ∉ body)
      (h : Laid tokens text) : Laid tokens ('#' :: (body ++ '\n' :: text))
  | token {token : Token} {tokens : List Token} {text : List Char} (hproper : token.Proper)
      (hends : token.Ends text) (h : Laid tokens text) :
      Laid (token :: tokens) (token.text ++ text)

/-- The text says the tokens, none of which is a string, with blanks of a class between them. -/
inductive Spaced (gap : Char → Bool) : List Token → List Char → Prop
  | nil : Spaced gap [] []
  | blank {c : Char} {tokens : List Token} {text : List Char} (hc : isBlank c = true)
      (hgap : gap c = true) (h : Spaced gap tokens text) : Spaced gap tokens (c :: text)
  | token {token : Token} {tokens : List Token} {text : List Char} (hproper : token.Proper)
      (hquoted : token.isQuoted = false) (hends : token.Ends text) (h : Spaced gap tokens text) :
      Spaced gap (token :: tokens) (token.text ++ text)

/-- A text of nothing but blanks of a class. -/
def Blanks (gap : Char → Bool) (text : List Char) : Prop :=
  ∀ c ∈ text, isBlank c = true ∧ gap c = true

/-- A text that does not begin with a blank. -/
def Begins (text : List Char) : Prop :=
  ∀ c ∈ text.head?, isBlank c = false

/-- A text that does not end with a blank. -/
def Stops (text : List Char) : Prop :=
  ∀ c ∈ text.getLast?, isBlank c = false

theorem begins_nil : Begins [] :=
  fun _ hc => nomatch hc

theorem stops_nil : Stops [] :=
  fun _ hc => nomatch hc

/-- The end of a text does not end with a blank if the text does not. -/
theorem Stops.of_append {first second : List Char} (h : Stops (first ++ second)) :
    Stops second := by
  cases second with
  | nil => exact stops_nil
  | cons c rest =>
      intro d hd
      refine h d ?_
      rw [List.getLast?_append, Option.mem_def.1 hd]
      rfl

section Prefix

variable {p : Char → Bool} {first second : List Char}

/-- A class of characters is taken up to the first character outside it. -/
theorem takeWhile_append_eq (hfirst : ∀ c ∈ first, p c = true)
    (hsecond : ∀ c ∈ second.head?, p c = false) : (first ++ second).takeWhile p = first := by
  rw [List.takeWhile_append_of_pos hfirst]
  cases second with
  | nil => simp
  | cons c rest => simp [hsecond c rfl]

theorem dropWhile_append_eq (hfirst : ∀ c ∈ first, p c = true)
    (hsecond : ∀ c ∈ second.head?, p c = false) : (first ++ second).dropWhile p = second := by
  rw [List.dropWhile_append_of_pos hfirst]
  cases second with
  | nil => rfl
  | cons c rest => simp [hsecond c rfl]

theorem head?_dropWhile_eq_false (p : Char → Bool) (text : List Char) :
    ∀ c ∈ (text.dropWhile p).head?, p c = false := by
  intro c hc
  have hnot := List.head?_dropWhile_not p text
  rw [Option.mem_def.1 hc] at hnot
  simpa using hnot

end Prefix

/-- What ends with its line is taken up to the end of the line, or of the text. -/
theorem takeWhile_line {body rest : List Char} (hbody : '\n' ∉ body)
    (hrest : ∀ c ∈ rest.head?, c = '\n') : (body ++ rest).takeWhile (· ≠ '\n') = body := by
  refine takeWhile_append_eq (fun c hc => ?_) fun c hc => ?_
  · refine decide_eq_true ?_
    rintro rfl
    exact hbody hc
  · exact decide_eq_false (not_not_intro (hrest c hc))

theorem isBlank_of_isWordChar {c : Char} (h : isWordChar c = true) : isBlank c = false := by
  simp only [isWordChar, Bool.and_eq_true, Bool.not_eq_true'] at h
  exact h.1

theorem isWordChar_of_isBlank {c : Char} (h : isBlank c = true) : isWordChar c = false := by
  simp [isWordChar, h]

theorem isBlank_of_mem_marks {c : Char} (h : c ∈ marks) : isBlank c = false := by
  have hall : marks.all (fun c => !isBlank c) = true := by decide
  simpa using List.all_eq_true.1 hall c h

theorem isWordChar_of_mem_marks {c : Char} (h : c ∈ marks) : isWordChar c = false := by
  have hall : marks.all (fun c => !isWordChar c) = true := by decide
  simpa using List.all_eq_true.1 hall c h

/-- A mark is no blank. -/
theorem begins_mark {c : Char} (hc : c ∈ marks) (rest : List Char) : Begins (c :: rest) := by
  rintro _ ⟨⟩
  exact isBlank_of_mem_marks hc

/-- Whatever continues an identifier may stand in a word. -/
theorem isWordChar_of_isIdentRest {c : Char} (h : isIdentRest c = true) :
    isWordChar c = true := by
  have hall : ∀ n < 128, isIdentRest (Char.ofNat n) = true → isWordChar (Char.ofNat n) = true := by
    decide
  have hlt := toNat_lt_of_isIdentRest h
  have hc : Char.ofNat c.toNat = c := Char.ofNat_toNat c
  rw [← hc] at h ⊢
  exact hall c.toNat hlt h

theorem isIdentRest_eq_false {c : Char} (h : isWordChar c = false) : isIdentRest c = false := by
  refine Bool.eq_false_iff.2 fun hrest => ?_
  rw [isWordChar_of_isIdentRest hrest] at h
  cases h

/-- Names have no blanks. -/
theorem isBlank_of_isIdentRest {c : Char} (h : isIdentRest c = true) : isBlank c = false :=
  isBlank_of_isWordChar (isWordChar_of_isIdentRest h)

theorem isIdentRest_of_isIdentifier {name : List Char} (h : isIdentifier name = true) :
    ∀ c ∈ name, isIdentRest c = true := by
  cases name with
  | nil => cases h
  | cons c rest =>
      simp only [isIdentifier, Bool.and_eq_true, List.all_eq_true] at h
      intro d hd
      rcases List.mem_cons.1 hd with rfl | hd
      · exact isIdentRest_of_isIdentStart h.1
      · exact h.2 d hd

/-- An identifier is a word. -/
theorem proper_word_of_isIdentifier {name : List Char} (h : isIdentifier name = true) :
    (Token.word name).Proper := by
  constructor
  · rintro rfl
    cases h
  · exact fun c hc => isWordChar_of_isIdentRest (isIdentRest_of_isIdentifier h c hc)

namespace Token

/-- Where nothing follows, every token ends. -/
theorem ends_nil (token : Token) : token.Ends [] := by
  intro c hc
  cases hc

/-- A mark ends anywhere. -/
theorem ends_mark (c : Char) (text : List Char) : (mark c).Ends text :=
  fun _ _ => rfl

/-- A blank ends every token. -/
theorem ends_blank {c : Char} (hc : isBlank c = true) (token : Token) (text : List Char) :
    token.Ends (c :: text) := by
  rintro d ⟨⟩
  cases token with
  | word | directive => exact isWordChar_of_isBlank hc
  | mark => rfl
  | quoted =>
      refine beq_false_of_ne ?_
      rintro rfl
      exact absurd hc (by decide)

/-- Whether a token ends depends on the first character after it. -/
theorem Ends.of_head? {token : Token} {text other : List Char} (h : token.Ends text)
    (hhead : ∀ c ∈ other.head?, c ∈ text.head?) : token.Ends other :=
  fun c hc => h c (hhead c hc)

/-- A token ends before a text if it ends before more of it. -/
theorem Ends.of_append {token : Token} {text rest : List Char} (h : token.Ends (text ++ rest)) :
    token.Ends text := by
  refine h.of_head? fun c hc => ?_
  cases text with
  | nil => cases hc
  | cons d text => exact hc

theorem text_ne_nil {token : Token} (h : token.Proper) : token.text ≠ [] := by
  cases token with
  | word text => exact h.1
  | mark | directive => exact List.cons_ne_nil _ _
  | quoted block body => cases block <;> exact List.cons_ne_nil _ _

/-- A token has a first character. -/
theorem exists_text_eq {token : Token} (h : token.Proper) :
    ∃ c rest, token.text = c :: rest :=
  List.exists_cons_of_ne_nil (text_ne_nil h)

/-- Apart from strings, tokens have no blanks. -/
theorem isBlank_of_mem_text {token : Token} (h : token.Proper) (hquoted : token.isQuoted = false)
    {c : Char} (hc : c ∈ token.text) : isBlank c = false := by
  cases token with
  | word text => exact isBlank_of_isWordChar (h.2 c hc)
  | mark d => exact List.mem_singleton.1 hc ▸ isBlank_of_mem_marks h
  | directive name =>
      rcases List.mem_cons.1 hc with rfl | hc
      · decide
      · exact isBlank_of_isWordChar ((proper_word_of_isIdentifier h).2 c hc)
  | quoted => cases hquoted

/-- Outside strings a mark is only found as a token of its own. -/
theorem eq_mark_of_mem_text {token : Token} (h : token.Proper) (hquoted : token.isQuoted = false)
    {c : Char} (hc : c ∈ marks) (hmem : c ∈ token.text) : token = .mark c := by
  have hnot := isWordChar_of_mem_marks hc
  cases token with
  | word text =>
      rw [h.2 c hmem] at hnot
      cases hnot
  | mark d => rw [List.mem_singleton.1 hmem]
  | directive name =>
      rcases List.mem_cons.1 hmem with rfl | hmem
      · exact absurd hc (by decide)
      · rw [(proper_word_of_isIdentifier h).2 c hmem] at hnot
        cases hnot
  | quoted => cases hquoted

end Token

namespace Blanks

variable {gap : Char → Bool} {text : List Char}

theorem nil : Blanks gap [] := by
  intro c hc
  cases hc

theorem cons {c : Char} (hc : isBlank c = true) (hgap : gap c = true) (h : Blanks gap text) :
    Blanks gap (c :: text) := by
  intro d hd
  rcases List.mem_cons.1 hd with rfl | hd
  · exact ⟨hc, hgap⟩
  · exact h d hd

/-- Trimming drops blanks before a text that begins with something else. -/
theorem trimStart_append (h : Blanks gap text) {rest : List Char} (hrest : Begins rest) :
    trimStart (text ++ rest) = rest :=
  dropWhile_append_eq (fun c hc => (h c hc).1) hrest

/-- No blanks end a text that does not end with a blank. -/
theorem eq_nil_of_stops {front : List Char} (h : Blanks gap text) (hstops : Stops (front ++ text)) :
    text = [] := by
  cases hlast : text.getLast? with
  | none => exact List.getLast?_eq_none_iff.1 hlast
  | some c =>
      have hblank := (h c (List.mem_of_getLast? hlast)).1
      rw [hstops.of_append c hlast] at hblank
      cases hblank

theorem trimStart_eq_nil (h : Blanks gap text) : trimStart text = [] := by
  have happend := h.trimStart_append begins_nil
  rwa [List.append_nil] at happend

end Blanks

namespace Spaced

variable {gap : Char → Bool} {token : Token} {tokens first second : List Token}
  {text other : List Char}

/-- Blanks may be added before a text. -/
theorem blanks_append {blanks : List Char} (hb : Blanks gap blanks) (h : Spaced gap tokens text) :
    Spaced gap tokens (blanks ++ text) := by
  induction blanks with
  | nil => exact h
  | cons c rest ih =>
      have hc := hb c (by simp)
      exact .blank hc.1 hc.2 (ih fun d hd => hb d (List.mem_cons_of_mem c hd))

/-- A text that says nothing is blank. -/
theorem blanks_of_nil (h : Spaced gap [] text) : Blanks gap text := by
  generalize hn : ([] : List Token) = tokens at h
  induction h with
  | nil => exact .nil
  | blank hc hgap _ ih => exact .cons hc hgap (ih hn)
  | token => cases hn

/-- A text that says a token is blank up to that token. -/
theorem cons_inv (h : Spaced gap (token :: tokens) text) :
    ∃ blanks rest, text = blanks ++ (token.text ++ rest) ∧ Blanks gap blanks ∧ token.Proper ∧
      token.isQuoted = false ∧ token.Ends rest ∧ Spaced gap tokens rest := by
  generalize ht : token :: tokens = all at h
  induction h with
  | nil => cases ht
  | blank hc hgap _ ih =>
      obtain ⟨blanks, rest, rfl, hb, hrest⟩ := ih ht
      exact ⟨_ :: blanks, rest, rfl, .cons hc hgap hb, hrest⟩
  | token hproper hquoted hends h =>
      cases ht
      exact ⟨[], _, rfl, .nil, hproper, hquoted, hends, h⟩

/-- A mark may stand before any text. -/
theorem mark {c : Char} (hc : c ∈ marks) (h : Spaced gap tokens text) :
    Spaced gap (.mark c :: tokens) (c :: text) :=
  .token (show (Token.mark c).Proper from hc) rfl (Token.ends_mark c text) h

/-- A mark is found behind blanks. -/
theorem mark_inv {c : Char} (h : Spaced gap (.mark c :: tokens) text) :
    ∃ blanks rest, text = blanks ++ c :: rest ∧ Blanks gap blanks ∧ Spaced gap tokens rest := by
  obtain ⟨blanks, rest, rfl, hb, -, -, -, hrest⟩ := h.cons_inv
  exact ⟨blanks, rest, rfl, hb, hrest⟩

/-- A text that says two rows of tokens has a text of each, the first ending with its last token. -/
theorem append_inv (h : Spaced gap (first ++ second) text) :
    ∃ before after, text = before ++ after ∧ Spaced gap first before ∧ Spaced gap second after := by
  induction first generalizing text with
  | nil => exact ⟨[], text, rfl, .nil, h⟩
  | cons token rest ih =>
      obtain ⟨blanks, more, rfl, hb, hproper, hquoted, hends, hmore⟩ := h.cons_inv
      obtain ⟨before, after, rfl, hbefore, hafter⟩ := ih hmore
      refine ⟨blanks ++ (token.text ++ before), after, by simp, ?_, hafter⟩
      exact blanks_append hb (.token hproper hquoted hends.of_append hbefore)

/-- Blanks may be added after a text. -/
theorem append_blanks {blanks : List Char} (h : Spaced gap tokens text) (hb : Blanks gap blanks) :
    Spaced gap tokens (text ++ blanks) := by
  induction h with
  | nil => simpa using blanks_append hb .nil
  | blank hc hgap _ ih => exact .blank hc hgap ih
  | @token token tokens text hproper hquoted hends _ ih =>
      rw [List.append_assoc]
      refine .token hproper hquoted ?_ ih
      cases text with
      | nil =>
          cases blanks with
          | nil => exact token.ends_nil
          | cons c blanks => exact token.ends_blank (hb c (by simp)).1 blanks
      | cons c text => exact hends

/-- The empty text says nothing, for no token is empty. -/
theorem eq_nil (h : Spaced gap tokens []) : tokens = [] := by
  cases tokens with
  | nil => rfl
  | cons token more =>
      obtain ⟨blanks, rest, hnil, -, hproper, -⟩ := h.cons_inv
      obtain ⟨-, hrest⟩ := List.append_eq_nil_iff.1 hnil.symm
      exact absurd (List.append_eq_nil_iff.1 hrest).1 (Token.text_ne_nil hproper)

/-- A text whose last token is a mark may stand before any other. -/
theorem append_of_mark {c : Char} {more : List Token} (h : Spaced gap (tokens ++ [.mark c]) text)
    (hother : Spaced gap more other) : Spaced gap (tokens ++ .mark c :: more) (text ++ other) := by
  induction tokens generalizing text with
  | nil =>
      obtain ⟨blanks, rest, rfl, hb, hproper, hquoted, -, hrest⟩ := h.cons_inv
      rw [List.append_assoc, List.append_assoc]
      exact .blanks_append hb (.token hproper hquoted (Token.ends_mark c _)
        (.blanks_append hrest.blanks_of_nil hother))
  | cons token tokens ih =>
      obtain ⟨blanks, rest, rfl, hb, hproper, hquoted, hends, hrest⟩ := h.cons_inv
      rw [List.append_assoc, List.append_assoc]
      refine .blanks_append hb (.token hproper hquoted ?_ (ih hrest))
      cases rest with
      | nil => exact absurd hrest.eq_nil (List.concat_ne_nil (.mark c) tokens)
      | cons d rest => exact hends

/-- A last mark is followed by blanks only. -/
theorem concat_mark_inv {c : Char} (h : Spaced gap (tokens ++ [.mark c]) text) :
    ∃ before blanks, text = before ++ c :: blanks ∧ Spaced gap tokens before ∧
      Blanks gap blanks := by
  obtain ⟨before, after, rfl, hbefore, hafter⟩ := h.append_inv
  obtain ⟨blanks, rest, rfl, hb, hrest⟩ := hafter.mark_inv
  exact ⟨before ++ blanks, rest, by simp, hbefore.append_blanks hb, hrest.blanks_of_nil⟩

/-- Every character of a text is blank or belongs to one of the tokens. -/
theorem mem_text (h : Spaced gap tokens text) {c : Char} (hc : c ∈ text) :
    isBlank c = true ∨ ∃ token ∈ tokens, token.Proper ∧ token.isQuoted = false ∧
      c ∈ token.text := by
  induction h with
  | nil => cases hc
  | blank hblank _ _ ih =>
      rcases List.mem_cons.1 hc with rfl | hc
      · exact .inl hblank
      · exact ih hc
  | token hproper hquoted _ _ ih =>
      rcases List.mem_append.1 hc with hc | hc
      · exact .inr ⟨_, List.mem_cons_self, hproper, hquoted, hc⟩
      · rcases ih hc with hblank | ⟨token, htoken, hmem⟩
        · exact .inl hblank
        · exact .inr ⟨token, List.mem_cons_of_mem _ htoken, hmem⟩

/-- A mark that is no token of a text does not occur in it. -/
theorem not_mem_text (h : Spaced gap tokens text) {c : Char} (hc : c ∈ marks)
    (hnone : ∀ token ∈ tokens, token ≠ .mark c) : c ∉ text := by
  intro hmem
  rcases h.mem_text hmem with hblank | ⟨token, htoken, hproper, hquoted, hct⟩
  · rw [isBlank_of_mem_marks hc] at hblank
    cases hblank
  · exact hnone token htoken (Token.eq_mark_of_mem_text hproper hquoted hc hct)

/-- A text begins with a blank or with its first token. -/
theorem head?_cases (h : Spaced gap tokens text) {c : Char} (hc : c ∈ text.head?) :
    (isBlank c = true ∧ gap c = true) ∨
      ∃ token more, tokens = token :: more ∧ token.Proper ∧ c ∈ token.text.head? := by
  cases h with
  | nil => cases hc
  | blank hblank hgap =>
      cases hc
      exact .inl ⟨hblank, hgap⟩
  | @token token tokens text hproper =>
      refine .inr ⟨token, tokens, rfl, hproper, ?_⟩
      obtain ⟨d, rest, ht⟩ := Token.exists_text_eq hproper
      rwa [ht] at hc ⊢

/-- Where a word ends, no other word begins. -/
theorem head?_of_ends (h : Spaced gap tokens text) {word : List Char}
    (hends : (Token.word word).Ends text) {c : Char} (hc : c ∈ text.head?) :
    isBlank c = true ∨
      ∃ token more, tokens = token :: more ∧ (∀ next, token ≠ .word next) ∧
        c ∈ token.text.head? := by
  rcases h.head?_cases hc with ⟨hblank, -⟩ | ⟨token, more, rfl, hproper, hmem⟩
  · exact .inl hblank
  · refine .inr ⟨token, more, rfl, ?_, hmem⟩
    rintro next rfl
    have hstop : isWordChar c = false := hends c hc
    rw [hproper.2 c (List.mem_of_mem_head? hmem)] at hstop
    cases hstop

/-- A text that does not begin with a blank begins with its first token. -/
theorem cons_inv_of_begins (h : Spaced gap (token :: tokens) text) (hbegins : Begins text) :
    ∃ rest, text = token.text ++ rest ∧ token.Proper ∧ token.isQuoted = false ∧
      token.Ends rest ∧ Spaced gap tokens rest := by
  obtain ⟨blanks, rest, rfl, hb, hrest⟩ := h.cons_inv
  cases blanks with
  | nil => exact ⟨rest, rfl, hrest⟩
  | cons c blanks =>
      have hblank := (hb c (by simp)).1
      rw [hbegins c rfl] at hblank
      cases hblank

/-- The text of a token begins with the token. -/
theorem begins_text_append (hproper : token.Proper) (hquoted : token.isQuoted = false)
    (rest : List Char) : Begins (token.text ++ rest) := by
  obtain ⟨c, more, ht⟩ := Token.exists_text_eq hproper
  rw [ht]
  rintro d ⟨⟩
  exact Token.isBlank_of_mem_text hproper hquoted (by simp [ht])

/-- A text is blank up to its first token. -/
theorem exists_begins (h : Spaced gap tokens text) :
    ∃ blanks core, text = blanks ++ core ∧ Blanks gap blanks ∧ Begins core ∧
      Spaced gap tokens core := by
  cases tokens with
  | nil => exact ⟨text, [], by simp, h.blanks_of_nil, begins_nil, .nil⟩
  | cons token more =>
      obtain ⟨blanks, rest, rfl, hb, hproper, hquoted, hends, hrest⟩ := h.cons_inv
      exact ⟨blanks, token.text ++ rest, rfl, hb, begins_text_append hproper hquoted rest,
        .token hproper hquoted hends hrest⟩

/-- After the first blanks a text begins with its first token. -/
theorem head?_trimStart (h : Spaced gap (token :: tokens) text) :
    (trimStart text).head? = token.text.head? := by
  obtain ⟨blanks, rest, rfl, hb, hproper, hquoted, -, -⟩ := h.cons_inv
  rw [hb.trimStart_append (begins_text_append hproper hquoted rest)]
  obtain ⟨c, more, ht⟩ := Token.exists_text_eq hproper
  rw [ht]
  rfl

end Spaced

end ModelGraph.Written
