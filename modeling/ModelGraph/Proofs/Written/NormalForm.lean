import ModelGraph.Proofs.Document.Literal
import ModelGraph.Proofs.Written.Erasure

/-! # The normal form of written tokens

Blanking out trivia leaves a text of the tokens that are no strings, with blanks between them
(`Laid.spaced_blankOut`). Collapsing the blanks leaves a text of the same tokens, without blanks at
its ends (`Spaced.normal`). -/

namespace ModelGraph.Written

open Text

/-- Every blank. -/
def anyBlank (_ : Char) : Bool :=
  true

/-- The blank of normal forms. -/
def isSpace (c : Char) : Bool :=
  c == ' '

/-- The tokens without strings. -/
def bare (tokens : List Token) : List Token :=
  tokens.filter fun token => !token.isQuoted

@[simp] theorem bare_nil : bare [] = [] := rfl

@[simp] theorem bare_word (text : List Char) (tokens : List Token) :
    bare (.word text :: tokens) = .word text :: bare tokens := rfl

@[simp] theorem bare_mark (c : Char) (tokens : List Token) :
    bare (.mark c :: tokens) = .mark c :: bare tokens := rfl

@[simp] theorem bare_directive (name : List Char) (tokens : List Token) :
    bare (.directive name :: tokens) = .directive name :: bare tokens := rfl

@[simp] theorem bare_quoted (block : Bool) (body : List Char) (tokens : List Token) :
    bare (.quoted block body :: tokens) = bare tokens := rfl

@[simp] theorem bare_append (first second : List Token) :
    bare (first ++ second) = bare first ++ bare second := by
  simp [bare]

section Trivia

open Trivia Document

/-- Only quotes and number signs open trivia. -/
theorem trivium?_eq_none {c : Char} (hquote : c ≠ '"') (hsign : c ≠ '#') (rest : List Char) :
    trivium? (c :: rest) = none := by
  simp [trivium?, block?, string?, comment?, hquote, hsign]

theorem lineContent_of_not_mem {body : List Char} (hquote : '"' ∉ body) (hslash : '\\' ∉ body)
    (hline : '\n' ∉ body) : LineContent body := by
  induction body with
  | nil => exact .nil
  | cons c more ih =>
      simp only [List.mem_cons, not_or] at hquote hslash hline
      exact .plain (Ne.symm hquote.1) (Ne.symm hslash.1) (Ne.symm hline.1)
        (ih hquote.2 hslash.2 hline.2)

/-- Two quotes behind a body without quotes are two. -/
theorem not_isInfix_of_not_mem {body : List Char} (hquote : '"' ∉ body) :
    ¬ blockQuotes <:+: body ++ ['"', '"'] := by
  intro hpart
  have hthree := hpart.sublist.count_le '"'
  rw [List.count_append, List.count_eq_zero.2 hquote] at hthree
  exact absurd hthree (by decide)

/-- A string is one trivium, up to its closing quotes. -/
theorem trivium?_quoted {block : Bool} {body rest : List Char}
    (hproper : (Token.quoted block body).Proper) (hends : (Token.quoted block body).Ends rest) :
    trivium? ((Token.quoted block body).text ++ rest) =
      some (Token.quoted block body).text.length := by
  obtain ⟨hquote, hslash, hline⟩ := hproper
  cases block with
  | true =>
      have hspan := trivium?_block (not_isInfix_of_not_mem hquote) rest
      simpa [Token.text, blockQuotes] using hspan
  | false =>
      have hrest : ∀ c ∈ rest.head?, c ≠ '"' := by
        rintro c hc rfl
        cases hends '"' hc
      have hcontent := lineContent_of_not_mem hquote hslash (hline rfl)
      have hspan := trivium?_line hcontent fun _ => hrest
      simpa [Token.text] using hspan

/-- A comment is one trivium, up to the end of its line or of the text. -/
theorem trivium?_comment {body rest : List Char} (hbody : '\n' ∉ body)
    (hrest : ∀ c ∈ rest.head?, c = '\n') :
    trivium? ('#' :: (body ++ rest)) = some (body.length + 1) := by
  simp only [trivium?, block?, string?, comment?, takeWhile_line hbody hrest]
  rfl

/-- Nothing opens trivia in a token that is no string. -/
theorem trivium?_eq_none_of_mem {token : Token} (hproper : token.Proper)
    (hquoted : token.isQuoted = false) {c : Char} (hc : c ∈ token.text) (rest : List Char) :
    trivium? (c :: rest) = none := by
  have hword : ∀ {c : Char}, isWordChar c = true → c ≠ '"' ∧ c ≠ '#' := by
    intro c hc
    constructor <;> rintro rfl <;> exact absurd hc (by decide)
  have hboth : c ≠ '"' ∧ c ≠ '#' := by
    cases token with
    | word text => exact hword (hproper.2 c hc)
    | mark d =>
        rw [List.mem_singleton.1 hc]
        constructor <;> rintro rfl <;> exact absurd hproper (by decide)
    | directive name =>
        rcases List.mem_cons.1 hc with rfl | hc
        · decide
        · exact hword ((proper_word_of_isIdentifier hproper).2 c hc)
    | quoted => cases hquoted
  exact trivium?_eq_none hboth.1 hboth.2 rest

/-- The empty text says no tokens, for no token is empty. -/
theorem Laid.eq_nil {tokens : List Token} (h : Laid tokens []) : tokens = [] := by
  generalize htext : ([] : List Char) = text at h
  cases h with
  | nil => rfl
  | blank => cases htext
  | comment => cases htext
  | token hproper =>
      obtain ⟨hnil, -⟩ := List.append_eq_nil_iff.1 htext.symm
      exact absurd hnil (Token.text_ne_nil hproper)

/-- A token of a text ends in front of what follows the text, if the last token does. -/
theorem Laid.ends_append {token : Token} {tokens : List Token} {text rest : List Char}
    (h : Laid tokens text) (hends : token.Ends text)
    (hlast : ∀ last ∈ (token :: tokens).getLast?, last.Ends rest) : token.Ends (text ++ rest) := by
  cases text with
  | nil =>
      rw [h.eq_nil] at hlast
      exact hlast token rfl
  | cons c text => exact hends

/-- Trivia do not reach beyond a text whose last token ends there. Without them the text says the
tokens that are no strings. -/
theorem Laid.blankOut_append {tokens : List Token} {text : List Char} (h : Laid tokens text)
    {rest : List Char} (hlast : ∀ token ∈ tokens.getLast?, token.Ends rest) :
    ∃ left, blankOut trivium? (text ++ rest) = left ++ blankOut trivium? rest ∧
      Spaced anyBlank (bare tokens) left := by
  induction h with
  | nil => exact ⟨[], rfl, .nil⟩
  | @blank c tokens text hc _ ih =>
      obtain ⟨left, heq, hleft⟩ := ih hlast
      have hnone : trivium? (c :: (text ++ rest)) = none := by
        refine trivium?_eq_none ?_ ?_ _ <;> rintro rfl <;> exact absurd hc (by decide)
      refine ⟨c :: left, ?_, .blank hc rfl hleft⟩
      rw [List.cons_append, blankOut_of_none hnone, heq]
      rfl
  | @comment body text tokens hbody _ ih =>
      obtain ⟨left, heq, hleft⟩ := ih hlast
      have hline : ∀ c ∈ ('\n' :: (text ++ rest)).head?, c = '\n' :=
        fun c hc => (Option.some.inj hc).symm
      refine ⟨' ' :: '\n' :: left, ?_, .blank (by decide) rfl (.blank (by decide) rfl hleft)⟩
      rw [List.cons_append, List.append_assoc, List.cons_append,
        blankOut_of_some (trivium?_comment hbody hline), List.drop_left,
        blankOut_of_none (trivium?_eq_none (by decide) (by decide) _), heq]
      rfl
  | @token token tokens text hproper hends h ih =>
      have hmore : ∀ last ∈ tokens.getLast?, last.Ends rest := by
        intro last hmem
        refine hlast last ?_
        rw [List.getLast?_cons, Option.mem_def.1 hmem]
        rfl
      obtain ⟨left, heq, hleft⟩ := ih hmore
      have hends := h.ends_append hends hlast
      cases hq : token.isQuoted with
      | false =>
          have hbare : bare (token :: tokens) = token :: bare tokens := by simp [bare, hq]
          have hkept : token.Ends (left ++ blankOut trivium? rest) := heq ▸ hends.blankOut trivium?
          refine ⟨token.text ++ left, ?_, hbare ▸ .token hproper hq hkept.of_append hleft⟩
          rw [List.append_assoc,
            blankOut_append_of_none fun c hc => trivium?_eq_none_of_mem hproper hq hc, heq,
            List.append_assoc]
      | true =>
          cases token with
          | word | mark | directive => cases hq
          | quoted block body =>
              have hspan := trivium?_quoted hproper hends
              obtain ⟨c, more, htext⟩ := Token.exists_text_eq hproper
              rw [htext, List.cons_append, List.length_cons] at hspan
              refine ⟨' ' :: left, ?_, .blank (by decide) rfl hleft⟩
              rw [htext, List.append_assoc, List.cons_append, blankOut_of_some hspan,
                List.drop_left, heq]
              rfl

/-- Without trivia a text says the tokens that are no strings. -/
theorem Laid.spaced_blankOut {tokens : List Token} {text : List Char} (h : Laid tokens text) :
    Spaced anyBlank (bare tokens) (blankOut trivium? text) := by
  obtain ⟨left, heq, hleft⟩ := h.blankOut_append fun token _ => token.ends_nil
  rw [List.append_nil, blankOut_nil, List.append_nil] at heq
  exact heq ▸ hleft

end Trivia

section Words

/-- A character of the class goes to the front of the first run, or makes one of its own. -/
theorem runs_cons_cases (p : Char → Bool) {c : Char} (hc : p c = true) (d : Char)
    (rest : List Char) :
    (runs p (d :: rest) = [] ∧ runs p (c :: d :: rest) = [[c]]) ∨
      ∃ run more, runs p (d :: rest) = run :: more ∧
        runs p (c :: d :: rest) = if p d then (c :: run) :: more else [c] :: run :: more := by
  rw [runs.eq_def p (c :: d :: rest)]
  simp only [hc, if_true]
  cases runs p (d :: rest) with
  | nil => exact .inl ⟨rfl, rfl⟩
  | cons run more => exact .inr ⟨run, more, rfl, rfl⟩

/-- A run is read up to the first character outside the class. -/
theorem runs_append {p : Char → Bool} {run rest : List Char} (hne : run ≠ [])
    (hrun : ∀ c ∈ run, p c = true) (hrest : ∀ c ∈ rest.head?, p c = false) :
    runs p (run ++ rest) = run :: runs p rest := by
  induction run with
  | nil => exact absurd rfl hne
  | cons c more ih =>
      have hc : p c = true := hrun c List.mem_cons_self
      cases more with
      | nil =>
          cases rest with
          | nil => simp [runs, hc]
          | cons d rest =>
              have hd : p d = false := hrest d rfl
              rcases runs_cons_cases p hc d rest with ⟨hnil, hruns⟩ | ⟨first, left, hcons, hruns⟩
              · rw [List.singleton_append, hruns, hnil]
              · rw [List.singleton_append, hruns, hcons, hd]
                rfl
      | cons d more =>
          have hmore : ∀ e ∈ d :: more, p e = true :=
            fun e he => hrun e (List.mem_cons_of_mem c he)
          have hnext := ih (List.cons_ne_nil d more) hmore
          rcases runs_cons_cases p hc d (more ++ rest) with ⟨hnil, -⟩ | ⟨first, left, hcons, hruns⟩
          · rw [List.cons_append, hnil] at hnext
            cases hnext
          · rw [List.cons_append, hcons] at hnext
            obtain ⟨rfl, hleft⟩ := List.cons.inj hnext
            rw [List.cons_append, List.cons_append, hruns, hleft, hmore d List.mem_cons_self]
            rfl

/-- What stands outside the class before a text adds nothing to its runs. -/
theorem runs_append_of_not {p : Char → Bool} {front : List Char} (h : ∀ c ∈ front, p c = false)
    (rest : List Char) : runs p (front ++ rest) = runs p rest := by
  induction front with
  | nil => rfl
  | cons c more ih =>
      rw [List.cons_append, runs_cons_of_not (h c List.mem_cons_self),
        ih fun d hd => h d (List.mem_cons_of_mem c hd)]

theorem words_cons_blank {c : Char} (hc : isBlank c = true) (rest : List Char) :
    words (c :: rest) = words rest :=
  runs_cons_of_not (by simp [hc]) rest

/-- A character joins the first word behind it, or is a word of its own. -/
theorem words_cons {c : Char} (hc : isBlank c = false) (rest : List Char) :
    words (c :: rest) =
      match words rest with
      | [] => [[c]]
      | first :: more =>
          if rest.head?.any (fun d => !isBlank d) then (c :: first) :: more
          else [c] :: first :: more := by
  cases rest with
  | nil => simp [words, runs, hc]
  | cons d rest =>
      have hp : (fun c => !isBlank c) c = true := by simp [hc]
      rcases runs_cons_cases (fun c => !isBlank c) hp d rest with
        ⟨hnil, hruns⟩ | ⟨first, more, hcons, hruns⟩
      · rw [words, words, hruns, hnil]
      · rw [words, words, hruns, hcons]
        rfl

/-- A character before a word goes to the front of it. -/
theorem spaced_words_cons {c : Char} (hc : isBlank c = false) {rest : List Char}
    (hrest : Begins rest) : spaced (words (c :: rest)) = c :: spaced (words rest) := by
  rw [words_cons hc]
  cases rest with
  | nil => rfl
  | cons d rest =>
      have hd : isBlank d = false := hrest d rfl
      cases words (d :: rest) with
      | nil => rfl
      | cons first more => cases more <;> simp [hd, spaced]

/-- A character before a blank is a word of its own, with a space behind it if more words follow. -/
theorem spaced_words_cons_blank {c d : Char} (hc : isBlank c = false) (hd : isBlank d = true)
    (rest : List Char) :
    (spaced (words (c :: d :: rest)) = [c] ∧ spaced (words (d :: rest)) = []) ∨
      spaced (words (c :: d :: rest)) = c :: ' ' :: spaced (words (d :: rest)) := by
  rw [words_cons hc]
  cases words (d :: rest) with
  | nil => exact .inl ⟨rfl, rfl⟩
  | cons first more => exact .inr (by simp [hd, spaced])

theorem head?_spaced_words {text : List Char} (h : Begins text) :
    (spaced (words text)).head? = text.head? := by
  cases text with
  | nil => rfl
  | cons c rest =>
      have hc : isBlank c = false := h c rfl
      cases rest with
      | nil => simp [words, runs, hc]
      | cons d rest =>
          cases hd : isBlank d with
          | false =>
              have hrest : Begins (d :: rest) := by
                rintro _ ⟨⟩
                exact hd
              rw [spaced_words_cons hc hrest]
              rfl
          | true => rcases spaced_words_cons_blank hc hd rest with ⟨h, -⟩ | h <;> rw [h] <;> rfl

/-- A token stays whole, and ends where it ended or before a space. -/
theorem exists_spaced_words_append {token : Token} {word rest : List Char} (hne : word ≠ [])
    (hword : ∀ c ∈ word, isBlank c = false) (hends : token.Ends rest) :
    ∃ left, spaced (words (word ++ rest)) = word ++ left ∧ token.Ends left ∧
      (left = spaced (words rest) ∨ left = ' ' :: spaced (words rest)) := by
  induction word with
  | nil => exact absurd rfl hne
  | cons c more ih =>
      have hc := hword c (by simp)
      cases more with
      | nil =>
          cases rest with
          | nil => exact ⟨[], by simp [words, runs, hc], token.ends_nil, .inl rfl⟩
          | cons d rest =>
              cases hd : isBlank d with
              | false =>
                  have hrest : Begins (d :: rest) := by
                    rintro _ ⟨⟩
                    exact hd
                  refine ⟨_, spaced_words_cons hc hrest, ?_, .inl rfl⟩
                  refine hends.of_head? fun e he => ?_
                  change e ∈ (spaced (words (d :: rest))).head? at he
                  rwa [head?_spaced_words hrest] at he
              | true =>
                  rcases spaced_words_cons_blank hc hd rest with ⟨h, hnil⟩ | h
                  · exact ⟨[], h, token.ends_nil, .inl hnil.symm⟩
                  · exact ⟨_, h, token.ends_blank (by decide) _, .inr rfl⟩
      | cons d more =>
          obtain ⟨left, heq, hleft⟩ :=
            ih (List.cons_ne_nil d more) fun e he => hword e (List.mem_cons_of_mem c he)
          have hrest : Begins (d :: more ++ rest) := by
            rintro _ ⟨⟩
            exact hword d (by simp)
          refine ⟨left, ?_, hleft⟩
          rw [List.cons_append, spaced_words_cons hc hrest, heq]
          rfl

/-- Collapsing blanks keeps the tokens of a text. -/
theorem Spaced.normal {gap : Char → Bool} {tokens : List Token} {text : List Char}
    (h : Spaced gap tokens text) : Spaced isSpace tokens (spaced (words text)) := by
  induction h with
  | nil => exact .nil
  | @blank c tokens text hc _ _ ih =>
      rw [words_cons_blank hc]
      exact ih
  | @token token tokens text hproper hquoted hends _ ih =>
      obtain ⟨left, heq, hleft, hcases⟩ := exists_spaced_words_append (Token.text_ne_nil hproper)
        (fun c hc => Token.isBlank_of_mem_text hproper hquoted hc) hends
      rw [heq]
      refine .token hproper hquoted hleft ?_
      rcases hcases with rfl | rfl
      · exact ih
      · exact .blank (by decide) rfl ih

/-- Words are not empty and have no blanks. -/
theorem mem_words {word text : List Char} (h : word ∈ words text) :
    word ≠ [] ∧ ∀ c ∈ word, isBlank c = false := by
  induction text generalizing word with
  | nil => cases h
  | cons c rest ih =>
      cases hc : isBlank c with
      | true =>
          rw [words_cons_blank hc] at h
          exact ih h
      | false =>
          have hsingle : [c] ≠ [] ∧ ∀ d ∈ [c], isBlank d = false := by simp [hc]
          rw [words_cons hc] at h
          cases hw : words rest with
          | nil =>
              rw [hw] at h
              exact List.mem_singleton.1 h ▸ hsingle
          | cons first more =>
              rw [hw] at ih
              simp only [hw] at h
              have hfirst := ih List.mem_cons_self
              split at h
              · rcases List.mem_cons.1 h with rfl | h
                · exact ⟨List.cons_ne_nil c first, List.forall_mem_cons.2 ⟨hc, hfirst.2⟩⟩
                · exact ih (List.mem_cons_of_mem first h)
              · rcases List.mem_cons.1 h with rfl | h
                · exact hsingle
                · exact ih h

/-- Texts with blanks between them begin with the first of them. -/
theorem exists_spaced_cons (first : List Char) (more : List (List Char)) :
    ∃ rest, spaced (first :: more) = first ++ rest := by
  cases more with
  | nil => exact ⟨[], by simp⟩
  | cons second more => exact ⟨_, rfl⟩

theorem stops_spaced {texts : List (List Char)}
    (h : ∀ text ∈ texts, text ≠ [] ∧ ∀ c ∈ text, isBlank c = false) : Stops (spaced texts) := by
  induction texts with
  | nil => exact fun c hc => nomatch hc
  | cons first more ih =>
      cases more with
      | nil => exact fun c hc => (h first (by simp)).2 c (List.mem_of_getLast? hc)
      | cons second more =>
          obtain ⟨rest, hrest⟩ := exists_spaced_cons second more
          have hne : spaced (second :: more) ≠ [] := by
            rw [hrest]
            exact fun hnil => (h second (by simp)).1 (List.append_eq_nil_iff.1 hnil).1
          have hlast : (spaced (first :: second :: more)).getLast? =
              (spaced (second :: more)).getLast? := by
            change (first ++ ' ' :: spaced (second :: more)).getLast? = _
            rw [List.getLast?_append, List.getLast?_cons_of_ne_nil hne,
              List.getLast?_eq_some_getLast hne]
            rfl
          rw [Stops, hlast]
          exact ih fun text ht => h text (List.mem_cons_of_mem first ht)

/-- Collapsed text does not begin with a blank. -/
theorem begins_spaced_words (text : List Char) : Begins (spaced (words text)) := by
  cases hw : words text with
  | nil => exact fun c hc => nomatch hc
  | cons first more =>
      obtain ⟨hne, hfirst⟩ := mem_words (hw ▸ List.mem_cons_self : first ∈ words text)
      obtain ⟨rest, hrest⟩ := exists_spaced_cons first more
      rw [hrest]
      cases first with
      | nil => exact absurd rfl hne
      | cons c first =>
          rintro _ ⟨⟩
          exact hfirst c (by simp)

end Words

/-- If what is left of a text without trivia says tokens, its normal form says those of them that
are no directives, with no blank at its ends. -/
theorem Spaced.normalForm {tokens left : List Token} {text : List Char}
    (h : Spaced anyBlank tokens (blankOut Trivia.trivium? text))
    (ho : OpensAt Trivia.directive? '@') (he : Erases anyBlank Trivia.directive? tokens left) :
    Spaced isSpace left (normalForm text) ∧ Begins (normalForm text) ∧ Stops (normalForm text) :=
  ⟨(he.spaced_blankOut ho rfl h).normal, begins_spaced_words _, stops_spaced fun _ => mem_words⟩

end ModelGraph.Written
