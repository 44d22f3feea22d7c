import ModelGraph.Document.Lexeme
import ModelGraph.Trivia

/-! # String literals

A literal is closed if the quotes that open it also end it. Two walks look for that end: the one
that takes lexemes, which lets a backslash protect the quotes behind it (`lineLength_append`,
`blockLength_append`), and the one that blanks out trivia. The first lets a backslash stand before
an end of line, so what is complete for it need not be closed for the second. The second stops a
block string at the next three quotes, so the two agree on closed literals that have no such quotes
inside (`trivium?_literal`). -/

namespace ModelGraph.Document

open Text

/-- The quotes around a block string. -/
def blockQuotes : List Char :=
  ['"', '"', '"']

/-- What a string has between its quotes: backslashes, each with a character of the class behind it,
and between them neither quotes nor an end of line. -/
inductive StringContent (taken : Char → Prop) : List Char → Prop
  | nil : StringContent taken []
  | escaped {c : Char} {rest : List Char} (htaken : taken c) (hrest : StringContent taken rest) :
      StringContent taken ('\\' :: c :: rest)
  | plain {c : Char} {rest : List Char} (hquote : c ≠ '"') (hslash : c ≠ '\\') (hline : c ≠ '\n')
      (hrest : StringContent taken rest) : StringContent taken (c :: rest)

/-- What a string on one line has between its quotes. -/
abbrev LineContent : List Char → Prop :=
  StringContent (· ≠ '\n')

/-- What a block string has between its quotes: three quotes in a row only behind a backslash,
counting the ones that close it. -/
inductive BlockContent : List Char → Prop
  | nil : BlockContent []
  | escaped {c : Char} {rest : List Char} (hrest : BlockContent rest) :
      BlockContent ('\\' :: c :: rest)
  | plain {c : Char} {rest : List Char} (hslash : c ≠ '\\')
      (hquotes : ¬ blockQuotes <+: c :: (rest ++ blockQuotes)) (hrest : BlockContent rest) :
      BlockContent (c :: rest)

/-- A whole string literal, in which a backslash takes a character of the class with it, or any if
it is a block string. -/
inductive Literal (taken : Char → Prop) : List Char → Prop
  | line {content : List Char} (h : StringContent taken content) :
      Literal taken ('"' :: (content ++ ['"']))
  | block {content : List Char} (h : BlockContent content) :
      Literal taken (blockQuotes ++ content ++ blockQuotes)

/-- A literal that is on one line, or a block string. -/
abbrev Closed : List Char → Prop :=
  Literal (· ≠ '\n')

/-- A literal that is whole for the reader of lexemes: a backslash takes any character with it. -/
abbrev Complete : List Char → Prop :=
  Literal fun _ => True

theorem StringContent.mono {taken other : Char → Prop} (htaken : ∀ c, taken c → other c)
    {content : List Char} (h : StringContent taken content) : StringContent other content := by
  induction h with
  | nil => exact .nil
  | escaped hc _ ih => exact .escaped (htaken _ hc) ih
  | plain hquote hslash hline _ ih => exact .plain hquote hslash hline ih

theorem Closed.complete {literal : List Char} (h : Closed literal) : Complete literal := by
  cases h with
  | line hcontent => exact .line (hcontent.mono fun _ _ => trivial)
  | block hcontent => exact .block hcontent

/-- The first three quotes behind the opening ones close the literal, if it is a block string. -/
def EndsAtFirstQuotes (literal : List Char) : Prop :=
  ∀ content, literal = blockQuotes ++ content ++ blockQuotes →
    ¬ blockQuotes <:+: content ++ ['"', '"']

section Walk

variable {c : Char} {rest : List Char}

theorem blockLength_plain (hslash : c ≠ '\\') (hquotes : ¬ blockQuotes <+: c :: rest) :
    blockLength (c :: rest) = blockLength rest + 1 := by
  rw [blockLength]
  · rintro rfl
    exact absurd rfl hslash
  · rintro _ _ rfl
    exact absurd rfl hslash
  · rintro more rfl rfl
    exact absurd (List.prefix_append blockQuotes more) hquotes

theorem lineLength_plain (hslash : c ≠ '\\') (hquote : c ≠ '"') (hline : c ≠ '\n') :
    lineLength (c :: rest) = lineLength rest + 1 := by
  rw [lineLength]
  · exact hline
  · exact hquote
  · rintro rfl
    exact absurd rfl hslash
  · rintro _ _ rfl
    exact absurd rfl hslash

/-- Induction along the walk to the end of a block string. -/
theorem blockLength_induction {motive : List Char → Prop} (nil : motive [])
    (lone : motive ['\\']) (escaped : ∀ c rest, motive rest → motive ('\\' :: c :: rest))
    (quotes : ∀ rest, motive (blockQuotes ++ rest))
    (plain : ∀ c rest, c ≠ '\\' → ¬ blockQuotes <+: c :: rest → motive rest → motive (c :: rest))
    (text : List Char) : motive text := by
  induction text using blockLength.induct with
  | case1 => exact nil
  | case2 => exact lone
  | case3 c rest ih => exact escaped c rest ih
  | case4 rest => exact quotes rest
  | case5 c rest hlone hslash hquotes ih =>
      refine plain c rest ?_ ?_ ih
      · rintro rfl
        cases rest with
        | nil => exact hlone rfl rfl
        | cons d more => exact hslash d more rfl rfl
      · rintro ⟨more, heq⟩
        obtain ⟨rfl, rfl⟩ := List.cons.inj heq
        exact hquotes more rfl rfl

/-- Induction along the walk to the end of a string on one line. -/
theorem lineLength_induction {motive : List Char → Prop} (nil : motive [])
    (newline : ∀ rest, motive ('\n' :: rest)) (quote : ∀ rest, motive ('"' :: rest))
    (lone : motive ['\\']) (escaped : ∀ c rest, motive rest → motive ('\\' :: c :: rest))
    (plain : ∀ c rest, c ≠ '\\' → c ≠ '"' → c ≠ '\n' → motive rest → motive (c :: rest))
    (text : List Char) : motive text := by
  induction text using lineLength.induct with
  | case1 => exact nil
  | case2 rest => exact newline rest
  | case3 rest => exact quote rest
  | case4 => exact lone
  | case5 c rest ih => exact escaped c rest ih
  | case6 c rest hline hquote hlone hslash ih =>
      refine plain c rest ?_ hquote hline ih
      rintro rfl
      cases rest with
      | nil => exact hlone rfl rfl
      | cons d more => exact hslash d more rfl rfl

end Walk

theorem lineLength_append {taken : Char → Prop} {content : List Char}
    (h : StringContent taken content) (rest : List Char) :
    lineLength (content ++ '"' :: rest) = content.length + 1 := by
  induction h with
  | nil => rfl
  | escaped _ _ ih => simp [lineLength, ih]
  | plain hquote hslash hline _ ih =>
      rw [List.cons_append, lineLength_plain hslash hquote hline, ih]
      rfl

/-- Three quotes stand at the front of a text whatever follows its second last one. -/
theorem blockQuotes_isPrefix_cons_iff (c : Char) (more rest : List Char) :
    blockQuotes <+: c :: (more ++ blockQuotes ++ rest) ↔
      blockQuotes <+: c :: (more ++ ['"', '"']) := by
  match more with
  | [] => simp [blockQuotes]
  | [d] => simp [blockQuotes]
  | d :: e :: more => simp [blockQuotes]

theorem blockLength_append {content : List Char} (h : BlockContent content) (rest : List Char) :
    blockLength (content ++ blockQuotes ++ rest) = content.length + 3 := by
  induction h with
  | nil => rfl
  | escaped _ ih => simpa [blockLength] using ih
  | @plain c more hslash hquotes _ ih =>
      have hfront : ¬ blockQuotes <+: c :: (more ++ blockQuotes ++ rest) := by
        rw [blockQuotes_isPrefix_cons_iff, ← blockQuotes_isPrefix_cons_iff c more []]
        simpa using hquotes
      rw [List.cons_append, List.cons_append, blockLength_plain hslash hfront, ih]
      simp

theorem toLineEnd_content {content : List Char} (h : LineContent content) (rest : List Char) :
    Trivia.toLineEnd (content ++ '"' :: rest) = some (content.length + 1) := by
  induction h with
  | nil => rfl
  | escaped hline _ ih =>
      rw [List.cons_append, List.cons_append, Trivia.toLineEnd, ih]
      · rfl
      · exact hline
  | plain hquote hslash hline _ ih =>
      rw [List.cons_append, Trivia.toLineEnd, ih]
      · rfl
      · exact hquote
      · exact hline
      · rintro rfl
        exact absurd rfl hslash
      · rintro _ rfl
        exact absurd rfl hslash
      · rintro _ _ rfl
        exact absurd rfl hslash

/-- Without quotes inside that close it, a block string ends where it is meant to end. -/
theorem toBlockEnd_content {content : List Char} (h : ¬ blockQuotes <:+: content ++ ['"', '"'])
    (rest : List Char) :
    Trivia.toBlockEnd (content ++ blockQuotes ++ rest) = some (content.length + 3) := by
  induction content with
  | nil => rfl
  | cons c more ih =>
      have hfront : ¬ blockQuotes <+: c :: (more ++ blockQuotes ++ rest) := by
        rw [blockQuotes_isPrefix_cons_iff]
        exact fun hquotes => h hquotes.isInfix
      have hmore : ¬ blockQuotes <:+: more ++ ['"', '"'] :=
        fun hpart => h (hpart.trans (List.suffix_cons c _).isInfix)
      rw [List.cons_append, List.cons_append, Trivia.toBlockEnd, ih hmore]
      · rfl
      · rintro tail rfl htail
        rw [htail] at hfront
        exact hfront ⟨tail, rfl⟩

theorem head?_stringContent {taken : Char → Prop} {content : List Char}
    (h : StringContent taken content) : ∀ c ∈ content.head?, c ≠ '"' := by
  cases h with
  | nil => exact fun c hc => nomatch hc
  | escaped => simp
  | plain hquote =>
      rintro c ⟨⟩
      exact hquote

/-- The quotes of a string on one line open no block string. -/
theorem block?_line {content rest : List Char} (h : LineContent content)
    (hends : content = [] → ∀ c ∈ rest.head?, c ≠ '"') :
    Trivia.block? ('"' :: (content ++ '"' :: rest)) = none := by
  cases content with
  | nil =>
      cases rest with
      | nil => rfl
      | cons c rest => simp [Trivia.block?, hends rfl c rfl]
  | cons c more => simp [Trivia.block?, head?_stringContent h c rfl]

theorem trivium?_line {content rest : List Char} (h : LineContent content)
    (hends : content = [] → ∀ c ∈ rest.head?, c ≠ '"') :
    Trivia.trivium? ('"' :: (content ++ '"' :: rest)) = some (content.length + 2) := by
  simp [Trivia.trivium?, block?_line h hends, Trivia.string?, toLineEnd_content h]

theorem trivium?_block {content : List Char} (h : ¬ blockQuotes <:+: content ++ ['"', '"'])
    (rest : List Char) :
    Trivia.trivium? (blockQuotes ++ (content ++ blockQuotes ++ rest)) =
      some (content.length + 6) := by
  have hblock : Trivia.block? (blockQuotes ++ (content ++ blockQuotes ++ rest)) =
      (Trivia.toBlockEnd (content ++ blockQuotes ++ rest)).map (· + 3) := rfl
  rw [Trivia.trivium?, hblock, toBlockEnd_content h]
  rfl

/-- A closed literal is one trivium, unless quotes inside close it or quotes behind open it anew. -/
theorem trivium?_literal {literal rest : List Char} (hclosed : Closed literal)
    (hfirst : EndsAtFirstQuotes literal)
    (hends : literal = ['"', '"'] → ∀ c ∈ rest.head?, c ≠ '"') :
    Trivia.trivium? (literal ++ rest) = some literal.length := by
  cases hclosed with
  | @line content hcontent =>
      have hspan := trivium?_line hcontent fun hnil => hends (by rw [hnil]; rfl)
      simpa using hspan
  | @block content _ =>
      have hspan := trivium?_block (hfirst content rfl) rest
      have hlength : (blockQuotes ++ content ++ blockQuotes).length = content.length + 6 := by
        simp [blockQuotes]
      rwa [hlength, List.append_assoc blockQuotes, List.append_assoc blockQuotes]

/-- A literal that has nothing between its quotes ends at the first that could end it. -/
theorem endsAtFirstQuotes_of_length_le {literal : List Char} (h : literal.length ≤ 6) :
    EndsAtFirstQuotes literal := by
  rintro content rfl hpart
  have hthree : 3 ≤ (content ++ ['"', '"']).length := hpart.length_le
  have hsix : 3 + content.length + 3 ≤ 6 := by
    rwa [List.length_append, List.length_append] at h
  rw [List.length_append, List.length_cons, List.length_singleton] at hthree
  omega

end ModelGraph.Document
