import ModelGraph.Proofs.Written.Heading

/-! # How enums are written

The members of an enum are names between blanks, commas and comments. Descriptions and directives
say nothing about them. Whatever text says the tokens of an enum, its members are read as they were
written, repetitions included (`read?_of_enumText`). -/

namespace ModelGraph.Written

open Text Trivia Declaration

/-- Blanks and comments with which a text ends. The last comment may end with the text. -/
inductive Tail : List Char → Prop
  | closed {gap : List Char} (hgap : Laid [] gap) : Tail gap
  | comment {gap body : List Char} (hgap : Laid [] gap) (hbody : '\n' ∉ body) :
      Tail (gap ++ '#' :: body)

/-- A name, with something before and after it. -/
inductive MemberTokens (Before After : List Token → Prop) : String → List Token → Prop
  | mk {name : String} {before after : List Token} (hbefore : Before before)
      (hname : isIdentifier name.toList = true) (hafter : After after) :
      MemberTokens Before After name (before ++ .word name.toList :: after)

/-- A member of an enum: it may have a description and directives. -/
def Member : String → List Token → Prop :=
  MemberTokens Description Directives

/-- A member without strings. -/
def BareMember : String → List Token → Prop :=
  MemberTokens Absent Directives

/-- A member without strings and directives. -/
def Named : String → List Token → Prop :=
  MemberTokens Absent Absent

/-- The text declares an enum with the name and the members. -/
inductive EnumText (ident : String) (names : List String) : List Char → Prop
  | mk {heading row : List Token} {said tail : List Char} (hheading : Heading .enum ident heading)
      (hrow : Row Member names row)
      (hsaid : Laid (heading ++ .mark '\x7b' :: (row ++ [.mark '\x7d'])) said)
      (htail : Tail tail) : EnumText ident names (said ++ tail)

section Gap

/-- Without its comments, what stands between tokens is blank. -/
theorem blankOut_gap_append {gap : List Char} (h : Laid [] gap) (rest : List Char) :
    ∃ blanks, blankOut trivium? (gap ++ rest) = blanks ++ blankOut trivium? rest ∧
      Blanks anyBlank blanks := by
  have hlast : ∀ token ∈ ([] : List Token).getLast?, token.Ends rest := nofun
  obtain ⟨blanks, heq, hblanks⟩ := h.blankOut_append hlast
  exact ⟨blanks, heq, hblanks.blanks_of_nil⟩

/-- Of a comment that ends with the text a space is left. -/
theorem blankOut_lastComment {body : List Char} (hbody : '\n' ∉ body) :
    blankOut trivium? ('#' :: body) = [' '] := by
  have hspan : trivium? ('#' :: (body ++ [])) = some (body.length + 1) :=
    trivium?_comment hbody nofun
  rw [List.append_nil] at hspan
  rw [blankOut_of_some hspan, List.drop_length, blankOut_nil]

/-- Without its comments, the tail of a text is blank. -/
theorem Tail.blanks {tail : List Char} (h : Tail tail) :
    Blanks anyBlank (blankOut trivium? tail) := by
  cases h with
  | closed hgap => exact hgap.spaced_blankOut.blanks_of_nil
  | @comment gap body hgap hbody =>
      obtain ⟨blanks, heq, hblanks⟩ := blankOut_gap_append hgap ('#' :: body)
      rw [heq, blankOut_lastComment hbody]
      intro c hc
      rcases List.mem_append.1 hc with hc | hc
      · exact hblanks c hc
      · rw [List.mem_singleton.1 hc]
        exact ⟨by decide, rfl⟩

/-- If the last token of a text is a mark, trivia do not reach beyond it. -/
theorem Laid.spaced_blankOut_append {tokens more : List Token} {c : Char} {said rest : List Char}
    (hsaid : Laid (tokens ++ [.mark c]) said)
    (hrest : Spaced anyBlank more (blankOut trivium? rest)) :
    Spaced anyBlank (bare tokens ++ .mark c :: more) (blankOut trivium? (said ++ rest)) := by
  have hlast : ∀ token ∈ (tokens ++ [Token.mark c]).getLast?, token.Ends rest := by
    intro token htoken
    rw [List.getLast?_concat, Option.mem_some_iff] at htoken
    rw [← htoken]
    exact Token.ends_mark c rest
  obtain ⟨left, heq, hleft⟩ := hsaid.blankOut_append hlast
  rw [bare_append] at hleft
  rw [heq]
  exact hleft.append_of_mark hrest

end Gap

section Stages

theorem Member.bare (name : String) (tokens : List Token) (h : Member name tokens) :
    BareMember name (bare tokens) := by
  obtain ⟨hbefore, hname, hafter⟩ := h
  rw [bare_append, bare_word, hbefore.bare_eq]
  exact .mk rfl hname hafter.bare

theorem passes_bareMember (name : String) :
    Passes anyBlank directive? Unapplied (BareMember name) (Named name) := by
  rintro _ ⟨rfl, hname, hd⟩ rest left hrest he
  obtain ⟨_, rfl, he⟩ := passes_directives _ hd rest left hrest he
  refine ⟨_, .mk rfl hname rfl, ?_⟩
  simpa using Erases.keep (opensAt_directive.skips_word _) he

theorem passes_bareMembers (names : List String) :
    Passes anyBlank directive? Unapplied (Row BareMember names) (Row Named names) := by
  refine .row opensAt_directive passes_bareMember (fun _ => by simp [Unapplied]) ?_ names
  rintro name _ rest ⟨rfl, -, -⟩
  simp [Unapplied]

/-- In a row of names there are words and commas only. -/
theorem Row.word_or_comma {names : List String} {tokens : List Token} (h : Row Named names tokens) :
    ∀ token ∈ tokens, (∃ name, token = .word name) ∨ token = .mark ',' := by
  induction h with
  | nil => exact nofun
  | comma _ ih =>
      intro token htoken
      rcases List.mem_cons.1 htoken with rfl | htoken
      · exact .inr rfl
      · exact ih token htoken
  | cons hx _ ih =>
      obtain ⟨rfl, -, rfl⟩ := hx
      intro token htoken
      rcases List.mem_cons.1 htoken with rfl | htoken
      · exact .inl ⟨_, rfl⟩
      · exact ih token htoken

end Stages

section Read

/-- The characters of the members of an enum. -/
def isMemberChar (c : Char) : Bool :=
  c != ',' && !isBlank c

theorem isMemberChar_of_isBlank {c : Char} (h : isBlank c = true) : isMemberChar c = false := by
  simp [isMemberChar, h]

theorem isMemberChar_of_isWordChar {c : Char} (h : isWordChar c = true) :
    isMemberChar c = true := by
  have hcomma : c ≠ ',' := by
    rintro rfl
    exact absurd h (by decide)
  simp [isMemberChar, hcomma, isBlank_of_isWordChar h]

/-- A name in a row ends before a comma or a blank. -/
theorem Row.isMemberChar_head? {names : List String} {tokens : List Token}
    (h : Row Named names tokens) {gap : Char → Bool} {text : List Char}
    (ht : Spaced gap tokens text) {name : List Char} (hends : (Token.word name).Ends text) :
    ∀ c ∈ text.head?, isMemberChar c = false := by
  intro c hc
  rcases ht.head?_of_ends hends hc with hblank | ⟨token, more, rfl, hword, hmem⟩
  · exact isMemberChar_of_isBlank hblank
  · rcases h.word_or_comma token List.mem_cons_self with ⟨word, rfl⟩ | rfl
    · exact absurd rfl (hword word)
    · cases hmem
      decide

/-- Names in a row are read back from every text of them. The induction is on the row. -/
theorem runs_of_row {names : List String} {tokens : List Token} (h : Row Named names tokens)
    {gap : Char → Bool} {text : List Char} (ht : Spaced gap tokens text) :
    runs isMemberChar text = names.map String.toList := by
  have hskip : ∀ {blanks : List Char}, Blanks gap blanks → ∀ rest,
      runs isMemberChar (blanks ++ rest) = runs isMemberChar rest :=
    fun hb => runs_append_of_not fun c hc => isMemberChar_of_isBlank (hb c hc).1
  induction h generalizing text with
  | nil =>
      have hnone := hskip ht.blanks_of_nil []
      rwa [List.append_nil] at hnone
  | comma _ ih =>
      obtain ⟨blanks, rest, rfl, hb, hrest⟩ := ht.mark_inv
      rw [hskip hb, runs_cons_of_not (by decide), ih hrest]
  | cons hx h ih =>
      obtain ⟨rfl, hname, rfl⟩ := hx
      obtain ⟨blanks, rest, rfl, hb, hproper, -, hends, hrest⟩ := ht.cons_inv
      rw [hskip hb, Token.text, runs_append hproper.1
        (fun c hc => isMemberChar_of_isWordChar (hproper.2 c hc))
        (h.isMemberChar_head? hrest hends), ih hrest]
      rfl

/-- The members of an enum are read from every text of their row. -/
theorem enumMembers_of_row {names : List String} {tokens : List Token} (h : Row Named names tokens)
    {gap : Char → Bool} {body : List Char} (hbody : Spaced gap tokens body) :
    enumMembers body = names := by
  have hruns : runs (fun c => c != ',' && !isBlank c) body = names.map String.toList :=
    runs_of_row h hbody
  simp [enumMembers, hruns]

/-- No brace stands in a row of names. -/
theorem Row.no_brace {names : List String} {tokens : List Token} (h : Row Named names tokens)
    {gap : Char → Bool} {body : List Char} (hbody : Spaced gap tokens body) :
    ∀ c ∈ body, c ≠ '\x7b' ∧ c ≠ '\x7d' := by
  have hmark : ∀ {c : Char}, c ∈ marks → c ≠ ',' → c ∉ body := by
    intro c hc hcomma
    refine hbody.not_mem_text hc ?_
    rintro token htoken rfl
    rcases h.word_or_comma _ htoken with ⟨word, hword⟩ | hword
    · cases hword
    · exact hcomma (Token.mark.inj hword)
  intro c hc
  constructor
  · rintro rfl
    exact hmark (by decide) (by decide) hc
  · rintro rfl
    exact hmark (by decide) (by decide) hc

/-- What stands in braces behind the heading of an enum is its body, if there are no others. -/
theorem ofNormalForm?_enum {ident : String} {text body : List Char}
    (hread : heading? Kind.enum.keyword text = some (ident, '\x7b' :: (body ++ ['\x7d'])))
    (hbrace : ∀ c ∈ body, c ≠ '\x7b' ∧ c ≠ '\x7d') :
    ofNormalForm? .enum text = some (.enum ident (enumMembers body)) := by
  have hnone : (body.any fun c => c == '\x7b' || c == '\x7d') = false := by simpa using hbrace
  simp only [ofNormalForm?, hread, Option.bind_eq_bind, Option.bind_some, braced?_append, hnone]
  rfl

/-- Every text that declares an enum is read as what it declares. -/
theorem read?_of_enumText {ident : String} {names : List String} {text : String}
    (h : EnumText ident names text.toList) : read? .enum text = some (.enum ident names) := by
  generalize htext : text.toList = chars at h
  cases h with
  | @mk heading row said tail hheading hrow hsaid htail =>
      have hclose : Skips directive? (.mark '\x7d') := opensAt_directive.skips_mark (by decide)
      have hopen : Skips directive? (.mark '\x7b') := opensAt_directive.skips_mark (by decide)
      obtain ⟨named, hnamed, herow⟩ := passes_bareMembers names _ (hrow.bare Member.bare)
        [.mark '\x7d'] [.mark '\x7d'] (by simp [Unapplied]) (.keep hclose .nil)
      have herases := hheading.erases (by simp [Unapplied]) (.keep hopen herow)
      have hspaced : Spaced anyBlank (bare heading ++ .mark '\x7b' :: (bare row ++ [.mark '\x7d']))
          (blankOut trivium? (said ++ tail)) := by
        have hlaid : Laid ((heading ++ .mark '\x7b' :: row) ++ [.mark '\x7d']) said := by
          simpa using hsaid
        simpa using hlaid.spaced_blankOut_append (Spaced.nil.append_blanks htail.blanks)
      obtain ⟨body, hbody, hread⟩ := heading?_of_braces hheading.isIdentifier hspaced herases
      rw [read?, htext, ofNormalForm?_enum hread (hnamed.no_brace hbody),
        enumMembers_of_row hnamed hbody]

end Read

end ModelGraph.Written
