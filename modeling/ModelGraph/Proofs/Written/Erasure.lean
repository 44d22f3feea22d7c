import ModelGraph.Proofs.Written.Grammar

/-! # Erasing tokens from a text

A recogniser that finds whole rows of tokens, and nothing inside the others, erases those rows from
every text that says the tokens: what is left says the tokens that are left
(`Erases.spaced_blankOut`). Whether a row is found may depend on what follows it, so `Passes` speaks
of the tokens in front of any rest that may follow. -/

namespace ModelGraph.Written

open Text

/-- The characters that open what is erased: a directive, a default value, arguments. -/
def openers : List Char :=
  ['@', '=', '(']

/-- Spans open at one character only. -/
structure OpensAt (recognise : Recogniser) (opener : Char) : Prop where
  mem_openers : opener ∈ openers
  eq_none : ∀ c rest, c ≠ opener → recognise (c :: rest) = none

/-- No span opens in the token. -/
def Skips (recognise : Recogniser) (token : Token) : Prop :=
  token.Proper → ∀ c ∈ token.text, ∀ rest, recognise (c :: rest) = none

/-- The first tokens are a span where the others follow them. -/
def Takes (gap : Char → Bool) (recognise : Recogniser) (span rest : List Token) : Prop :=
  ∀ text, Begins text → Spaced gap (span ++ rest) text →
    ∃ n, recognise text = some (n + 1) ∧ Spaced gap rest (text.drop (n + 1))

/-- Erasing the spans of the recogniser leaves these of the tokens. -/
inductive Erases (gap : Char → Bool) (recognise : Recogniser) : List Token → List Token → Prop
  | nil : Erases gap recognise [] []
  | keep {token : Token} {tokens left : List Token} (hskip : Skips recognise token)
      (h : Erases gap recognise tokens left) :
      Erases gap recognise (token :: tokens) (token :: left)
  | drop {token : Token} {span tokens left : List Token}
      (htake : Takes gap recognise (token :: span) tokens)
      (h : Erases gap recognise tokens left) :
      Erases gap recognise (token :: (span ++ tokens)) left

/-- In front of every rest that may follow, erasing makes tokens of the first form into tokens of
the second. -/
def Passes (gap : Char → Bool) (recognise : Recogniser) (Follows : List Token → Prop)
    (P Q : List Token → Prop) : Prop :=
  ∀ tokens, P tokens → ∀ rest left, Follows rest → Erases gap recognise rest left →
    ∃ kept, Q kept ∧ Erases gap recognise (tokens ++ rest) (kept ++ left)

/-- The rest of a field from its colon. -/
def AtColon (rest : List Token) : Prop :=
  ∃ more, rest = .mark ':' :: more

/-- Blanking out does not join a token to what follows it. -/
theorem Token.Ends.blankOut {token : Token} {text : List Char} (h : token.Ends text)
    (recognise : Recogniser) : token.Ends (blankOut recognise text) := by
  intro c hc
  rcases head?_blankOut recognise text hc with rfl | hc
  · exact token.ends_blank (by decide) [] _ rfl
  · exact h c hc

theorem isBlank_of_mem_openers {c : Char} (h : c ∈ openers) : isBlank c = false := by
  have hall : openers.all (fun c => !isBlank c) = true := by decide
  simpa using List.all_eq_true.1 hall c h

theorem isWordChar_of_mem_openers {c : Char} (h : c ∈ openers) : isWordChar c = false := by
  have hall : openers.all (fun c => !isWordChar c) = true := by decide
  simpa using List.all_eq_true.1 hall c h

namespace OpensAt

variable {recognise : Recogniser} {opener : Char}

theorem eq_none_of_isBlank (ho : OpensAt recognise opener) {c : Char} (hc : isBlank c = true)
    (rest : List Char) : recognise (c :: rest) = none := by
  refine ho.eq_none c rest ?_
  rintro rfl
  rw [isBlank_of_mem_openers ho.mem_openers] at hc
  cases hc

theorem skips_word (ho : OpensAt recognise opener) (text : List Char) :
    Skips recognise (.word text) := by
  intro hproper c hc rest
  refine ho.eq_none c rest ?_
  rintro rfl
  have hword := hproper.2 c hc
  rw [isWordChar_of_mem_openers ho.mem_openers] at hword
  cases hword

theorem skips_mark (ho : OpensAt recognise opener) {c : Char} (hc : c ≠ opener) :
    Skips recognise (.mark c) := by
  intro _ d hd rest
  rw [List.mem_singleton.1 hd]
  exact ho.eq_none c rest hc

theorem skips_colon (ho : OpensAt recognise opener) : Skips recognise (.mark ':') := by
  refine ho.skips_mark ?_
  rintro rfl
  exact absurd ho.mem_openers (by decide)

theorem skips_comma (ho : OpensAt recognise opener) : Skips recognise (.mark ',') := by
  refine ho.skips_mark ?_
  rintro rfl
  exact absurd ho.mem_openers (by decide)

/-- Nothing is erased inside a type. -/
theorem skips_type (ho : OpensAt recognise opener) {type : TypeExpr} {marked : Bool}
    {tokens : List Token} (h : TypeTokens type marked tokens) :
    ∀ token ∈ tokens, Skips recognise token := by
  have hmark : ∀ {c : Char}, c ∉ openers → Skips recognise (.mark c) := by
    intro c hc
    refine ho.skips_mark ?_
    rintro rfl
    exact hc ho.mem_openers
  induction h with
  | named => simpa using ho.skips_word _
  | list _ ih =>
      intro token htoken
      simp only [List.mem_cons, List.mem_append, List.not_mem_nil, or_false] at htoken
      rcases htoken with rfl | htoken | rfl
      · exact hmark (by decide)
      · exact ih token htoken
      · exact hmark (by decide)
  | marked _ ih =>
      intro token htoken
      rcases List.mem_append.1 htoken with htoken | htoken
      · exact ih token htoken
      · rw [List.mem_singleton.1 htoken]
        exact hmark (by decide)

end OpensAt

namespace Erases

variable {gap : Char → Bool} {recognise : Recogniser} {opener : Char}

/-- Tokens in which nothing opens are kept. -/
theorem append {kept tokens left : List Token} (hskip : ∀ token ∈ kept, Skips recognise token)
    (h : Erases gap recognise tokens left) :
    Erases gap recognise (kept ++ tokens) (kept ++ left) := by
  induction kept with
  | nil => exact h
  | cons token rest ih =>
      exact .keep (hskip token (by simp)) (ih fun t ht => hskip t (List.mem_cons_of_mem token ht))

/-- What is left of a text says the tokens that are left. -/
theorem spaced_blankOut (ho : OpensAt recognise opener) (hgap : gap ' ' = true)
    {tokens left : List Token} (h : Erases gap recognise tokens left) {text : List Char}
    (ht : Spaced gap tokens text) : Spaced gap left (blankOut recognise text) := by
  have hblanks : ∀ {blanks : List Char}, Blanks gap blanks → ∀ rest,
      blankOut recognise (blanks ++ rest) = blanks ++ blankOut recognise rest :=
    fun hb => blankOut_append_of_none fun c hc => ho.eq_none_of_isBlank (hb c hc).1
  induction h generalizing text with
  | nil =>
      have hb := ht.blanks_of_nil
      have hkept := hblanks hb []
      rw [List.append_nil, blankOut_nil] at hkept
      rw [hkept]
      exact Spaced.nil.blanks_append hb
  | keep hskip _ ih =>
      obtain ⟨blanks, rest, rfl, hb, hproper, hquoted, hends, hrest⟩ := ht.cons_inv
      rw [hblanks hb, blankOut_append_of_none (hskip hproper)]
      exact .blanks_append hb (.token hproper hquoted (hends.blankOut recognise) (ih hrest))
  | @drop token span tokens left htake _ ih =>
      obtain ⟨blanks, rest, rfl, hb, hproper, hquoted, hends, hrest⟩ := ht.cons_inv
      obtain ⟨n, hn, hafter⟩ := htake (token.text ++ rest)
        (Spaced.begins_text_append hproper hquoted rest) (.token hproper hquoted hends hrest)
      rw [hblanks hb]
      refine .blanks_append hb ?_
      obtain ⟨c, more, hc⟩ := Token.exists_text_eq hproper
      rw [hc, List.cons_append] at hn hafter ⊢
      rw [blankOut_of_some hn]
      exact .blank (by decide) hgap (ih hafter)

end Erases

namespace Passes

variable {gap : Char → Bool} {recognise : Recogniser} {opener : Char}
  {Follows : List Token → Prop} {P Q : List Token → Prop}

/-- Tokens in which nothing opens pass as they are. -/
theorem of_skips (h : ∀ tokens, P tokens → ∀ token ∈ tokens, Skips recognise token) :
    Passes gap recognise Follows P P :=
  fun tokens hp _ _ _ he => ⟨tokens, hp, he.append (h tokens hp)⟩

/-- What passes in front of anything that may follow passes where nothing follows. -/
theorem erases (h : Passes gap recognise Follows P Q) (hfollows : Follows []) {tokens : List Token}
    (hp : P tokens) : ∃ kept, Q kept ∧ Erases gap recognise tokens kept := by
  obtain ⟨kept, hkept, he⟩ := h tokens hp [] [] hfollows .nil
  rw [List.append_nil, List.append_nil] at he
  exact ⟨kept, hkept, he⟩

/-- Where nothing stands, nothing is erased. -/
theorem absent : Passes gap recognise Follows Absent Absent :=
  of_skips fun tokens h token ht => by
    rw [h] at ht
    cases ht

/-- A field passes if what stands before its colon and after its type does. -/
theorem field (ho : OpensAt recognise opener)
    {Arguments Arguments' Value Value' After After' : List Token → Prop}
    (harguments : Passes gap recognise AtColon Arguments Arguments')
    (hvalue : Passes gap recognise Follows Value Value')
    (hafter : Passes gap recognise Follows After After')
    (hfollows : ∀ tokens rest, After tokens → Follows rest → Follows (tokens ++ rest))
    (x : FieldSyntax) :
    Passes gap recognise Follows (FieldTokens Absent Arguments Value After x)
      (FieldTokens Absent Arguments' Value' After' x) := by
  rintro _ ⟨rfl, hident, ha, htype, hv, hd⟩ rest left hrest he
  obtain ⟨after', hd', he⟩ := hafter _ hd rest left hrest he
  obtain ⟨value', hv', he⟩ := hvalue _ hv _ _ (hfollows _ rest hd hrest) he
  obtain ⟨arguments', ha', he⟩ := harguments _ ha _ _ ⟨_, rfl⟩
    (.keep ho.skips_colon (he.append (ho.skips_type htype)))
  refine ⟨_, .mk rfl hident ha' htype hv' hd', ?_⟩
  simpa using Erases.keep (ho.skips_word _) he

variable {α : Type} {Entry Entry' : α → List Token → Prop}

/-- A row passes if its entries do, in front of each other. -/
theorem row (ho : OpensAt recognise opener)
    (hentry : ∀ x, Passes gap recognise Follows (Entry x) (Entry' x))
    (hcomma : ∀ rest, Follows (.mark ',' :: rest))
    (hfollows : ∀ x tokens rest, Entry x tokens → Follows (tokens ++ rest)) (entries : List α) :
    Passes gap recognise Follows (Row Entry entries) (Row Entry' entries) := by
  intro tokens hrow rest left hrest he
  have hnext : ∀ {entries tokens}, Row Entry entries tokens → Follows (tokens ++ rest) := by
    intro entries tokens h
    cases h with
    | nil => exact hrest
    | comma => exact hcomma _
    | cons hx =>
        rw [List.append_assoc]
        exact hfollows _ _ _ hx
  induction hrow with
  | nil => exact ⟨[], .nil, he⟩
  | comma _ ih =>
      obtain ⟨kept, hkept, he⟩ := ih
      exact ⟨.mark ',' :: kept, .comma hkept, .keep ho.skips_comma he⟩
  | cons hx h ih =>
      obtain ⟨kept, hkept, he⟩ := ih
      obtain ⟨first, hfirst, he⟩ := hentry _ _ hx _ _ (hnext h) he
      refine ⟨first ++ kept, .cons hfirst hkept, ?_⟩
      simpa using he

/-- Parentheses pass if the row inside does. -/
theorem parenthesized {Outside : List Token → Prop} (ho : OpensAt recognise opener)
    (hopener : opener ≠ '(')
    (hrow : ∀ entries, Passes gap recognise Follows (Row Entry entries) (Row Entry' entries))
    (hclose : ∀ rest, Follows (.mark ')' :: rest)) :
    Passes gap recognise Outside (Parenthesized Entry) (Parenthesized Entry') := by
  have hskip : Skips recognise (.mark ')') := by
    refine ho.skips_mark ?_
    rintro rfl
    exact absurd ho.mem_openers (by decide)
  intro tokens hp rest left _ he
  cases hp with
  | none => exact ⟨[], .none, he⟩
  | some h =>
      obtain ⟨kept, hkept, he⟩ := hrow _ _ h _ _ (hclose rest) (.keep hskip he)
      refine ⟨_, .some hkept, ?_⟩
      simpa using Erases.keep (ho.skips_mark hopener.symm) he

end Passes

end ModelGraph.Written
