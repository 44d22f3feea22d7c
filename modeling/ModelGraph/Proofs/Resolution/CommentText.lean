import ModelGraph.Proofs.Resolution.LiteralText

/-! # The text of comments

A comment may say anything up to the end of its line. With other words in its comments a document
has the same lexemes but for those (`Recommented.alike`), hence chunks of the same normal forms, and
is resolved to the same registry or refused for the same cause (`resolve_of_recommented`). -/

namespace ModelGraph.Document

/-- The same lexeme, but for the words of a comment. -/
inductive Lexeme.Recommented : Lexeme → Lexeme → Prop
  | same (lexeme : Lexeme) : Recommented lexeme lexeme
  | comment (first : List Char) {body : List Char} (hbody : '\n' ∉ body) :
      Recommented (.comment first) (.comment ('#' :: body))

/-- A document in which some comments say something else. -/
def Recommented (document other : List Char) : Prop :=
  ∃ row, List.Forall₂ Lexeme.Recommented (lexemes document) row ∧ other = written row

section Literals

/-- Without a backslash a string has no quotes inside. -/
theorem StringContent.not_mem_quote {taken : Char → Prop} {content : List Char}
    (h : StringContent taken content) (hslash : '\\' ∉ content) : '"' ∉ content := by
  induction h with
  | nil => exact List.not_mem_nil
  | escaped => exact absurd List.mem_cons_self hslash
  | plain hquote _ _ _ ih =>
      rw [List.mem_cons, not_or] at hslash ⊢
      exact ⟨hquote.symm, ih hslash.2⟩

/-- Without a backslash the quotes that close a block string are the first three inside. -/
theorem BlockContent.not_isInfix {content : List Char} (h : BlockContent content)
    (hslash : '\\' ∉ content) : ¬ blockQuotes <:+: content ++ ['"', '"'] := by
  induction h with
  | nil => decide
  | escaped => exact absurd List.mem_cons_self hslash
  | @plain c rest _ hquotes _ ih =>
      rw [List.mem_cons, not_or] at hslash
      intro hpart
      rcases List.infix_cons_iff.1 hpart with hfront | hrest
      · have hclosing := blockQuotes_isPrefix_cons_iff c rest []
        rw [List.append_nil] at hclosing
        exact hquotes (hclosing.2 hfront)
      · exact ih hslash.2 hrest

/-- A closed literal without a backslash ends at the first quotes that could end it. -/
theorem Closed.endsAtFirstQuotes {literal : List Char} (h : Closed literal)
    (hslash : '\\' ∉ literal) : EndsAtFirstQuotes literal := by
  intro content hcontent
  cases h with
  | @line inner hline =>
      -- such a string has two quotes, a block string has six
      have hinner : '"' ∉ inner :=
        hline.not_mem_quote fun hmem => hslash (by simp [hmem])
      have hcount := congrArg (List.count '"') hcontent
      simp [blockQuotes, List.count_eq_zero.2 hinner] at hcount
  | @block inner hblock =>
      obtain rfl : inner = content :=
        List.append_cancel_left (List.append_cancel_right hcontent)
      apply hblock.not_isInfix
      intro hmem
      exact hslash (by simp [hmem])

end Literals

namespace Recommented

variable {row other : List Lexeme}

/-- Other words leave the character with which a row begins. -/
theorem head?_written (h : List.Forall₂ Lexeme.Recommented row other)
    (hproper : ∀ lexeme ∈ row, lexeme.Proper) :
    (written other).head? = (written row).head? := by
  cases h with
  | nil => rfl
  | @cons lexeme _ _ _ hlexeme _ =>
      have hfirst := hproper lexeme List.mem_cons_self
      cases hlexeme with
      | same =>
          have hne := Lexeme.text_ne_nil hfirst
          rw [written, written, List.flatMap_cons, List.flatMap_cons,
            List.head?_append_of_ne_nil _ hne, List.head?_append_of_ne_nil _ hne]
      | comment first hbody =>
          obtain ⟨body, -, rfl⟩ := hfirst
          rfl

/-- The row with other words in its comments is read back as well. -/
theorem lexed (h : List.Forall₂ Lexeme.Recommented row other) (hrow : Lexed [] row) :
    Lexed [] other := by
  induction h with
  | nil => exact .nil
  | @cons lexeme lexeme' row other hlexeme hrest ih =>
      obtain _ | ⟨hproper, hends, htail⟩ := hrow
      have hhead := head?_written hrest fun _ hmem => htail.proper hmem
      have hends' : lexeme.Ends (written other ++ []) := by
        apply hends.of_head?
        rw [List.append_nil, List.append_nil, hhead]
        exact fun c hc => hc
      cases hlexeme with
      | same => exact .cons hproper hends' (ih htail)
      | comment first hbody => exact .cons ⟨_, hbody, rfl⟩ hends' (ih htail)

/-- The literals are those that were there. -/
theorem mem_of_quoted_mem (h : List.Forall₂ Lexeme.Recommented row other) {literal : List Char}
    (hmem : .quoted literal ∈ other) : .quoted literal ∈ row := by
  induction h with
  | nil => cases hmem
  | cons hlexeme _ ih =>
      rcases List.mem_cons.1 hmem with rfl | hmem
      · cases hlexeme
        exact List.mem_cons_self
      · exact List.mem_cons_of_mem _ (ih hmem)

/-- With other words in its comments a document has the same lexemes but for those. -/
theorem alike {document text : List Char} (h : Recommented document text)
    (hdocument : Plain (lexemes document)) :
    Plain (lexemes text) ∧ List.Forall₂ Lexeme.Alike (lexemes document) (lexemes text) := by
  obtain ⟨other, hother, rfl⟩ := h
  have hlexed := lexed hother hdocument.lexed
  rw [hlexed.lexemes_written]
  have halike : List.Forall₂ Lexeme.Alike (lexemes document) other := by
    apply hother.imp
    rintro lexeme lexeme' (_ | _)
    · exact .same lexeme
    · exact .comments _ _
  exact ⟨⟨hlexed, fun literal hmem => hdocument.literals literal (mem_of_quoted_mem hother hmem)⟩,
    halike⟩

end Recommented

end ModelGraph.Document

namespace ModelGraph

open Document

/-- The error without the text of the declaration that it shows. -/
def ResolutionError.cause : ResolutionError → ResolutionError
  | unsupportedEntity kind _ => unsupportedEntity kind ""
  | unsupportedDeclaration _ => unsupportedDeclaration ""
  | error => error

/-- If computations agree up to a change of errors, so do those that go on with their results. -/
theorem mapError_bind_congr {ε ε' α β : Type} {change : ε → ε'} {first second : Except ε α}
    (h : first.mapError change = second.mapError change) (next : α → Except ε β) :
    (first.bind next).mapError change = (second.bind next).mapError change := by
  cases first with
  | ok a =>
      cases second with
      | ok b => rw [Except.ok.inj h]
      | error => cases h
  | error =>
      cases second with
      | ok => cases h
      | error => exact congrArg Except.error (Except.error.inj h)

theorem refusal_congr {chunk other : String} (h : normalize chunk = normalize other) :
    (Resolver.refusal chunk).cause = (Resolver.refusal other).cause := by
  rw [Resolver.refusal, Resolver.refusal, h]
  cases Kind.ofDeclaration? (normalize other) <;> rfl

/-- What chunks are resolved to depends on their normal forms, but for the text that an error
shows. -/
theorem outcome_resolveAll_congr {chunks others : List String}
    (h : List.Forall₂ (fun chunk other => normalize chunk = normalize other) chunks others)
    (context : Context) :
    (Resolver.resolveAll Parser.builtin context chunks).outcome.mapError ResolutionError.cause =
      (Resolver.resolveAll Parser.builtin context others).outcome.mapError
        ResolutionError.cause := by
  induction h generalizing context with
  | nil => rfl
  | @cons chunk other _ _ hnormal _ ih =>
      rw [Resolver.outcome_resolveAll_cons, Resolver.outcome_resolveAll_cons,
        Declaration.ofChunk?_congr hnormal]
      cases Declaration.ofChunk? other with
      | none => exact congrArg Except.error (refusal_congr hnormal)
      | some declaration =>
          simp only
          cases context.enter declaration with
          | error error => rfl
          | ok next => exact ih next

/-- The text of comments does not matter: with other words in its comments a document is resolved to
the same registry, or refused for the same cause. -/
theorem resolve_of_recommented {document other : String} (settings : Settings)
    (hliterals : ∀ literal, .quoted literal ∈ lexemes document.toList →
      Closed literal ∧ '\\' ∉ literal)
    (hother : Recommented document.toList other.toList) :
    (resolve other settings).mapError ResolutionError.cause =
      (resolve document settings).mapError ResolutionError.cause := by
  have hplain : Plain (lexemes document.toList) :=
    plain_lexemes fun literal hmem => by
      obtain ⟨hclosed, hslash⟩ := hliterals literal hmem
      exact ⟨hclosed, hclosed.endsAtFirstQuotes hslash⟩
  obtain ⟨hplain', halike⟩ := hother.alike hplain
  have hchunks := settings.chunks_alike halike hplain hplain'
  rw [resolve_eq, resolve_eq]
  cases Context.ofSettings settings with
  | error error => rfl
  | ok start => exact mapError_bind_congr (outcome_resolveAll_congr hchunks start).symm _

/-- A comment that says nothing may as well seem to close the record and to open a string. -/
theorem resolve_of_recommented_brace :
    (resolve "type A \x7b # \x7d \"\"\" type\n \"a # key\" id: ID \x7d" {}).mapError
        ResolutionError.cause =
      .ok
        { entities :=
            [ { definition := ⟨"A", "A", ""⟩
                body := .record [.typed ⟨"id", "id"⟩ (.scalar .id) false] } ]
          positions := [("A", 0)] } := by
  have hlexemes : lexemes "type A \x7b #\n \"a # key\" id: ID \x7d".toList =
      [.word "type".toList, .single ' ', .word "A".toList, .single ' ', .single '\x7b',
        .single ' '] ++ .comment ['#'] ::
      [.single '\n', .single ' ', .quoted "\"a # key\"".toList, .single ' ',
        .word "id".toList, .single ':', .single ' ', .word "ID".toList, .single ' ',
        .single '\x7d'] := by
    decide +kernel
  have hsame : ∀ row, List.Forall₂ Lexeme.Recommented row row :=
    fun row => List.forall₂_same.2 fun lexeme _ => .same lexeme
  have hbody : '\n' ∉ " \x7d \"\"\" type".toList := by decide
  have hother : Recommented "type A \x7b #\n \"a # key\" id: ID \x7d".toList
      "type A \x7b # \x7d \"\"\" type\n \"a # key\" id: ID \x7d".toList := by
    rw [Recommented, hlexemes]
    exact ⟨_, List.rel_append (hsame _) (.cons (.comment ['#'] hbody) (hsame _)),
      by decide +kernel⟩
  have hcontent : LineContent "a # key".toList :=
    Written.lineContent_of_not_mem (by decide) (by decide) (by decide)
  have hregistry : resolve "type A \x7b #\n \"a # key\" id: ID \x7d" {} = .ok
      { entities :=
          [ { definition := ⟨"A", "A", ""⟩
              body := .record [.typed ⟨"id", "id"⟩ (.scalar .id) false] } ]
        positions := [("A", 0)] } :=
    resolve_eq_ok_of_toOption (by decide +kernel)
  rw [resolve_of_recommented {} (fun literal hmem => ?_) hother, hregistry]
  · rfl
  · rw [hlexemes] at hmem
    obtain rfl : literal = '"' :: ("a # key".toList ++ ['"']) := by simpa using hmem
    exact ⟨.line hcontent, by decide⟩

end ModelGraph
