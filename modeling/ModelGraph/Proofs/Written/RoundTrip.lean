import Mathlib.Data.List.Forall2
import ModelGraph.Proofs.Resolution.Entering
import ModelGraph.Proofs.Written.Heading

/-! # Reading what is written

Whatever text says the tokens of a record or an input, its fields are read as they were declared,
each once and in order (`parse_of_declares`). -/

namespace ModelGraph

/-- The number of lists around the name. -/
def TypeExpr.depth : TypeExpr → Nat
  | named _ => 0
  | list inner => inner.depth + 1

/-- A type is resolved by resolving its innermost name, in as many lists. -/
theorem Context.resolveType_eq (context : Context) (type : TypeExpr) :
    context.resolveType type =
      Nat.repeat TypeRef.list type.depth (context.resolveNamed type.innermost) := by
  induction type with
  | named name => rfl
  | list inner ih => exact congrArg TypeRef.list ih

/-- The field is what a declared field becomes in a context. -/
structure FieldSyntax.Becomes (context : Context) (declared : FieldSyntax) (field : Field) :
    Prop where
  ident_eq : field.ident = declared.ident
  wireName_eq : field.wireName = declared.ident
  name_eq : field.name = (context.settings.naming.fieldName declared.ident).name
  type_eq : field.type = some
    (Nat.repeat TypeRef.list declared.type.depth (context.resolveNamed declared.type.innermost))
  required_eq : field.required = declared.required

/-- Whether or not its type is a union, a field has the name and type that are declared. -/
theorem Context.becomes_resolveField (context : Context) (declared : FieldSyntax) :
    declared.Becomes context (context.resolveField declared) := by
  have htype := context.resolveType_eq declared.type
  rw [resolveField]
  cases context.branchesOf? (context.resolveType declared.type) with
  | none => exact ⟨rfl, rfl, rfl, congrArg some htype, rfl⟩
  | some branches => exact ⟨rfl, rfl, rfl, congrArg some htype, rfl⟩

namespace Written

open Text Declaration

/-- The tokens one after the other, with a space behind each. -/
def print (tokens : List Token) : List Char :=
  tokens.flatMap fun token => token.text ++ [' ']

/-- Tokens of their classes are said by their print. -/
theorem laid_print {tokens : List Token} (h : ∀ token ∈ tokens, token.Proper) :
    Laid tokens (print tokens) := by
  induction tokens with
  | nil => exact .nil
  | cons token rest ih =>
      have hrest := ih fun t ht => h t (List.mem_cons_of_mem token ht)
      have hprint : print (token :: rest) = token.text ++ ' ' :: print rest := by simp [print]
      rw [hprint]
      exact .token (h token (by simp)) (token.ends_blank (by decide) _) (.blank (by decide) hrest)

section Body

variable {kind : Kind} {Entry Bare Short : FieldSyntax → List Token → Prop} {ident : String}
  {fields : List FieldSyntax} {tokens : List Token}

/-- Without strings and directives a declaration has its keyword, its name, and what is left of its
fields. -/
theorem DeclarationTokens.exists_erases (h : DeclarationTokens kind Entry ident fields tokens)
    (hbare : ∀ x tokens, Entry x tokens → Bare x (bare tokens))
    (hpass : ∀ fields, Passes anyBlank Trivia.directive? Unapplied (Row Bare fields)
      (Row Short fields)) :
    ∃ row, Row Short fields row ∧
      Erases anyBlank Trivia.directive? (bare tokens)
        (.word kind.keyword.toList :: .word ident.toList ::
          .mark '\x7b' :: (row ++ [.mark '\x7d'])) := by
  obtain ⟨hbefore, hident, hdirectives, hrow⟩ := h
  have hskip : ∀ {c : Char}, c ≠ '@' → Skips Trivia.directive? (.mark c) :=
    opensAt_directive.skips_mark
  obtain ⟨row, hshort, herow⟩ := hpass fields _ (hrow.bare hbare) [.mark '\x7d'] [.mark '\x7d']
    (by simp [Unapplied]) (.keep (hskip (by decide)) .nil)
  have hebraces := Erases.keep (hskip (show '\x7b' ≠ '@' by decide)) herow
  refine ⟨row, hshort, ?_⟩
  simpa using (Heading.mk hbefore hident hdirectives).erases (by simp [Unapplied]) hebraces

/-- The heading and the body of a declaration are found in every text that says it. -/
theorem DeclarationTokens.exists_body (h : DeclarationTokens kind Entry ident fields tokens)
    (hbare : ∀ x tokens, Entry x tokens → Bare x (bare tokens))
    (hpass : ∀ fields, Passes anyBlank Trivia.directive? Unapplied (Row Bare fields)
      (Row Short fields))
    {text : List Char} (hl : Laid tokens text) :
    ∃ row body, Row Short fields row ∧ Spaced isSpace row body ∧
      heading? kind.keyword (normalForm text) = some (ident, '\x7b' :: (body ++ ['\x7d'])) := by
  obtain ⟨row, hrow, he⟩ := h.exists_erases hbare hpass
  obtain ⟨-, hident, -, -⟩ := h
  obtain ⟨body, hbody, hheading⟩ := heading?_of_braces hident hl.spaced_blankOut he
  exact ⟨row, body, hrow, hbody, hheading⟩

end Body

/-- Every text that declares a record or an input is read as what it declares. -/
theorem read?_of_declares {kind : Kind} {ident : String} {fields : List FieldSyntax}
    {tokens : List Token} (h : Declares kind ident fields tokens) {text : String}
    (ht : Laid tokens text.toList) :
    ∃ declaration, read? kind text = some declaration ∧
      (declaration = .record ident fields ∨ declaration = .input ident fields) := by
  cases h with
  | record h =>
      obtain ⟨row, body, hrow, hbody, hheading⟩ :=
        h.exists_body RecordField.bare passes_bareRecords ht
      refine ⟨.record ident fields, ?_, .inl rfl⟩
      simp [read?, ofNormalForm?, hheading, braced?_append, readAll_of_records hrow hbody]
  | input h =>
      obtain ⟨row, body, hrow, hbody, hheading⟩ :=
        h.exists_body InputField.bare passes_bareInputs ht
      refine ⟨.input ident fields, ?_, .inr rfl⟩
      simp [read?, ofNormalForm?, hheading, braced?_append, readAll_of_inputs hrow hbody]

/-- A record or input is resolved, in every context, from every text that declares it: under its
name, with exactly the declared fields in order. Each keeps its name on the wire, has its resolved
name, the type that its innermost name stands for in as many lists, and the mark at the outside. -/
theorem parse_of_declares {kind : Kind} {ident : String} {fields : List FieldSyntax}
    {tokens : List Token} (h : Declares kind ident fields tokens) {text : String}
    (ht : Laid tokens text.toList) (context : Context) :
    ∃ entity next, (Parser.ofKind kind).parse text context = (.ok entity, next) ∧
      entity.kind = kind ∧ entity.definition = context.define ident ∧
      List.Forall₂ (FieldSyntax.Becomes context) fields entity.body.fields := by
  obtain ⟨declaration, hread, hdeclaration⟩ := read?_of_declares h ht
  refine ⟨context.entityOf declaration, (context.resolveDeclaration declaration).2, ?_, ?_, ?_, ?_⟩
  · simp only [Parser.ofKind, hread, context.resolveDeclaration_eq]
  · rw [Entity.kind, context.body_entityOf, context.kind_bodyOf, Declaration.kind_of_read? hread]
  · rw [context.definition_entityOf]
    rcases hdeclaration with rfl | rfl <;> rfl
  · have hbody : (context.bodyOf declaration).fields = fields.map context.resolveField := by
      rcases hdeclaration with rfl | rfl <;> rfl
    rw [context.body_entityOf, hbody, List.forall₂_map_right_iff, List.forall₂_same]
    exact fun declared _ => context.becomes_resolveField declared

/-- Neither a string that is a default value nor the keys of another hide or add a field. -/
theorem parse_of_declares_cat :
    ∃ entity next, (Parser.ofKind .input).parse
        "input Cat @old \x7b \"one\" a : [ Int ! ] ! = \"x\" b : Int = \x7b k : [ 1 ] \x7d \x7d "
        { settings := {} } = (.ok entity, next) ∧
      entity.kind = .input ∧ entity.definition = ⟨"Cat", "Cat", ""⟩ ∧
      List.Forall₂ (FieldSyntax.Becomes { settings := {} })
        [⟨"a", .list (.named "Int"), true⟩, ⟨"b", .named "Int", false⟩] entity.body.fields := by
  have hfirst : InputField ⟨"a", .list (.named "Int"), true⟩ _ :=
    FieldTokens.mk (.some false ['o', 'n', 'e']) rfl rfl (.marked (.list (.marked (.named rfl))))
      (.some (.quoted false ['x'])) .nil
  have hsecond : InputField ⟨"b", .named "Int", false⟩ _ :=
    FieldTokens.mk .none rfl rfl (.named rfl)
      (.some (.object (.member ['k'] (.list (.entry (.word ['1']) .noEntries)) .noMembers))) .nil
  obtain ⟨tokens, hd, hproper, hprint⟩ : ∃ tokens,
      Declares .input "Cat" [⟨"a", .list (.named "Int"), true⟩, ⟨"b", .named "Int", false⟩]
        tokens ∧
      (∀ token ∈ tokens, token.Proper) ∧
      print tokens =
        ("input Cat @old \x7b \"one\" a : [ Int ! ] ! = \"x\" b : Int = \x7b k : [ 1 ] \x7d \x7d " :
          String).toList :=
    ⟨_, .input (.mk .none rfl (.plain ['o', 'l', 'd'] .nil)
      (.cons hfirst (.cons hsecond .nil))), by decide, by decide⟩
  have hname : Context.define { settings := {} } "Cat" = ⟨"Cat", "Cat", ""⟩ := by decide +kernel
  rw [← hname]
  exact parse_of_declares hd (hprint ▸ laid_print hproper) { settings := {} }

end Written

end ModelGraph
