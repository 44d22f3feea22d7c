import ModelGraph.Proofs.Written.DefaultValue
import ModelGraph.Proofs.Written.Directive
import ModelGraph.Proofs.Written.FieldText

/-! # From declared fields to what is read

Fields lose their strings, then their directives, then their default values, then their arguments.
Each step leaves a row of fields with one part less, until names and types are left, which are read
(`readAll_of_inputs`, `readAll_of_records`). -/

namespace ModelGraph.Written

open Text Trivia DefaultValue FieldSyntax

variable {gap : Char → Bool}

/-- A field of an input without strings. -/
def BareInput : FieldSyntax → List Token → Prop :=
  FieldTokens Absent Absent BareDefault Directives

/-- A field of a record without strings. -/
def BareRecord : FieldSyntax → List Token → Prop :=
  FieldTokens Absent (Parenthesized BareInput) Absent Directives

/-- A field of an input without directives. -/
def ShortInput : FieldSyntax → List Token → Prop :=
  FieldTokens Absent Absent BareDefault Absent

/-- A field of a record without directives. -/
def ShortRecord : FieldSyntax → List Token → Prop :=
  FieldTokens Absent (Parenthesized ShortInput) Absent Absent

/-- A field of a record without default values. -/
def AppliedSignature : FieldSyntax → List Token → Prop :=
  FieldTokens Absent (Parenthesized Signature) Absent Absent

section Bare

theorem Description.bare_eq {tokens : List Token} (h : Description tokens) : bare tokens = [] := by
  cases h <;> rfl

theorem TypeTokens.bare_eq {type : TypeExpr} {marked : Bool} {tokens : List Token}
    (h : TypeTokens type marked tokens) : bare tokens = tokens := by
  induction h with
  | named => rfl
  | list _ ih => rw [bare_mark, bare_append, ih]; rfl
  | marked _ ih => rw [bare_append, ih]; rfl

theorem Default.bare {tokens : List Token} (h : Default tokens) : BareDefault (bare tokens) := by
  cases h with
  | none => exact .none
  | some h => exact .some h

theorem Directives.bare {tokens : List Token} (h : Directives tokens) :
    Directives (bare tokens) := by
  induction h with
  | nil => exact .nil
  | plain name _ ih => exact .plain name ih
  | applied name hinner _ ih =>
      rw [bare_directive, bare_mark, bare_append, bare_mark]
      exact .applied name (fun token htoken => hinner token (List.mem_filter.1 htoken).1) ih

variable {α : Type} {Entry Entry' : α → List Token → Prop}

theorem Row.bare (hentry : ∀ x tokens, Entry x tokens → Entry' x (bare tokens)) {entries : List α}
    {tokens : List Token} (h : Row Entry entries tokens) : Row Entry' entries (bare tokens) := by
  induction h with
  | nil => exact .nil
  | comma _ ih => exact .comma ih
  | cons hx _ ih =>
      rw [bare_append]
      exact .cons (hentry _ _ hx) ih

theorem Parenthesized.bare (hentry : ∀ x tokens, Entry x tokens → Entry' x (bare tokens))
    {tokens : List Token} (h : Parenthesized Entry tokens) :
    Parenthesized Entry' (bare tokens) := by
  cases h with
  | none => exact .none
  | some h =>
      rw [bare_mark, bare_append]
      exact .some (h.bare hentry)

/-- Strings go from each part of a field, and a description altogether. -/
theorem FieldTokens.bare {Arguments Arguments' Value Value' : List Token → Prop} {x : FieldSyntax}
    (harguments : ∀ tokens, Arguments tokens → Arguments' (bare tokens))
    (hvalue : ∀ tokens, Value tokens → Value' (bare tokens)) {tokens : List Token}
    (h : FieldTokens Description Arguments Value Directives x tokens) :
    FieldTokens Absent Arguments' Value' Directives x (bare tokens) := by
  obtain ⟨hbefore, hident, ha, htype, hv, hafter⟩ := h
  simp only [bare_append, bare_word, bare_mark, hbefore.bare_eq, htype.bare_eq]
  exact .mk rfl hident (harguments _ ha) htype (hvalue _ hv) hafter.bare

theorem InputField.bare (x : FieldSyntax) (tokens : List Token) (h : InputField x tokens) :
    BareInput x (bare tokens) :=
  FieldTokens.bare (fun _ ha => by rw [ha]; rfl) (fun _ hv => hv.bare) h

theorem RecordField.bare (x : FieldSyntax) (tokens : List Token) (h : RecordField x tokens) :
    BareRecord x (bare tokens) :=
  FieldTokens.bare (fun _ ha => ha.bare InputField.bare) (fun _ hv => by rw [hv]; rfl) h

end Bare

/-- Before its colon a field has its name. -/
theorem FieldTokens.exists_name {Arguments Value After : List Token → Prop} {x : FieldSyntax}
    {tokens : List Token} (h : FieldTokens Absent Arguments Value After x tokens) :
    ∃ more, tokens = .word x.ident.toList :: more := by
  obtain ⟨rfl, -⟩ := h
  exact ⟨_, rfl⟩

section Directives

theorem FieldTokens.unapplied {Arguments Value After : List Token → Prop} {x : FieldSyntax}
    {tokens : List Token} (h : FieldTokens Absent Arguments Value After x tokens)
    (rest : List Token) : Unapplied (tokens ++ rest) := by
  obtain ⟨more, rfl⟩ := h.exists_name
  exact nofun

/-- A directive opens with its own token. -/
theorem skips_directive {token : Token} (h : ∀ name, token ≠ .directive name)
    (hquoted : token.isQuoted = false) : Skips directive? token := by
  cases token with
  | word text => exact opensAt_directive.skips_word text
  | mark c =>
      intro hproper
      refine opensAt_directive.skips_mark ?_ hproper
      rintro rfl
      exact absurd hproper (by decide)
  | directive name => exact absurd rfl (h name)
  | quoted => cases hquoted

theorem ValueTokens.ne_directive {phrase : Phrase} {tokens : List Token}
    (h : ValueTokens phrase tokens) : ∀ token ∈ tokens, ∀ name, token ≠ .directive name := by
  induction h with
  | word | quoted | noEntries | noMembers => simp
  | list _ ih | object _ ih =>
      intro token htoken name
      simp only [List.mem_cons, List.mem_append, List.not_mem_nil, or_false] at htoken
      rcases htoken with rfl | htoken | rfl
      · exact nofun
      · exact ih token htoken name
      · exact nofun
  | entriesComma _ ih | membersComma _ ih =>
      intro token htoken name
      rcases List.mem_cons.1 htoken with rfl | htoken
      · exact nofun
      · exact ih token htoken name
  | entry _ _ ihv ih =>
      intro token htoken
      exact (List.mem_append.1 htoken).elim (ihv token) (ih token)
  | member _ _ _ ihv ih =>
      intro token htoken name
      simp only [List.mem_cons, List.mem_append] at htoken
      rcases htoken with rfl | rfl | htoken | htoken
      · exact nofun
      · exact nofun
      · exact ihv token htoken name
      · exact ih token htoken name

/-- No directive opens in a default value. -/
theorem BareDefault.skips_directive {tokens : List Token} (h : BareDefault tokens) :
    ∀ token ∈ tokens, Skips directive? token := by
  cases h with
  | none => exact fun _ ht => nomatch ht
  | some h =>
      intro token htoken
      rcases List.mem_cons.1 htoken with rfl | htoken
      · exact opensAt_directive.skips_mark (by decide)
      · obtain ⟨hmem, hquoted⟩ := List.mem_filter.1 htoken
        exact Written.skips_directive (h.ne_directive token hmem) (by simpa using hquoted)

theorem passes_bareInput (x : FieldSyntax) :
    Passes gap directive? Unapplied (BareInput x) (ShortInput x) :=
  .field opensAt_directive .absent (.of_skips fun _ h => h.skips_directive) passes_directives
    (fun _ _ h hrest => h.unapplied_append hrest) x

theorem passes_bareInputs (fields : List FieldSyntax) :
    Passes gap directive? Unapplied (Row BareInput fields) (Row ShortInput fields) :=
  .row opensAt_directive passes_bareInput (fun _ => by simp [Unapplied])
    (fun _ _ rest h => h.unapplied rest) fields

theorem passes_bareRecord (x : FieldSyntax) :
    Passes gap directive? Unapplied (BareRecord x) (ShortRecord x) :=
  .field opensAt_directive
    (.parenthesized opensAt_directive (by decide) passes_bareInputs fun _ => by simp [Unapplied])
    .absent passes_directives (fun _ _ h hrest => h.unapplied_append hrest) x

theorem passes_bareRecords (fields : List FieldSyntax) :
    Passes gap directive? Unapplied (Row BareRecord fields) (Row ShortRecord fields) :=
  .row opensAt_directive passes_bareRecord (fun _ => by simp [Unapplied])
    (fun _ _ rest h => h.unapplied rest) fields

end Directives

section Defaults

theorem passes_shortInput (x : FieldSyntax) :
    Passes isSpace default? AfterDefault (ShortInput x) (Signature x) :=
  .field opensAt_default .absent passes_default .absent
    (fun tokens rest h hrest => by rw [h]; exact hrest) x

theorem passes_shortInputs (fields : List FieldSyntax) :
    Passes isSpace default? AfterDefault (Row ShortInput fields) (Row Signature fields) := by
  refine .row opensAt_default passes_shortInput .comma (fun x tokens rest h => ?_) fields
  obtain ⟨rfl, -, rfl, -⟩ := h
  exact .field _ _

/-- Arguments lose their default values in front of the parenthesis that closes them. -/
theorem passes_shortRecord (x : FieldSyntax) :
    Passes isSpace default? (fun _ => True) (ShortRecord x) (AppliedSignature x) :=
  .field opensAt_default (.parenthesized opensAt_default (by decide) passes_shortInputs .close)
    .absent .absent (fun _ _ _ _ => trivial) x

theorem passes_shortRecords (fields : List FieldSyntax) :
    Passes isSpace default? (fun _ => True) (Row ShortRecord fields)
      (Row AppliedSignature fields) :=
  .row opensAt_default passes_shortRecord (fun _ => trivial) (fun _ _ _ _ => trivial) fields

end Defaults

section Arguments

theorem Unparenthesized.append {first second : List Token} (hfirst : Unparenthesized first)
    (hsecond : Unparenthesized second) : Unparenthesized (first ++ second) := by
  intro token htoken
  exact (List.mem_append.1 htoken).elim (hfirst token) (hsecond token)

theorem unparenthesized_word (text : List Char) : Unparenthesized [.word text] := by
  intro token htoken
  rw [List.mem_singleton.1 htoken]
  exact ⟨nofun, nofun⟩

theorem unparenthesized_mark {c : Char} (hopen : c ≠ '(') (hclose : c ≠ ')') :
    Unparenthesized [.mark c] := by
  intro token htoken
  rw [List.mem_singleton.1 htoken]
  exact ⟨fun h => hopen (Token.mark.inj h), fun h => hclose (Token.mark.inj h)⟩

theorem TypeTokens.unparenthesized {type : TypeExpr} {marked : Bool} {tokens : List Token}
    (h : TypeTokens type marked tokens) : Unparenthesized tokens := by
  induction h with
  | named => exact unparenthesized_word _
  | list _ ih =>
      exact (unparenthesized_mark (by decide) (by decide)).append
        (ih.append (unparenthesized_mark (by decide) (by decide)))
  | marked _ ih => exact ih.append (unparenthesized_mark (by decide) (by decide))

theorem Row.unparenthesized {fields : List FieldSyntax} {tokens : List Token}
    (h : Row Signature fields tokens) : Unparenthesized tokens := by
  induction h with
  | nil => exact fun _ ht => nomatch ht
  | comma _ ih => exact (unparenthesized_mark (by decide) (by decide)).append ih
  | cons hx _ ih =>
      refine Unparenthesized.append ?_ ih
      obtain ⟨rfl, -, rfl, htype, rfl, rfl⟩ := hx
      rw [List.append_nil, List.append_nil]
      exact (unparenthesized_word _).append
        ((unparenthesized_mark (by decide) (by decide)).append htype.unparenthesized)

/-- Arguments without default values are erased. -/
theorem passes_arguments {Follows : List Token → Prop} :
    Passes gap parenthesized? Follows (Parenthesized Signature) Absent := by
  intro tokens hp rest left _ he
  refine ⟨[], rfl, ?_⟩
  cases hp with
  | none => exact he
  | some h => exact .drop (takes_parenthesized h.unparenthesized rest) he

theorem passes_appliedSignatures (fields : List FieldSyntax) :
    Passes gap parenthesized? (fun _ => True) (Row AppliedSignature fields)
      (Row Signature fields) :=
  .row opensAt_parenthesized
    (.field opensAt_parenthesized passes_arguments .absent .absent fun _ _ _ _ => trivial)
    (fun _ => trivial) (fun _ _ _ _ => trivial) fields

theorem passes_signatures (fields : List FieldSyntax) :
    Passes gap parenthesized? (fun _ => True) (Row Signature fields) (Row Signature fields) :=
  .row opensAt_parenthesized
    (.field opensAt_parenthesized .absent .absent .absent fun _ _ _ _ => trivial)
    (fun _ => trivial) (fun _ _ _ _ => trivial) fields

end Arguments

section Read

variable {fields : List FieldSyntax} {tokens : List Token} {body : List Char}

/-- Fields are read from a text of what is left of them without strings and directives. -/
theorem readAll_of_passes {Short Valueless : FieldSyntax → List Token → Prop}
    {Follows : List Token → Prop}
    (hvalues : Passes isSpace default? Follows (Row Short fields) (Row Valueless fields))
    (hfollows : Follows [])
    (harguments : Passes isSpace parenthesized? (fun _ => True) (Row Valueless fields)
      (Row Signature fields))
    (h : Row Short fields tokens) (hbody : Spaced isSpace tokens body) :
    readAll body = fields := by
  obtain ⟨valueless, hv, hev⟩ := hvalues.erases hfollows h
  obtain ⟨left, hl, hel⟩ := harguments.erases trivial hv
  have hbody := hev.spaced_blankOut opensAt_default rfl hbody
  exact filterMap_spans_of_signatures hl (hel.spaced_blankOut opensAt_parenthesized rfl hbody)

theorem readAll_of_inputs (h : Row ShortInput fields tokens) (hbody : Spaced isSpace tokens body) :
    readAll body = fields :=
  readAll_of_passes (passes_shortInputs fields) .nil (passes_signatures fields) h hbody

theorem readAll_of_records (h : Row ShortRecord fields tokens)
    (hbody : Spaced isSpace tokens body) : readAll body = fields :=
  readAll_of_passes (passes_shortRecords fields) trivial (passes_appliedSignatures fields) h hbody

end Read

end ModelGraph.Written
