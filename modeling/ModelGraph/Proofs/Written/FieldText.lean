import ModelGraph.Proofs.Written.TypeText

/-! # Reading fields

When nothing is left but names, colons, types and commas, the recogniser of fields takes every field
from its name to the end of its type, and what it takes is read as the field
(`filterMap_spans_of_signatures`). -/

namespace ModelGraph.Written

open Text FieldSyntax

variable {gap : Char → Bool}

/-- A name, a colon and a type, and nothing else. -/
def Signature : FieldSyntax → List Token → Prop :=
  FieldTokens Absent Absent Absent Absent

/-- What closes a type: brackets, and marks where one may stand, before and after them. -/
inductive Closing : Bool → List Token → Bool → Prop
  | nil (mayMark : Bool) : Closing mayMark [] mayMark
  | bracket {mayMark last : Bool} {tokens : List Token} (h : Closing true tokens last) :
      Closing mayMark (.mark ']' :: tokens) last
  | mark {last : Bool} {tokens : List Token} (h : Closing false tokens last) :
      Closing true (.mark '!' :: tokens) last

/-- The type does not go on in the rest. -/
def AfterType (rest : List Token) : Prop :=
  rest.head? ≠ some (.mark ']') ∧ rest.head? ≠ some (.mark '!')

namespace Closing

variable {mayMark last : Bool} {tokens : List Token}

theorem concat_bracket (h : Closing mayMark tokens last) :
    Closing mayMark (tokens ++ [.mark ']']) true := by
  induction h with
  | nil => exact .bracket (.nil true)
  | bracket _ ih => exact .bracket ih
  | mark _ ih => exact .mark ih

theorem concat_mark (h : Closing mayMark tokens last) (hlast : last = true) :
    Closing mayMark (tokens ++ [.mark '!']) false := by
  induction h with
  | nil =>
      rw [hlast]
      exact .mark (.nil false)
  | bracket _ ih => exact .bracket (ih hlast)
  | mark _ ih => exact .mark (ih hlast)

end Closing

/-- A type is a name between opening brackets and what closes them. -/
theorem TypeTokens.exists_closing {type : TypeExpr} {marked : Bool} {tokens : List Token}
    (h : TypeTokens type marked tokens) :
    ∃ (n : Nat) (name : List Char) (closing : List Token), isIdentifier name = true ∧
      tokens = List.replicate n (.mark '[') ++ .word name :: closing ∧
      Closing true closing (!marked) := by
  induction h with
  | @named name hname => exact ⟨0, name.toList, [], hname, rfl, .nil true⟩
  | list _ ih =>
      obtain ⟨n, name, closing, hname, rfl, hclosing⟩ := ih
      exact ⟨n + 1, name, closing ++ [.mark ']'], hname, by simp [List.replicate_succ],
        hclosing.concat_bracket⟩
  | marked _ ih =>
      obtain ⟨n, name, closing, hname, rfl, hclosing⟩ := ih
      exact ⟨n, name, closing ++ [.mark '!'], hname, by simp, hclosing.concat_mark rfl⟩

section Length

variable {rest : List Token} {text : List Char}

theorem closingLength_blanks {blanks : List Char} (hb : Blanks gap blanks) (mayMark : Bool)
    (n : Nat) (core : List Char) :
    closingLength mayMark n (blanks ++ core) = closingLength mayMark (n + blanks.length) core := by
  induction blanks generalizing n with
  | nil => rfl
  | cons c more ih =>
      rw [List.cons_append, closingLength, if_pos (hb c (by simp)).1,
        ih fun d hd => hb d (List.mem_cons_of_mem c hd)]
      congr 1
      rw [List.length_cons]
      omega

theorem closingLength_bracket (mayMark : Bool) (n : Nat) (rest : List Char) :
    closingLength mayMark n (']' :: rest) = n + 1 + closingLength true 0 rest := by
  have hblank : isBlank ']' = false := by decide
  simp [closingLength, hblank]

theorem closingLength_mark (n : Nat) (rest : List Char) :
    closingLength true n ('!' :: rest) = n + 1 + closingLength false 0 rest := by
  have hblank : isBlank '!' = false := by decide
  simp [closingLength, hblank]

/-- Blanks before anything else do not belong to the type. -/
theorem closingLength_rest (hrest : AfterType rest) (ht : Spaced gap rest text) (mayMark : Bool)
    (n : Nat) : closingLength mayMark n text = 0 := by
  induction ht generalizing n with
  | nil => rfl
  | blank hc _ _ ih =>
      rw [closingLength, if_pos hc]
      exact ih hrest (n + 1)
  | @token token tokens text hproper hquoted _ _ =>
      obtain ⟨c, more, htext⟩ := Token.exists_text_eq hproper
      have hmem : c ∈ token.text := by simp [htext]
      have hblank := Token.isBlank_of_mem_text hproper hquoted hmem
      have heq : c ∈ marks → token = .mark c :=
        fun hc => Token.eq_mark_of_mem_text hproper hquoted hc hmem
      have hbracket : c ≠ ']' := by
        rintro rfl
        exact hrest.1 (congrArg some (heq (by decide)))
      have hmark : c ≠ '!' := by
        rintro rfl
        exact hrest.2 (congrArg some (heq (by decide)))
      simp [htext, closingLength, hblank, hbracket, hmark]

/-- What closes a type is measured up to its last token. -/
theorem exists_closingLength {mayMark last : Bool} {closing : List Token}
    (h : Closing mayMark closing last) (hrest : AfterType rest)
    (ht : Spaced gap (closing ++ rest) text) :
    ∃ span after, text = span ++ after ∧ Spaced gap closing span ∧ Spaced gap rest after ∧
      closingLength mayMark 0 text = span.length := by
  induction h generalizing text with
  | nil mayMark => exact ⟨[], text, rfl, .nil, ht, closingLength_rest hrest ht mayMark 0⟩
  | @bracket mayMark last tokens _ ih =>
      obtain ⟨blanks, left, rfl, hb, hleft⟩ := ht.mark_inv
      obtain ⟨span, after, rfl, hspan, hafter, hlength⟩ := ih hleft
      refine ⟨blanks ++ ']' :: span, after, by simp,
        .blanks_append hb (hspan.mark (by decide)), hafter, ?_⟩
      rw [closingLength_blanks hb, closingLength_bracket, hlength]
      simp only [List.length_append, List.length_cons]
      omega
  | @mark last tokens _ ih =>
      obtain ⟨blanks, left, rfl, hb, hleft⟩ := ht.mark_inv
      obtain ⟨span, after, rfl, hspan, hafter, hlength⟩ := ih hleft
      refine ⟨blanks ++ '!' :: span, after, by simp,
        .blanks_append hb (hspan.mark (by decide)), hafter, ?_⟩
      rw [closingLength_blanks hb, closingLength_mark, hlength]
      simp only [List.length_append, List.length_cons]
      omega

end Length

section Opening

/-- The characters before the name of a type. -/
def opensType (c : Char) : Bool :=
  c == '[' || isBlank c

theorem opensType_of_isWordChar {c : Char} (h : isWordChar c = true) : opensType c = false := by
  have hbracket : c ≠ '[' := by
    rintro rfl
    exact absurd h (by decide)
  simp [opensType, hbracket, isBlank_of_isWordChar h]

/-- Behind opening brackets stands the name, and what follows it may be exchanged. -/
theorem exists_opening {n : Nat} {name text : List Char} {tokens : List Token}
    (h : Spaced gap (List.replicate n (.mark '[') ++ .word name :: tokens) text) :
    ∃ front after, text = front ++ (name ++ after) ∧ text.dropWhile opensType = name ++ after ∧
      (Token.word name).Ends after ∧ Spaced gap tokens after ∧
      ∀ others left, Spaced gap others left → (Token.word name).Ends left →
        Spaced gap (List.replicate n (.mark '[') ++ .word name :: others)
          (front ++ (name ++ left)) := by
  induction n generalizing text with
  | zero =>
      obtain ⟨blanks, after, rfl, hb, hproper, hquoted, hends, hafter⟩ := h.cons_inv
      refine ⟨blanks, after, rfl, ?_, hends, hafter, fun others left hleft hends =>
        .blanks_append hb (.token hproper hquoted hends hleft)⟩
      refine dropWhile_append_eq (fun c hc => by simp [opensType, (hb c hc).1]) ?_
      cases hn : name with
      | nil => exact absurd hn hproper.1
      | cons d more =>
          rintro _ ⟨⟩
          exact opensType_of_isWordChar (hproper.2 d (by simp [hn]))
  | succ n ih =>
      rw [List.replicate_succ, List.cons_append] at h
      obtain ⟨blanks, more, rfl, hb, hmore⟩ := h.mark_inv
      obtain ⟨front, after, rfl, hdrop, hends, hafter, hothers⟩ := ih hmore
      refine ⟨blanks ++ '[' :: front, after, by simp, ?_, hends, hafter, ?_⟩
      · rw [List.dropWhile_append_of_pos fun c hc => by simp [opensType, (hb c hc).1],
          List.dropWhile_cons_of_pos (by decide), hdrop]
      · intro others left hleft hends
        rw [List.replicate_succ, List.cons_append, List.append_assoc, List.cons_append]
        exact .blanks_append hb ((hothers others left hleft hends).mark (by decide))

end Opening

/-- An identifier is over where blanks and a mark follow. -/
theorem ends_blanks_mark {blanks : List Char} (hb : Blanks gap blanks) {c : Char} (hc : c ∈ marks)
    (word rest : List Char) : (Token.word word).Ends (blanks ++ c :: rest) := by
  intro d hd
  cases blanks with
  | nil =>
      cases hd
      exact isWordChar_of_mem_marks hc
  | cons d more =>
      cases hd
      exact isWordChar_of_isBlank (hb d (by simp)).1

/-- A name, a colon and the text of a type are read as the field. -/
theorem ofSpan?_append {ident : String} {type : TypeExpr} {required : Bool}
    {blanks typeText : List Char} (hident : isIdentifier ident.toList = true)
    (hb : Blanks gap blanks) (htype : TypeExpr.read? typeText = some (type, required)) :
    ofSpan? (ident.toList ++ (blanks ++ ':' :: typeText)) = some ⟨ident, type, required⟩ := by
  have hname := isIdentRest_of_isIdentifier hident
  have hends : ∀ c ∈ (blanks ++ ':' :: typeText).head?, isIdentRest c = false := fun c hc =>
    isIdentRest_eq_false (ends_blanks_mark hb (by decide) ident.toList typeText c hc)
  have hcolon : ∀ c ∈ ident.toList ++ blanks, decide (c ≠ ':') = true := by
    intro c hc
    refine decide_eq_true ?_
    rintro rfl
    rcases List.mem_append.1 hc with hc | hc
    · exact absurd (hname ':' hc) (by decide)
    · exact absurd (hb ':' hc).1 (by decide)
  have hdrop : (ident.toList ++ (blanks ++ ':' :: typeText)).dropWhile (· ≠ ':') =
      ':' :: typeText := by
    rw [← List.append_assoc]
    exact dropWhile_append_eq hcolon (by simp)
  rw [ofSpan?, hdrop, takeWhile_append_eq hname hends, List.drop_succ_cons, List.drop_zero, htype,
    String.ofList_toList]
  rfl

/-- A field is taken from its name to the end of its type, and read from what is taken. -/
theorem exists_field? {x : FieldSyntax} {tokens rest : List Token} {text : List Char}
    (h : Signature x tokens) (hrest : AfterType rest) (hbegins : Begins text)
    (ht : Spaced gap (tokens ++ rest) text) :
    ∃ span after, text = span ++ after ∧ span ≠ [] ∧ field? text = some span.length ∧
      Spaced gap rest after ∧ ofSpan? span = some x := by
  cases h with
  | @mk ident type required _ _ tokens _ _ hbefore hident harguments htype hvalue hafter =>
  cases hbefore
  cases harguments
  cases hvalue
  cases hafter
  obtain ⟨n, name, closing, hname, rfl, hclosing⟩ := htype.exists_closing
  simp only [List.nil_append, List.append_nil, List.cons_append, List.append_assoc] at ht
  obtain ⟨afterName, rfl, hproper, -, hends, hafterName⟩ := ht.cons_inv_of_begins hbegins
  obtain ⟨blanks, afterColon, rfl, hb, hafterColon⟩ := hafterName.mark_inv
  obtain ⟨front, tail, rfl, hdrop, hnameEnds, htail, hothers⟩ := exists_opening hafterColon
  obtain ⟨closed, left, rfl, hclosed, hleft, hlength⟩ := exists_closingLength hclosing hrest htail
  have hread := read?_of_typeTokens htype (hothers closing closed hclosed hnameEnds.of_append)
  have hcolonBegins : Begins (':' :: (front ++ (name ++ (closed ++ left)))) :=
    begins_mark (by decide) _
  refine ⟨ident.toList ++ (blanks ++ ':' :: (front ++ (name ++ closed))), left,
    by simp [Token.text], by simp, ?_, hleft, ofSpan?_append hident hb hread⟩
  have hopens : (fun c => c == '[' || isBlank c) = opensType := rfl
  simp only [field?, Token.text, Option.bind_eq_bind, Option.bind_some,
    identifier?_append hident hends, hb.trimStart_append hcolonBegins, hopens, hdrop,
    identifier?_append hname hnameEnds, hlength, Option.some.injEq, List.length_append,
    List.length_cons]
  omega

/-- Fields open with names. -/
theorem field?_eq_none {c : Char} (h : isIdentStart c = false) (rest : List Char) :
    field? (c :: rest) = none := by
  simp [field?, identifier?, h]

theorem spans_field?_blanks {blanks : List Char} (hb : Blanks gap blanks) (core : List Char) :
    spans field? (blanks ++ core) = spans field? core := by
  induction blanks with
  | nil => rfl
  | cons c more ih =>
      have hstart : isIdentStart c = false := by
        refine Bool.eq_false_iff.2 fun hstart => ?_
        have hrest := isIdentRest_of_isIdentStart hstart
        rw [isIdentRest_eq_false (isWordChar_of_isBlank (hb c (by simp)).1)] at hrest
        cases hrest
      rw [List.cons_append, spans_of_none (field?_eq_none hstart _)]
      exact ih fun d hd => hb d (List.mem_cons_of_mem c hd)

theorem Row.afterType {fields : List FieldSyntax} {tokens : List Token}
    (h : Row Signature fields tokens) : AfterType tokens := by
  cases h with
  | nil => exact ⟨nofun, nofun⟩
  | comma => exact ⟨by simp, by simp⟩
  | cons hx =>
      obtain ⟨rfl, -⟩ := hx
      exact ⟨nofun, nofun⟩

/-- What is taken from a row of fields is read as these fields, in order. -/
theorem filterMap_spans_of_signatures {fields : List FieldSyntax} {tokens : List Token}
    (h : Row Signature fields tokens) {text : List Char} (ht : Spaced gap tokens text) :
    (spans field? text).filterMap ofSpan? = fields := by
  induction h generalizing text with
  | nil =>
      have hspans := spans_field?_blanks ht.blanks_of_nil []
      rw [List.append_nil] at hspans
      rw [hspans]
      rfl
  | comma _ ih =>
      obtain ⟨blanks, after, rfl, hb, hafter⟩ := ht.mark_inv
      rw [spans_field?_blanks hb, spans_of_none (field?_eq_none (by decide) after)]
      exact ih hafter
  | cons hx hrow ih =>
      obtain ⟨blanks, core, rfl, hb, hbegins, hcore⟩ := ht.exists_begins
      obtain ⟨span, after, rfl, hne, hfield, hafter, hread⟩ :=
        exists_field? hx hrow.afterType hbegins hcore
      rw [spans_field?_blanks hb]
      cases span with
      | nil => exact absurd rfl hne
      | cons c more =>
          rw [List.cons_append] at hfield ⊢
          rw [spans_of_some hfield, List.take_left, List.drop_left, List.filterMap_cons, hread]
          exact congrArg _ (ih hafter)

end ModelGraph.Written
