import Mathlib.Data.List.TakeWhile
import ModelGraph.Proofs.Naming.Casing
import ModelGraph.Proofs.Written.Token

/-! # Resolved names of fields

The leading underscores of a field name stay and what is behind them is converted if it has more of
them, so a resolved name is an identifier that begins as the declared one does, has all its letters
and digits, and is not converted again (`keepsField_of_isIdentifier`). -/

namespace ModelGraph

open Text Written

/-- What the resolved name of a field has of the declared one. -/
structure NamingPolicy.KeepsField (policy : NamingPolicy) (declared : String) : Prop where
  /-- On the wire the field has its declared name. -/
  wireName_eq : (policy.fieldName declared).wireName = declared
  isIdentifier : isIdentifier (policy.fieldName declared).name.toList = true
  /-- As many underscores lead the name as the declared one. -/
  leading_eq : (policy.fieldName declared).name.toList.takeWhile (· == '_') =
    declared.toList.takeWhile (· == '_')
  folded_eq : folded (policy.fieldName declared).name.toList = folded declared.toList
  /-- Affixes are for types. -/
  affixes : ∀ other : NamingPolicy, other.convertCase = policy.convertCase →
    other.fieldName declared = policy.fieldName declared
  isUpper_head : (∃ c ∈ (policy.fieldName declared).name.toList.head?, c.isUpper = true) →
    ∃ c ∈ declared.toList.head?, c.isUpper = true
  fixed : (policy.fieldName (policy.fieldName declared).name).name =
    (policy.fieldName declared).name
  converted : policy.convertCase = true →
    '_' ∉ (policy.fieldName declared).name.toList.dropWhile (· == '_')
  unconverted : policy.convertCase = false → (policy.fieldName declared).name = declared

namespace NamingPolicy

variable {policy : NamingPolicy} {declared : List Char}

/-- Behind the leading underscores of a name stands something else, if anything. -/
theorem dropWhile_underscore_cases (name : List Char) :
    name.dropWhile (· == '_') = [] ∨
      ∃ c rest, name.dropWhile (· == '_') = c :: rest ∧ c ≠ '_' := by
  cases hdrop : name.dropWhile (· == '_') with
  | nil => exact .inl rfl
  | cons c rest =>
      refine .inr ⟨c, rest, rfl, ?_⟩
      have hfirst : c ∈ (name.dropWhile (· == '_')).head? := by
        rw [hdrop]
        rfl
      exact ne_of_beq_false (head?_dropWhile_eq_false (· == '_') name c hfirst)

/-- Without more underscores than the leading ones a name is not converted. -/
theorem memberName_of_not_mem (h : '_' ∉ declared.dropWhile (· == '_')) :
    policy.memberName declared = declared := by
  simp [memberName, h]

/-- A name is left as it is, or is converted behind its leading underscores. -/
theorem memberName_cases (policy : NamingPolicy) (declared : List Char) :
    (policy.memberName declared = declared ∧
        (policy.convertCase = true → '_' ∉ declared.dropWhile (· == '_'))) ∨
      ∃ c rest, c ≠ '_' ∧ declared = declared.takeWhile (· == '_') ++ c :: rest ∧
        policy.convertCase = true ∧
        policy.memberName declared = declared.takeWhile (· == '_') ++ camel (c :: rest) := by
  by_cases hmem : policy.convertCase = true ∧ '_' ∈ declared.dropWhile (· == '_')
  · rcases dropWhile_underscore_cases declared with hnil | ⟨c, rest, hcons, hc⟩
    · rw [hnil] at hmem
      cases hmem.2
    · refine .inr ⟨c, rest, hc, ?_, hmem.1, ?_⟩
      · rw [← hcons, List.takeWhile_append_dropWhile]
      · simp [memberName, hmem, ← hcons]
  · rw [not_and] at hmem
    refine .inl ⟨?_, hmem⟩
    cases hconvert : policy.convertCase with
    | true => exact memberName_of_not_mem (hmem hconvert)
    | false => simp [memberName, hconvert]

section Converted

variable {lead : List Char} {c : Char} {rest : List Char}

/-- The leading underscores are told from a converted name behind them. -/
theorem span_append_camel (hlead : ∀ d ∈ lead, (d == '_') = true)
    (hrest : ∀ d ∈ c :: rest, isIdentRest d = true) :
    (lead ++ camel (c :: rest)).takeWhile (· == '_') = lead ∧
      (lead ++ camel (c :: rest)).dropWhile (· == '_') = camel (c :: rest) := by
  have hstop : ∀ d ∈ (camel (c :: rest)).head?, (d == '_') = false := by
    intro d hd
    have halnum := isAlphanum_of_mem_camel hrest d (List.mem_of_mem_head? hd)
    exact beq_false_of_ne (ne_underscore_of_isAlphanum halnum)
  exact ⟨takeWhile_append_eq hlead hstop, dropWhile_append_eq hlead hstop⟩

/-- A converted name begins with an underscore or in lower case. -/
theorem not_isUpper_head_append_camel (hlead : ∀ d ∈ lead, (d == '_') = true)
    (hrest : ∀ d ∈ c :: rest, isIdentRest d = true) (hc : c ≠ '_') :
    ∀ d ∈ (lead ++ camel (c :: rest)).head?, ¬ d.isUpper = true := by
  intro d hd
  cases lead with
  | nil =>
      rw [List.nil_append, head?_camel hrest hc] at hd
      obtain rfl := Option.some.inj hd
      have halnum := isAlphanum_of_isIdentRest (hrest c List.mem_cons_self) hc
      simp [(recases_toLower halnum).other_eq]
  | cons e more =>
      obtain rfl : e = d := Option.some.inj hd
      rw [eq_of_beq (hlead e List.mem_cons_self)]
      decide

theorem isIdentifier_append_camel (hlead : ∀ d ∈ lead, (d == '_') = true)
    (h : isIdentifier (lead ++ c :: rest) = true) (hc : c ≠ '_') :
    isIdentifier (lead ++ camel (c :: rest)) = true := by
  have hall := isIdentRest_of_isIdentifier h
  have hrest : ∀ d ∈ c :: rest, isIdentRest d = true :=
    fun d hd => hall d (List.mem_append_right lead hd)
  have hcamel : ∀ d ∈ camel (c :: rest), isIdentRest d = true := by
    intro d hd
    simp [isIdentRest, isAlphanum_of_mem_camel hrest d hd]
  cases lead with
  | nil =>
      obtain ⟨tail, htail⟩ := List.head?_eq_some_iff.1 (head?_camel hrest hc)
      have hstart : c.isAlpha = true := by
        have hfirst := (Bool.and_eq_true_iff.1 h).1
        simpa [isIdentStart, hc] using hfirst
      rw [List.nil_append, htail]
      rw [htail] at hcamel
      rw [isIdentifier_cons_iff fun d hd => hcamel d (List.mem_cons_of_mem _ hd)]
      have halnum := isAlphanum_of_isIdentRest (hrest c List.mem_cons_self) hc
      simp [isIdentStart, (recases_toLower halnum).isAlpha, hstart]
  | cons e more =>
      have hkept : isIdentifier (e :: more) = true := by
        have hfirst := (Bool.and_eq_true_iff.1 h).1
        rw [isIdentifier_cons_iff fun d hd =>
          hall d (List.mem_append_left _ (List.mem_cons_of_mem e hd))]
        exact hfirst
      exact isIdentifier_append hkept hcamel

end Converted

/-- What the structure asks of a name, for names that are converted and for those that are not. -/
theorem memberName_spec (policy : NamingPolicy) (h : isIdentifier declared = true) :
    isIdentifier (policy.memberName declared) = true ∧
      (policy.memberName declared).takeWhile (· == '_') = declared.takeWhile (· == '_') ∧
      folded (policy.memberName declared) = folded declared ∧
      ((∃ c ∈ (policy.memberName declared).head?, c.isUpper = true) →
        ∃ c ∈ declared.head?, c.isUpper = true) ∧
      (policy.convertCase = true → '_' ∉ (policy.memberName declared).dropWhile (· == '_')) := by
  rcases policy.memberName_cases declared with ⟨hkept, hnone⟩ | ⟨c, rest, hc, hsplit, -, hname⟩
  · rw [hkept]
    exact ⟨h, rfl, rfl, id, hnone⟩
  · have hlead : ∀ d ∈ declared.takeWhile (· == '_'), (d == '_') = true :=
      fun d hd => List.mem_takeWhile_imp (p := fun e => e == '_') hd
    generalize declared.takeWhile (· == '_') = lead at hsplit hname hlead ⊢
    subst hsplit
    have hrest : ∀ d ∈ c :: rest, isIdentRest d = true :=
      fun d hd => isIdentRest_of_isIdentifier h d (List.mem_append_right lead hd)
    obtain ⟨htake, hdrop⟩ := span_append_camel hlead hrest
    rw [hname]
    refine ⟨isIdentifier_append_camel hlead h hc, htake, ?_, ?_, ?_⟩
    · rw [folded_append, folded_append, folded_camel hrest]
    · rintro ⟨d, hd, hupper⟩
      exact absurd hupper (not_isUpper_head_append_camel hlead hrest hc d hd)
    · rw [hdrop]
      exact fun _ => underscore_not_mem_of_alphanum (isAlphanum_of_mem_camel hrest)

theorem memberName_of_unconverted (h : policy.convertCase = false) :
    policy.memberName declared = declared := by
  simp [memberName, h]

/-- A resolved name is not converted again. -/
theorem memberName_memberName (policy : NamingPolicy) (h : isIdentifier declared = true) :
    policy.memberName (policy.memberName declared) = policy.memberName declared := by
  cases hconvert : policy.convertCase with
  | true => exact memberName_of_not_mem ((policy.memberName_spec h).2.2.2.2 hconvert)
  | false => exact memberName_of_unconverted hconvert

/-- The rules for fields know nothing of affixes. -/
theorem fieldName_congr {other : NamingPolicy} (h : other.convertCase = policy.convertCase)
    (declared : String) : other.fieldName declared = policy.fieldName declared := by
  simp only [fieldName, memberName, h]

end NamingPolicy

/-- Whatever the policy, the field of an identifier has its declared name on the wire and a resolved
name that is an identifier, with the same underscores in front and the same letters and digits, in
capitals at the front only if declared so, and is resolved for good. -/
theorem keepsField_of_isIdentifier (policy : NamingPolicy) {declared : String}
    (h : isIdentifier declared.toList = true) : policy.KeepsField declared := by
  obtain ⟨hident, hlead, hfolded, hupper, hconverted⟩ := policy.memberName_spec h
  have hname : (policy.fieldName declared).name.toList = policy.memberName declared.toList := by
    rw [NamingPolicy.fieldName, String.toList_ofList]
  exact {
    wireName_eq := rfl
    isIdentifier := hname ▸ hident
    leading_eq := hname ▸ hlead
    folded_eq := hname ▸ hfolded
    affixes := fun other hother => NamingPolicy.fieldName_congr hother declared
    isUpper_head := hname ▸ hupper
    fixed := by
      rw [NamingPolicy.fieldName, hname, policy.memberName_memberName h]
      rfl
    converted := hname ▸ hconverted
    unconverted := fun hconvert => by
      rw [← String.toList_inj, hname, NamingPolicy.memberName_of_unconverted hconvert] }

/-- A name with capitals behind its leading underscore, doubled underscores and a digit. -/
theorem keepsField_of_isIdentifier_capital :
    isIdentifier "_ID__x2_".toList = true ∧ NamingPolicy.KeepsField {} "_ID__x2_" ∧
      NamingPolicy.fieldName {} "_ID__x2_" = ⟨"_idX2", "_ID__x2_"⟩ := by
  have h : isIdentifier "_ID__x2_".toList = true := by decide +kernel
  exact ⟨h, keepsField_of_isIdentifier {} h, by decide +kernel⟩

end ModelGraph
