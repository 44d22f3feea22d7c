import ModelGraph.Proofs.Naming.Casing
import ModelGraph.Proofs.Resolution.FirstFault
import ModelGraph.Proofs.Written.Token

/-! # Resolved names of types

Converting a type name drops its underscores and changes its case, so names can only be taken for
one another if they agree in all else, and a converted name is not converted again
(`typeName_stable`). What is dropped may be what made the name a name: between affixes that are
empty or identifiers, the resolved name is an identifier exactly if its underscores hide neither
nothing nor a digit in front (`isIdentifier_typeName_iff`). -/

namespace ModelGraph

open Text Written

/-- Every declaration is read under an identifier. -/
theorem Declaration.isIdentifier_of_read? {kind : Kind} {text : String} {declaration : Declaration}
    (h : Declaration.read? kind text = some declaration) :
    isIdentifier declaration.ident.toList = true := by
  have hheading : ∀ {keyword : String} {text rest : List Char} {name : String},
      heading? keyword text = some (name, rest) → isIdentifier name.toList = true := by
    intro keyword text rest name h
    simp only [heading?] at h
    split at h
    · obtain ⟨⟨found, left⟩, hfound, heq⟩ := Option.map_eq_some_iff.1 h
      obtain ⟨rfl, -⟩ := Prod.mk.inj heq
      rw [String.toList_ofList]
      exact isIdentifier_of_identifier? hfound
    · cases h
  simp only [read?, ofNormalForm?, Option.bind_eq_bind, Option.bind_eq_some_iff] at h
  obtain ⟨⟨name, rest⟩, hname, h⟩ := h
  have hident : declaration.ident = name := by
    cases kind with
    | record | input =>
        obtain ⟨body, -, rfl⟩ := Option.map_eq_some_iff.1 h
        rfl
    | enum =>
        obtain ⟨body, -, h⟩ := Option.bind_eq_some_iff.1 h
        dsimp only at h
        split at h
        · cases h
        · cases h
          rfl
    | union =>
        dsimp only at h
        split at h
        · split at h
          · cases h
          · cases h
            rfl
        · cases h
  exact hident ▸ hheading hname

/-- Every entity of a resolved model is what a chunk of the document declares. -/
theorem exists_declares_of_resolve {document : String} {settings : Settings} {registry : Registry}
    (h : resolve document settings = .ok registry) {entity : Entity}
    (he : entity ∈ registry.entities) :
    ∃ chunk ∈ settings.chunks document, Declares settings chunk entity := by
  obtain ⟨start, declarations, last, hs, hd, hl, hc⟩ := resolve_eq_ok_iff.1 h
  obtain rfl := Resolver.registry_of_conclude hc
  obtain ⟨i, hi⟩ := List.mem_iff_getElem?.1 he
  have hall := declares_of_enterAll hs hd hl
  have hlt : i < (settings.chunks document).length :=
    hall.length_eq ▸ (List.getElem?_eq_some_iff.1 hi).1
  refine ⟨_, List.getElem_mem hlt, ?_⟩
  have hget := List.forall₂_iff_get.1 hall
  obtain ⟨hlt', rfl⟩ := List.getElem?_eq_some_iff.1 hi
  exact hget.2 i hlt hlt'

namespace NamingPolicy

variable (policy : NamingPolicy)

/-- Nothing is left of a declared name: it is converted, has only underscores, and no affixes. -/
def LeavesNothing (declared : List Char) : Prop :=
  policy.convertCase = true ∧ policy.affixBefore = "" ∧ policy.affixAfter = "" ∧
    lettered declared = []

/-- A digit comes to the front of a declared name: it is converted, nothing goes before it, and the
digit is what stands behind its underscores. -/
def LeavesDigit (declared : List Char) : Prop :=
  policy.convertCase = true ∧ policy.affixBefore = "" ∧
    ∃ c ∈ (lettered declared).head?, c.isDigit = true

instance (declared : List Char) : Decidable (policy.LeavesNothing declared) :=
  inferInstanceAs (Decidable (_ ∧ _ ∧ _ ∧ _))

instance (declared : List Char) : Decidable (policy.LeavesDigit declared) :=
  inferInstanceAs (Decidable (_ ∧ _ ∧ ∃ c ∈ (lettered declared).head?, c.isDigit = true))

theorem toList_typeName (declared : String) :
    (policy.typeName declared).toList =
      policy.affixBefore.toList ++
        (policy.baseName declared.toList ++ policy.affixAfter.toList) := by
  simp [typeName]

/-- A name is converted, or left as it is if it is not to be converted or has no underscore and no
lower-case letter in front. -/
theorem baseName_cases (declared : List Char) :
    (policy.convertCase = true ∧ policy.baseName declared = pascal declared) ∨
      (policy.baseName declared = declared ∧
        (policy.convertCase = false ∨ outsideConvention declared = false)) := by
  unfold baseName
  split
  · next h => exact .inl ⟨(Bool.and_eq_true_iff.1 h).1, rfl⟩
  · next h => exact .inr ⟨rfl, Bool.and_eq_false_iff.1 (Bool.eq_false_iff.2 h)⟩

variable {policy} {declared : List Char}

theorem isIdentRest_of_mem_baseName (h : isIdentifier declared = true) :
    ∀ c ∈ policy.baseName declared, isIdentRest c = true := by
  have hrest := isIdentRest_of_isIdentifier h
  intro c hc
  rcases policy.baseName_cases declared with ⟨-, heq⟩ | ⟨heq, -⟩
  · rw [heq] at hc
    simp [isIdentRest, isAlphanum_of_mem_pascal hrest c hc]
  · exact hrest c (heq ▸ hc)

theorem underscore_not_mem_of_inside (h : outsideConvention declared = false) :
    '_' ∉ declared := by
  simp only [outsideConvention, Bool.or_eq_false_iff, List.contains_eq_mem,
    decide_eq_false_iff_not] at h
  exact h.1

/-- A name that is no different without underscores begins with a letter. -/
theorem not_isDigit_of_isIdentifier (h : isIdentifier declared = true) (hnone : '_' ∉ declared) :
    lettered declared ≠ [] ∧ ∀ c ∈ (lettered declared).head?, ¬ c.isDigit = true := by
  rw [lettered_eq_self hnone]
  cases declared with
  | nil => cases h
  | cons c rest =>
      refine ⟨List.cons_ne_nil c rest, ?_⟩
      rintro _ ⟨⟩
      have halnum : c.isAlphanum = true := by
        refine isAlphanum_of_mem_lettered (isIdentRest_of_isIdentifier h) c ?_
        rw [lettered_eq_self hnone]
        exact List.mem_cons_self
      exact (isIdentStart_iff_of_isAlphanum halnum).1 (Bool.and_eq_true_iff.1 h).1

/-- A converted name is an identifier in front of what follows it, unless a digit comes to its front
or nothing is left. -/
theorem isIdentifier_pascal_append_iff (h : isIdentifier declared = true) {after : List Char}
    (hafter : after = [] ∨ isIdentifier after = true) :
    isIdentifier (pascal declared ++ after) = true ↔
      ¬ (lettered declared = [] ∧ after = []) ∧
        ¬ ∃ c ∈ (lettered declared).head?, c.isDigit = true := by
  have hrest := isIdentRest_of_isIdentifier h
  have hhead := head?_pascal hrest
  cases hl : lettered declared with
  | nil =>
      rw [hl] at hhead
      rw [List.head?_eq_none_iff.1 hhead]
      rcases hafter with rfl | hafter
      · simp [isIdentifier]
      · have hne : after ≠ [] := by
          rintro rfl
          cases hafter
        simp [hafter, hne]
  | cons c more =>
      have halnum := isAlphanum_of_mem_lettered hrest c (hl ▸ List.mem_cons_self)
      rw [hl] at hhead
      obtain ⟨tail, htail⟩ := List.head?_eq_some_iff.1 hhead
      have hall : ∀ d ∈ tail ++ after, isIdentRest d = true := by
        intro d hd
        rcases List.mem_append.1 hd with hd | hd
        · have hmem : d ∈ pascal declared := htail ▸ List.mem_cons_of_mem _ hd
          simp [isIdentRest, isAlphanum_of_mem_pascal hrest d hmem]
        · rcases hafter with rfl | hafter
          · cases hd
          · exact isIdentRest_of_isIdentifier hafter d hd
      rw [htail, List.cons_append, isIdentifier_cons_iff hall]
      have hupper := recases_toUpper halnum
      simp [isIdentStart, ne_underscore_of_isAlphanum hupper.isAlphanum, hupper.isAlpha,
        isAlpha_iff_of_isAlphanum halnum]

/-- In front of its affix, the base of a name is an identifier, unless something is lost. -/
theorem isIdentifier_baseName_append_iff (h : isIdentifier declared = true)
    (hbefore : policy.affixBefore = "")
    (hafter : policy.affixAfter = "" ∨ isIdentifier policy.affixAfter.toList = true) :
    isIdentifier (policy.baseName declared ++ policy.affixAfter.toList) = true ↔
      ¬ policy.LeavesNothing declared ∧ ¬ policy.LeavesDigit declared := by
  have hlist : policy.affixAfter = "" ↔ policy.affixAfter.toList = [] := by simp
  rcases policy.baseName_cases declared with ⟨hconvert, heq⟩ | ⟨heq, hinside⟩
  · rw [heq, isIdentifier_pascal_append_iff h (hafter.imp_left hlist.1)]
    simp only [LeavesNothing, LeavesDigit, hconvert, hbefore, hlist, true_and, and_comm]
  · have hrest : ∀ c ∈ policy.affixAfter.toList, isIdentRest c = true := by
      rcases hafter with hempty | hafter
      · simp [hempty]
      · exact isIdentRest_of_isIdentifier hafter
    rw [heq, iff_true_left (isIdentifier_append h hrest)]
    rcases hinside with hconvert | hinside
    · simp [LeavesNothing, LeavesDigit, hconvert]
    · obtain ⟨hne, hdigit⟩ := not_isDigit_of_isIdentifier h (underscore_not_mem_of_inside hinside)
      exact ⟨fun hnothing => hne hnothing.2.2.2, fun ⟨_, _, c, hc, hd⟩ => hdigit c hc hd⟩

/-- With an identifier in front, every resolved name is one. -/
theorem isIdentifier_typeName_of_affixed {declared : String}
    (h : isIdentifier declared.toList = true)
    (hbefore : isIdentifier policy.affixBefore.toList = true)
    (hafter : policy.affixAfter = "" ∨ isIdentifier policy.affixAfter.toList = true) :
    isIdentifier (policy.typeName declared).toList = true := by
  rw [toList_typeName]
  apply isIdentifier_append hbefore
  intro c hc
  rcases List.mem_append.1 hc with hc | hc
  · exact isIdentRest_of_mem_baseName h c hc
  · rcases hafter with hempty | hafter
    · simp [hempty] at hc
    · exact isIdentRest_of_isIdentifier hafter c hc

/-- Nothing is left of a name exactly if its base and its affixes are empty. -/
theorem leavesNothing_iff (h : isIdentifier declared = true) :
    policy.LeavesNothing declared ↔
      policy.affixBefore = "" ∧ policy.baseName declared = [] ∧ policy.affixAfter = "" := by
  have hrest := isIdentRest_of_isIdentifier h
  have hhead := head?_pascal hrest
  rcases policy.baseName_cases declared with ⟨hconvert, heq⟩ | ⟨heq, hinside⟩
  · have hnil : pascal declared = [] ↔ lettered declared = [] := by
      rw [← List.head?_eq_none_iff, hhead, Option.map_eq_none_iff, List.head?_eq_none_iff]
    simp only [LeavesNothing, hconvert, heq, hnil, true_and]
    exact and_congr_right fun _ => and_comm
  · have hne : declared ≠ [] := by
      rintro rfl
      cases h
    have hkept : policy.convertCase = false ∨ lettered declared ≠ [] :=
      hinside.imp_right fun hinside =>
        (not_isDigit_of_isIdentifier h (underscore_not_mem_of_inside hinside)).1
    rcases hkept with hconvert | hkept
    · simp [LeavesNothing, hconvert, heq, hne]
    · simp [LeavesNothing, hkept, heq, hne]

theorem typeName_eq_empty_iff {declared : String} (h : isIdentifier declared.toList = true) :
    policy.typeName declared = "" ↔ policy.LeavesNothing declared.toList := by
  rw [leavesNothing_iff h, ← String.toList_eq_nil_iff, toList_typeName]
  simp

/-- Converted or not, a name stays what it is up to underscores and case. -/
theorem folded_baseName (h : isIdentifier declared = true) :
    folded (policy.baseName declared) = folded declared := by
  rcases policy.baseName_cases declared with ⟨-, heq⟩ | ⟨heq, -⟩
  · rw [heq, folded_pascal (isIdentRest_of_isIdentifier h)]
  · rw [heq]

/-- What is converted is in the convention. -/
theorem outsideConvention_pascal (h : isIdentifier declared = true) :
    outsideConvention (pascal declared) = false := by
  have hrest := isIdentRest_of_isIdentifier h
  have hnone := underscore_not_mem_of_alphanum (isAlphanum_of_mem_pascal hrest)
  rw [outsideConvention, head?_pascal hrest, List.contains_eq_mem, decide_eq_false hnone]
  cases hhead : (lettered declared).head? with
  | none => rfl
  | some c =>
      have halnum := isAlphanum_of_mem_lettered hrest c (List.mem_of_mem_head? hhead)
      simp [(recases_toUpper halnum).other_eq]

/-- A name in the convention is not converted again. -/
theorem baseName_baseName (h : isIdentifier declared = true) :
    policy.baseName (policy.baseName declared) = policy.baseName declared := by
  rcases policy.baseName_cases declared with ⟨-, heq⟩ | ⟨heq, -⟩
  · rw [heq, baseName, outsideConvention_pascal h, Bool.and_false]
    rfl
  · rw [heq, heq]

theorem typeName_typeName (hbefore : policy.affixBefore = "") (hafter : policy.affixAfter = "")
    {declared : String} (h : isIdentifier declared.toList = true) :
    policy.typeName (policy.typeName declared) = policy.typeName declared := by
  have hlist : ∀ name : String,
      policy.typeName name = String.ofList (policy.baseName name.toList) := by
    intro name
    simp [typeName, hbefore, hafter]
  rw [hlist, hlist, String.toList_ofList, baseName_baseName h]

/-- Affixes and conversion tell names apart that differ in more than underscores and case. -/
theorem folded_eq_of_typeName_eq {a b : String} (ha : isIdentifier a.toList = true)
    (hb : isIdentifier b.toList = true) (h : policy.typeName a = policy.typeName b) :
    folded a.toList = folded b.toList := by
  have hlist := congrArg String.toList h
  rw [toList_typeName, toList_typeName] at hlist
  have hbase := List.append_cancel_right (List.append_cancel_left hlist)
  rw [← folded_baseName ha, hbase, folded_baseName hb]

end NamingPolicy

/-- Between affixes that are empty or identifiers, the resolved name of an identifier is one, unless
it is converted and nothing but underscores or a digit behind underscores was to open it; it is only
empty in the first of these cases. Every entity of a resolved model has the resolved name of an
identifier, the one under which it is declared. -/
theorem isIdentifier_typeName_iff {policy : NamingPolicy}
    (hbefore : policy.affixBefore = "" ∨ isIdentifier policy.affixBefore.toList = true)
    (hafter : policy.affixAfter = "" ∨ isIdentifier policy.affixAfter.toList = true) :
    (∀ declared : String, isIdentifier declared.toList = true →
      (isIdentifier (policy.typeName declared).toList = true ↔
        ¬ policy.LeavesNothing declared.toList ∧ ¬ policy.LeavesDigit declared.toList) ∧
      (policy.typeName declared = "" ↔ policy.LeavesNothing declared.toList)) ∧
    ∀ (document : String) (settings : Settings) (registry : Registry), settings.naming = policy →
      resolve document settings = .ok registry → ∀ entity ∈ registry.entities,
        isIdentifier entity.definition.ident.toList = true ∧
          entity.name = policy.typeName entity.definition.ident ∧
          (entity.name = "" ↔ policy.LeavesNothing entity.definition.ident.toList) := by
  constructor
  · intro declared h
    refine ⟨?_, NamingPolicy.typeName_eq_empty_iff h⟩
    by_cases hempty : policy.affixBefore = ""
    · rw [NamingPolicy.toList_typeName, hempty]
      exact NamingPolicy.isIdentifier_baseName_append_iff h hempty hafter
    · have hfront := hbefore.resolve_left hempty
      rw [iff_true_left (NamingPolicy.isIdentifier_typeName_of_affixed h hfront hafter)]
      simp [NamingPolicy.LeavesNothing, NamingPolicy.LeavesDigit, hempty]
  · rintro document settings registry rfl hr entity he
    obtain ⟨chunk, -, parser, declaration, -, hread, -, hident, hname⟩ :=
      exists_declares_of_resolve hr he
    have hdeclared := Declaration.isIdentifier_of_read? hread
    rw [hident, hname]
    exact ⟨hdeclared, rfl, NamingPolicy.typeName_eq_empty_iff hdeclared⟩

/-- A record named with a digit behind an underscore gets its name from the affix in front. -/
theorem isIdentifier_typeName_iff_numbered :
    ∃ registry, resolve "type _2d \x7b x: Int \x7d" { affixBefore := "My" } = .ok registry ∧
      registry.names = ["My2D"] ∧
      isIdentifier "My2D".toList = true ∧ isIdentifier "_2d".toList = true := by
  have h : resolve "type _2d \x7b x: Int \x7d" { affixBefore := "My" } = .ok
      { entities :=
          [ { definition := ⟨"_2d", "My2D", ""⟩
              body := .record [.typed ⟨"x", "x"⟩ (.scalar .int) false] } ]
        positions := [("My2D", 0)] } :=
    resolve_eq_ok_of_toOption (by decide +kernel)
  have hbefore : isIdentifier "My".toList = true := by decide +kernel
  have hboth := @isIdentifier_typeName_iff (Settings.naming { affixBefore := "My" })
    (.inr hbefore) (.inl rfl)
  have hident := hboth.2 _ _ _ rfl h _ (.head _)
  have hname := (hboth.1 _ hident.1).1.2 (by decide +kernel)
  rw [← hident.2.1] at hname
  exact ⟨_, h, rfl, hname, hident.1⟩

-- Underscores alone resolve to nothing, and a digit behind one to the digit.
example : NamingPolicy.typeName {} "_" = "" ∧ NamingPolicy.typeName {} "_1" = "1" := by
  decide +kernel

/-- If enums are kept, a name refers to a scalar only if it is spelled like one. -/
theorem Context.resolveNamed_eq_scalar_iff {context : Context}
    (hkept : context.settings.enumsAsStrings = false) {ident : String} {scalar : Scalar} :
    context.resolveNamed ident = .scalar scalar ↔ context.scalarOf? ident = some scalar := by
  rw [resolveNamed]
  cases context.scalarOf? ident with
  | some found => simp
  | none =>
      rw [resolveEntity]
      cases context.registry.get? (context.typeName ident) <;> simp [collapseEnum, hkept]

/-- Two identifiers have one resolved name only if they agree up to underscores and case. Without
affixes a resolved name resolves to itself, so what refers to an entity by its resolved name finds
what its declared name finds: among the entities, and as a member of a union. The type of a field is
the same in both spellings if they name the same scalar, built-in or custom, or both name none,
since scalars go first and by the spelling; and only then, unless enums are taken for strings. -/
theorem typeName_stable (policy : NamingPolicy) :
    (∀ a b : String, isIdentifier a.toList = true → isIdentifier b.toList = true →
      policy.typeName a = policy.typeName b → folded a.toList = folded b.toList) ∧
    (policy.affixBefore = "" → policy.affixAfter = "" →
      ∀ a : String, isIdentifier a.toList = true →
        policy.typeName (policy.typeName a) = policy.typeName a ∧
        ∀ context : Context, context.settings.naming = policy →
          context.resolveEntity (policy.typeName a) = context.resolveEntity a ∧
          (context.resolveMember (policy.typeName a)).type = (context.resolveMember a).type ∧
          (context.scalarOf? (policy.typeName a) = context.scalarOf? a →
            context.resolveNamed (policy.typeName a) = context.resolveNamed a) ∧
          (context.settings.enumsAsStrings = false →
            context.resolveNamed (policy.typeName a) = context.resolveNamed a →
              context.scalarOf? (policy.typeName a) = context.scalarOf? a)) := by
  refine ⟨fun a b ha hb h => NamingPolicy.folded_eq_of_typeName_eq ha hb h, ?_⟩
  intro hbefore hafter a ha
  have htwice := NamingPolicy.typeName_typeName hbefore hafter ha
  refine ⟨htwice, ?_⟩
  rintro context rfl
  have hentity :
      context.resolveEntity (context.settings.naming.typeName a) = context.resolveEntity a := by
    rw [Context.resolveEntity, Context.resolveEntity, Context.typeName, Context.typeName, htwice]
  refine ⟨hentity, hentity, fun hscalar => ?_, fun hkept hsame => Option.ext fun scalar => ?_⟩
  · rw [Context.resolveNamed, Context.resolveNamed, hscalar, hentity]
  · rw [← Context.resolveNamed_eq_scalar_iff hkept, hsame, Context.resolveNamed_eq_scalar_iff hkept]

/-- A record may have the name of a scalar as its resolved name. A field that refers to it by that
name has the scalar, and one that refers to it by its declared name has the record. -/
theorem resolveNamed_typeName_scalar :
    (¬ ∀ (policy : NamingPolicy) (a : String) (context : Context),
      policy.affixBefore = "" → policy.affixAfter = "" → isIdentifier a.toList = true →
        context.settings.naming = policy →
          context.resolveNamed (policy.typeName a) = context.resolveNamed a) ∧
    ∃ registry,
      resolve "type string \x7b id: ID \x7d type B \x7b x: String y: string \x7d" {} =
        .ok registry ∧
      NamingPolicy.typeName {} "string" = "String" ∧
      (registry.get? "B").map Entity.body = some (.record
        [ .typed ⟨"x", "x"⟩ (.scalar .string) false,
          .typed ⟨"y", "y"⟩ (.entity ⟨"String", .record⟩) false ]) := by
  constructor
  · intro h
    have hsame := h {} "string"
      { settings := {}
        registry :=
          { entities := [{ definition := ⟨"string", "String", ""⟩, body := .record [] }]
            positions := [("String", 0)] } } rfl rfl (by decide +kernel) rfl
    exact absurd hsame (by decide +kernel)
  · have h : resolve "type string \x7b id: ID \x7d type B \x7b x: String y: string \x7d" {} = .ok
        { entities :=
            [ { definition := ⟨"string", "String", ""⟩
                body := .record [.typed ⟨"id", "id"⟩ (.scalar .id) false] },
              { definition := ⟨"B", "B", ""⟩
                body := .record
                  [ .typed ⟨"x", "x"⟩ (.scalar .string) false,
                    .typed ⟨"y", "y"⟩ (.entity ⟨"String", .record⟩) false ] } ]
          positions := [("B", 1), ("String", 0)] } :=
      resolve_eq_ok_of_toOption (by decide +kernel)
    exact ⟨_, h, by decide +kernel, rfl⟩

/-- Names with separate words, an acronym and a digit collide, and the record of that name is found
under its declared and its resolved name. -/
theorem typeName_stable_acronym :
    NamingPolicy.typeName {} "ID_x2y" = NamingPolicy.typeName {} "_id_x2_y" ∧
      folded "ID_x2y".toList = folded "_id_x2_y".toList ∧
      ∃ context : Context, context.resolveNamed "ID_x2y" = .entity ⟨"IdX2Y", .record⟩ ∧
        context.resolveNamed "IdX2Y" = .entity ⟨"IdX2Y", .record⟩ := by
  have hsame :
      NamingPolicy.typeName {} "ID_x2y" = NamingPolicy.typeName {} "_id_x2_y" := by
    decide +kernel
  have hident : isIdentifier "ID_x2y".toList = true := by decide +kernel
  have hstable := typeName_stable {}
  let context : Context :=
    { settings := {}
      registry :=
        { entities := [{ definition := ⟨"ID_x2y", "IdX2Y", ""⟩, body := .record [] }]
          positions := [("IdX2Y", 0)] } }
  have hname : NamingPolicy.typeName {} "ID_x2y" = "IdX2Y" := by decide +kernel
  have hfound : context.resolveNamed "ID_x2y" = .entity ⟨"IdX2Y", .record⟩ := by decide +kernel
  have hboth := ((hstable.2 rfl rfl _ hident).2 context rfl).2.2.1 (by decide +kernel)
  rw [hname] at hboth
  exact ⟨hsame, hstable.1 _ _ hident (by decide +kernel) hsame, context, hfound, hboth.trans hfound⟩

end ModelGraph
