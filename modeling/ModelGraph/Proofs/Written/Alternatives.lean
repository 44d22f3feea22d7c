import ModelGraph.Proofs.Written.Bars
import ModelGraph.Proofs.Written.Members
import ModelGraph.Proofs.Written.RoundTrip

/-! # How unions are written

The alternatives of a union are names between bars. The text behind the equals sign is described as
it is split at them, blanks and comments around each name. In the normal form the words of that text
are left, so the alternatives are read as they were written (`read?_of_unionText`). What parsers
make of enums and unions follows (`parse_of_names`). -/

namespace ModelGraph

open Text

namespace Written

open Trivia Declaration

/-- A name between gaps, or a gap alone. -/
inductive Alternative (Gap End : List Char → Prop) : List String → List Char → Prop
  | nothing {text : List Char} (h : End text) : Alternative Gap End [] text
  | named {name : String} {before after : List Char} (hbefore : Gap before)
      (hname : isIdentifier name.toList = true) (hafter : End after) :
      Alternative Gap End [name] (before ++ (name.toList ++ after))

/-- Alternatives with bars between them. -/
inductive Alternatives (Gap End : List Char → Prop) : List String → List Char → Prop
  | last {names : List String} {text : List Char} (h : Alternative Gap End names text) :
      Alternatives Gap End names text
  | bar {names more : List String} {text rest : List Char} (h : Alternative Gap Gap names text)
      (hmore : Alternatives Gap End more rest) :
      Alternatives Gap End (names ++ more) (text ++ '|' :: rest)

/-- The text declares a union with the name and the alternatives. -/
inductive UnionText (ident : String) (names : List String) : List Char → Prop
  | mk {heading : List Token} {front body : List Char} (hheading : Heading .union ident heading)
      (hfront : Laid (heading ++ [.mark '=']) front)
      (hbody : Alternatives (Laid []) Tail names body) : UnionText ident names (front ++ body)

/-- Alternatives with nothing but blanks around them. -/
def BlankAlternatives : List String → List Char → Prop :=
  Alternatives (Blanks anyBlank) (Blanks anyBlank)

section Trivia

variable {End : List Char → Prop} {names : List String} {text : List Char}

/-- Without comments an alternative has blanks around its name. -/
theorem Alternative.blankOut_append {rest : List Char}
    (hend : ∀ gap, End gap → ∃ blanks,
      blankOut trivium? (gap ++ rest) = blanks ++ blankOut trivium? rest ∧ Blanks anyBlank blanks)
    (h : Alternative (Laid []) End names text) :
    ∃ left, blankOut trivium? (text ++ rest) = left ++ blankOut trivium? rest ∧
      Alternative (Blanks anyBlank) (Blanks anyBlank) names left := by
  cases h with
  | nothing h =>
      obtain ⟨blanks, heq, hblanks⟩ := hend _ h
      exact ⟨blanks, heq, .nothing hblanks⟩
  | @named name before after hbefore hname hafter =>
      obtain ⟨first, hfirst, hfirstBlanks⟩ :=
        blankOut_gap_append hbefore (name.toList ++ (after ++ rest))
      obtain ⟨second, hsecond, hsecondBlanks⟩ := hend _ hafter
      have hproper := proper_word_of_isIdentifier hname
      have hnone : ∀ c ∈ name.toList, ∀ more, trivium? (c :: more) = none :=
        fun c hc => trivium?_eq_none_of_mem hproper rfl hc
      refine ⟨first ++ (name.toList ++ second), ?_, .named hfirstBlanks hname hsecondBlanks⟩
      rw [List.append_assoc, List.append_assoc, hfirst, blankOut_append_of_none hnone, hsecond]
      simp only [List.append_assoc]

/-- Without comments alternatives have blanks around their names. -/
theorem Alternatives.blankOut (h : Alternatives (Laid []) Tail names text) :
    BlankAlternatives names (blankOut trivium? text) := by
  induction h with
  | last h =>
      have hend : ∀ gap, Tail gap → ∃ blanks,
          Text.blankOut trivium? (gap ++ []) = blanks ++ Text.blankOut trivium? [] ∧
            Blanks anyBlank blanks :=
        fun gap hgap => ⟨_, by simp, hgap.blanks⟩
      obtain ⟨left, heq, hleft⟩ := h.blankOut_append hend
      rw [List.append_nil, blankOut_nil, List.append_nil] at heq
      rw [heq]
      exact .last hleft
  | @bar names more text rest h _ ih =>
      obtain ⟨left, heq, hleft⟩ :=
        h.blankOut_append fun gap hgap => blankOut_gap_append hgap ('|' :: rest)
      rw [heq, blankOut_of_none (trivium?_eq_none (by decide) (by decide) rest)]
      exact .bar hleft ih

end Trivia

section Names

variable {names : List String} {text : List Char}

/-- An alternative has one name at most. -/
theorem Alternative.length_le {Gap End : List Char → Prop} (h : Alternative Gap End names text) :
    names.length ≤ 1 := by
  cases h with
  | nothing => exact Nat.zero_le 1
  | named => exact Nat.le_refl 1

/-- Between blanks there are blanks, or one name. -/
theorem Alternative.spaced (h : Alternative (Blanks anyBlank) (Blanks anyBlank) names text) :
    Spaced anyBlank ((names.map String.toList).map .word) text := by
  cases h with
  | nothing h => exact Spaced.nil.append_blanks h
  | @named name before after hbefore hname hafter =>
      have hword : Spaced anyBlank [.word name.toList] (name.toList ++ []) :=
        .token (proper_word_of_isIdentifier hname) rfl (Token.ends_nil _) .nil
      rw [List.append_nil] at hword
      exact (hword.append_blanks hafter).blanks_append hbefore

/-- No bar stands in an alternative. -/
theorem Alternative.bar_not_mem
    (h : Alternative (Blanks anyBlank) (Blanks anyBlank) names text) : '|' ∉ text := by
  have hblanks : ∀ {blanks : List Char}, Blanks anyBlank blanks → '|' ∉ blanks :=
    fun hb hmem => absurd (hb '|' hmem).1 (by decide)
  cases h with
  | nothing h => exact hblanks h
  | @named name before after hbefore hname hafter =>
      have hrest : '|' ∉ name.toList := by
        intro hmem
        exact absurd (isIdentRest_of_isIdentifier hname '|' hmem) (by decide)
      simp only [List.mem_append, not_or]
      exact ⟨hblanks hbefore, hrest, hblanks hafter⟩

/-- Blanks, names and bars are what it is written with. -/
theorem BlankAlternatives.wordy (h : BlankAlternatives names text) : Wordy text := by
  induction h with
  | last h => exact h.spaced.wordy
  | bar h _ ih =>
      intro c hc
      rcases List.mem_append.1 hc with hc | hc
      · exact h.spaced.wordy c hc
      · rcases List.mem_cons.1 hc with rfl | hc
        · exact .inr (by decide)
        · exact ih c hc

/-- Between two bars there is one name at most, and all of them are the names. -/
theorem BlankAlternatives.between_spec (h : BlankAlternatives names text) :
    (between text).flatten = names.map String.toList ∧
      ∀ found ∈ between text, found.length ≤ 1 := by
  induction h with
  | @last names text h =>
      have hbetween : between text = [names.map String.toList] := by
        rw [between, pieces_eq_splitOn, List.splitOn_eq_singleton h.bar_not_mem, List.map_singleton,
          h.spaced.words_eq]
      simpa [hbetween] using h.length_le
  | @bar names more text rest h _ ih =>
      have hbetween : between (text ++ '|' :: rest) =
          names.map String.toList :: between rest := by
        rw [between, pieces_eq_splitOn, List.splitOn_append_cons_self_of_not_mem h.bar_not_mem,
          List.map_cons, h.spaced.words_eq, ← pieces_eq_splitOn, between]
      rw [hbetween, List.flatten_cons, ih.1, List.map_append, List.forall_mem_cons, List.length_map]
      exact ⟨rfl, h.length_le, ih.2⟩

end Names

section Read

/-- The alternatives of a union are read from every text of their words. -/
theorem unionMembers_of_alternatives {names : List String} {body text : List Char}
    (h : BlankAlternatives names body) (ht : Wordy text) (hwords : words text = words body) :
    unionMembers text = names := by
  obtain ⟨hnames, hone⟩ := h.between_spec
  rw [← between_eq_of_words_eq hwords] at hnames hone
  rw [unionMembers_of_between ht hone, hnames, List.map_map]
  simp

/-- What stands behind the equals sign of a union is its body, if there is no other. -/
theorem ofNormalForm?_union {ident : String} {text body : List Char}
    (hread : heading? Kind.union.keyword text = some (ident, '=' :: body))
    (hmark : ∀ c ∈ body, (c ≠ '\x7b' ∧ c ≠ '\x7d') ∧ c ≠ '=') :
    ofNormalForm? .union text = some (.union ident (unionMembers body)) := by
  have hnone : (body.any fun c => c == '\x7b' || c == '\x7d' || c == '=') = false := by
    simpa using hmark
  simp only [ofNormalForm?, hread, Option.bind_eq_bind, Option.bind_some, hnone]
  rfl

/-- Every text that declares a union is read as what it declares. -/
theorem read?_of_unionText {ident : String} {names : List String} {text : String}
    (h : UnionText ident names text.toList) : read? .union text = some (.union ident names) := by
  generalize htext : text.toList = chars at h
  cases h with
  | @mk heading front body hheading hfront hbody =>
      have hblank := hbody.blankOut
      have hspaced := hfront.spaced_blankOut_append hblank.wordy.spaced_words
      have hsign : Skips directive? (.mark '=') := opensAt_directive.skips_mark (by decide)
      have hwords : ∀ token ∈ (words (blankOut trivium? body)).map Token.word,
          Skips directive? token := by
        intro token htoken
        obtain ⟨word, -, rfl⟩ := List.mem_map.1 htoken
        exact opensAt_directive.skips_word word
      have hkept : Erases anyBlank directive? (((words (blankOut trivium? body)).map .word) ++ [])
          (((words (blankOut trivium? body)).map .word) ++ []) := .append hwords .nil
      rw [List.append_nil] at hkept
      have herases := hheading.erases (by simp [Unapplied]) (.keep hsign hkept)
      obtain ⟨hnormal, hbegins, hstops⟩ := hspaced.normalForm opensAt_directive herases
      obtain ⟨rest, hread, hrest, -⟩ :=
        heading?_of_spaced hheading.isIdentifier (by decide) hnormal hbegins hstops
      have hmark : ∀ c ∈ rest, (c ≠ '\x7b' ∧ c ≠ '\x7d') ∧ c ≠ '=' := by
        intro c hc
        refine ⟨⟨?_, ?_⟩, ?_⟩ <;> rintro rfl <;> exact hrest.wordy.not_mem (by decide) hc
      rw [read?, htext, ofNormalForm?_union hread hmark,
        unionMembers_of_alternatives hblank hrest.wordy hrest.words_eq]

/-- An enum is resolved, in every context, from every text that declares it: under its name, with
the members as they were written, each as often and in this order. The same holds of a union and its
alternatives. -/
theorem parse_of_names {ident : String} {names : List String} {text : String} (context : Context) :
    (EnumText ident names text.toList →
      ∃ entity next, (Parser.ofKind .enum).parse text context = (.ok entity, next) ∧
        entity.definition = context.define ident ∧
        entity.body = .enum (names.map Field.member)) ∧
    (UnionText ident names text.toList →
      ∃ entity next, (Parser.ofKind .union).parse text context = (.ok entity, next) ∧
        entity.definition = context.define ident ∧
        ∃ members, entity.body = .union members ∧ members.map UnionMember.ident = names) := by
  constructor
  · intro h
    refine ⟨_, _, context.parse_of_read?_eq_some (read?_of_enumText h), ?_, ?_⟩
    · rw [context.definition_entityOf]
      rfl
    · rw [context.body_entityOf]
      rfl
  · intro h
    refine ⟨_, _, context.parse_of_read?_eq_some (read?_of_unionText h), ?_, ?_⟩
    · rw [context.definition_entityOf]
      rfl
    · rw [context.body_entityOf]
      have hident : UnionMember.ident ∘ context.resolveMember = id := rfl
      exact ⟨names.map context.resolveMember, rfl, by rw [List.map_map, hident, List.map_id]⟩

/-- The marks of an enum and of a union in strings and comments are none, and names come back as
often as they were written. -/
theorem parse_of_names_repeated :
    (∃ entity next, (Parser.ofKind .enum).parse
        "enum Color @tag ( a : \"\x7b\" ) \x7b \"= |\" RED @old , green RED \x7d # |"
        { settings := {} } = (.ok entity, next) ∧
      entity.definition = ⟨"Color", "Color", ""⟩ ∧
      entity.body = .enum [.member "RED", .member "green", .member "RED"]) ∧
    ∃ entity next, (Parser.ofKind .union).parse
        "union Pet @tag ( a : \"=\" ) = | Cat|Dog # \x7b\n | Cat" { settings := {} } =
          (.ok entity, next) ∧
      entity.definition = ⟨"Pet", "Pet", ""⟩ ∧
      ∃ members, entity.body = .union members ∧
        members.map UnionMember.ident = ["Cat", "Dog", "Cat"] := by
  have htag : ∀ body, Directives [.directive ['t', 'a', 'g'], .mark '(', .word ['a'], .mark ':',
      .quoted false body, .mark ')'] := by
    intro body
    have hinner : Unparenthesized [.word ['a'], .mark ':', .quoted false body] := by
      simp [Unparenthesized]
    exact .applied _ hinner .nil
  have henum : EnumText "Color" ["RED", "green", "RED"]
      "enum Color @tag ( a : \"\x7b\" ) \x7b \"= |\" RED @old , green RED \x7d # |".toList := by
    have hplain : ∀ name : String, isIdentifier name.toList = true →
        Member name ([] ++ .word name.toList :: []) := fun name hname => .mk .none hname .nil
    have hred : Member "RED" _ :=
      .mk (.some false ['=', ' ', '|']) rfl (.plain ['o', 'l', 'd'] .nil)
    obtain ⟨heading, row, hheading, hrow, hproper, hprint⟩ : ∃ heading row,
        Heading .enum "Color" heading ∧ Row Member ["RED", "green", "RED"] row ∧
        (∀ token ∈ heading ++ .mark '\x7b' :: (row ++ [.mark '\x7d']), token.Proper) ∧
        print (heading ++ .mark '\x7b' :: (row ++ [.mark '\x7d'])) ++ ([] ++ ['#', ' ', '|']) =
          "enum Color @tag ( a : \"\x7b\" ) \x7b \"= |\" RED @old , green RED \x7d # |".toList :=
      ⟨_, _, .mk .none rfl (htag ['\x7b']),
        .cons hred (.comma (.cons (hplain "green" rfl) (.cons (hplain "RED" rfl) .nil))),
        by decide, by decide⟩
    exact hprint ▸ .mk hheading hrow (laid_print hproper) (.comment .nil (by decide))
  have hunion : UnionText "Pet" ["Cat", "Dog", "Cat"]
      "union Pet @tag ( a : \"=\" ) = | Cat|Dog # \x7b\n | Cat".toList := by
    obtain ⟨heading, hheading, hproper, hprint⟩ : ∃ heading,
        Heading .union "Pet" heading ∧ (∀ token ∈ heading ++ [.mark '='], token.Proper) ∧
        print (heading ++ [.mark '=']) ++ "| Cat|Dog # \x7b\n | Cat".toList =
          "union Pet @tag ( a : \"=\" ) = | Cat|Dog # \x7b\n | Cat".toList :=
      ⟨_, .mk .none rfl (htag ['=']), by decide, by decide⟩
    have hspace : Laid [] [' '] := .blank (by decide) .nil
    have hnote : Laid [] (' ' :: '#' :: ([' ', '\x7b'] ++ '\n' :: [' '])) :=
      .blank (by decide) (.comment (by decide) hspace)
    have hbody : Alternatives (Laid []) Tail ["Cat", "Dog", "Cat"]
        "| Cat|Dog # \x7b\n | Cat".toList :=
      .bar (.nothing .nil) (.bar (.named hspace rfl .nil) (.bar (.named .nil rfl hnote)
        (.last (.named hspace rfl (.closed .nil)))))
    exact hprint ▸ .mk hheading (laid_print hproper) hbody
  have hcolor : Context.define { settings := {} } "Color" = ⟨"Color", "Color", ""⟩ := by
    decide +kernel
  have hpet : Context.define { settings := {} } "Pet" = ⟨"Pet", "Pet", ""⟩ := by decide +kernel
  rw [← hcolor, ← hpet]
  exact ⟨(parse_of_names _).1 henum, (parse_of_names _).2 hunion⟩

end Read

end Written

end ModelGraph
