import ModelGraph.Proofs.Written.Directive

/-! # Reading types

A text of the tokens of a type is read as that type, with the mark at the outside
(`read?_of_typeTokens`). -/

namespace ModelGraph.Written

open Text TypeExpr

variable {gap : Char → Bool}

section Trim

variable {text : List Char}

theorem trimStart_of_begins (h : Begins text) : trimStart text = text := by
  cases text with
  | nil => rfl
  | cons c rest => exact List.dropWhile_cons_of_neg (by simp [h c rfl])

theorem trimEnd_of_stops (h : Stops text) : trimEnd text = text := by
  have hbegins : Begins text.reverse := by
    intro c hc
    rw [List.head?_reverse] at hc
    exact h c hc
  rw [trimEnd]
  change (trimStart text.reverse).reverse = text
  rw [trimStart_of_begins hbegins, List.reverse_reverse]

theorem begins_trimStart (text : List Char) : Begins (trimStart text) := by
  induction text with
  | nil => exact begins_nil
  | cons c rest ih =>
      cases hc : isBlank c with
      | true =>
          have hdrop : trimStart (c :: rest) = trimStart rest := List.dropWhile_cons_of_pos hc
          rw [hdrop]
          exact ih
      | false =>
          have hbegins : Begins (c :: rest) := by
            rintro _ ⟨⟩
            exact hc
          rw [trimStart_of_begins hbegins]
          exact hbegins

theorem stops_trimEnd (text : List Char) : Stops (trimEnd text) := by
  intro c hc
  rw [trimEnd, List.getLast?_reverse] at hc
  exact begins_trimStart text.reverse c hc

theorem trimEnd_isPrefix (text : List Char) : trimEnd text <+: text := by
  rw [trimEnd, ← List.reverse_suffix, List.reverse_reverse]
  exact List.dropWhile_suffix isBlank

theorem Begins.of_isPrefix {core : List Char} (hcore : core <+: text) (h : Begins text) :
    Begins core := by
  obtain ⟨rest, rfl⟩ := hcore
  cases core with
  | nil => exact begins_nil
  | cons c core => exact h

theorem begins_trim (text : List Char) : Begins (trim text) :=
  (begins_trimStart text).of_isPrefix (trimEnd_isPrefix (trimStart text))

theorem stops_trim (text : List Char) : Stops (trim text) :=
  stops_trimEnd (trimStart text)

theorem trim_trim (text : List Char) : trim (trim text) = trim text :=
  calc trim (trim text) = trimEnd (trim text) := by
        rw [trim, trimStart_of_begins (begins_trim text)]
    _ = trim text := trimEnd_of_stops (stops_trim text)

/-- Trimming the end drops the trailing blanks. -/
theorem trimEnd_append_blanks {core blanks : List Char} (hcore : Stops core)
    (hb : Blanks gap blanks) : trimEnd (core ++ blanks) = core := by
  have hreverse : Blanks gap blanks.reverse := fun c hc => hb c (List.mem_reverse.1 hc)
  have hbegins : Begins core.reverse := by
    intro c hc
    rw [List.head?_reverse] at hc
    exact hcore c hc
  rw [trimEnd, List.reverse_append]
  change (trimStart (blanks.reverse ++ core.reverse)).reverse = core
  rw [hreverse.trimStart_append hbegins, List.reverse_reverse]

end Trim

namespace Spaced

variable {tokens : List Token} {text : List Char}

/-- A text is that of its last token, and blanks. -/
theorem exists_stops (h : Spaced gap tokens text) :
    ∃ core blanks, text = core ++ blanks ∧ Spaced gap tokens core ∧ Stops core ∧
      Blanks gap blanks := by
  induction h with
  | nil => exact ⟨[], [], rfl, .nil, stops_nil, Blanks.nil⟩
  | @blank c tokens text hc hgap _ ih =>
      obtain ⟨core, blanks, rfl, hcore, hstops, hb⟩ := ih
      cases core with
      | nil => exact ⟨[], c :: blanks, rfl, hcore, hstops, .cons hc hgap hb⟩
      | cons d core =>
          refine ⟨c :: d :: core, blanks, rfl, .blank hc hgap hcore, ?_, hb⟩
          intro e he
          rw [List.getLast?_cons_cons] at he
          exact hstops e he
  | @token token tokens text hproper hquoted hends _ ih =>
      obtain ⟨core, blanks, rfl, hcore, hstops, hb⟩ := ih
      refine ⟨token.text ++ core, blanks, by simp, .token hproper hquoted ?_ hcore, ?_, hb⟩
      · exact hends.of_append
      · intro c hc
        cases core with
        | nil =>
            rw [List.append_nil] at hc
            exact Token.isBlank_of_mem_text hproper hquoted (List.mem_of_getLast? hc)
        | cons d core =>
            rw [List.getLast?_append, List.getLast?_eq_some_getLast (List.cons_ne_nil d core)] at hc
            refine hstops c ?_
            rw [List.getLast?_eq_some_getLast (List.cons_ne_nil d core)]
            exact hc

theorem trimEnd (h : Spaced gap tokens text) : Spaced gap tokens (Text.trimEnd text) := by
  obtain ⟨core, blanks, rfl, hcore, hstops, hb⟩ := h.exists_stops
  rw [trimEnd_append_blanks hstops hb]
  exact hcore

theorem trimStart (h : Spaced gap tokens text) : Spaced gap tokens (Text.trimStart text) := by
  cases tokens with
  | nil =>
      rw [h.blanks_of_nil.trimStart_eq_nil]
      exact .nil
  | cons token more =>
      obtain ⟨blanks, rest, rfl, hb, hproper, hquoted, hends, hrest⟩ := h.cons_inv
      rw [hb.trimStart_append (begins_text_append hproper hquoted rest)]
      exact .token hproper hquoted hends hrest

theorem trim (h : Spaced gap tokens text) : Spaced gap tokens (Text.trim text) :=
  h.trimStart.trimEnd

/-- A last mark stands at the end if the text does not end with a blank. -/
theorem concat_mark_inv_of_stops {c : Char} (h : Spaced gap (tokens ++ [.mark c]) text)
    (hstops : Stops text) : ∃ before, text = before ++ [c] ∧ Spaced gap tokens before := by
  obtain ⟨before, blanks, rfl, hbefore, hb⟩ := h.concat_mark_inv
  rw [List.append_cons] at hstops
  rw [hb.eq_nil_of_stops hstops]
  exact ⟨before, rfl, hbefore⟩

end Spaced

section Read

variable {text : List Char}

theorem dropLast?_concat (c : Char) (text : List Char) : dropLast? c (text ++ [c]) = some text := by
  simp [dropLast?]

theorem dropLast?_eq_none {c : Char} (h : text.getLast? ≠ some c) : dropLast? c text = none :=
  if_neg h

theorem read?_word {c : Char} {rest : List Char} (h : (unmarked text).1 = c :: rest)
    (hc : c ≠ '[') :
    read? text = some (.named (String.ofList (c :: rest)), (unmarked text).2) := by
  rw [read?]
  split
  · next hnil => rw [h] at hnil; cases hnil
  · next d more hcons =>
    rw [h] at hcons
    cases hcons
    rw [if_neg hc]

theorem read?_brackets {inner : List Char} (h : (unmarked text).1 = '[' :: (inner ++ [']'])) :
    read? text = (read? inner).map fun (type, _) => (.list type, (unmarked text).2) := by
  rw [read?]
  split
  · next hnil => rw [h] at hnil; cases hnil
  · next d more hcons =>
    rw [h] at hcons
    cases hcons
    rw [if_pos rfl]
    split
    · next found hfound =>
      rw [dropLast?_concat] at hfound
      cases hfound
      rfl
    · next hnone =>
      rw [dropLast?_concat] at hnone
      cases hnone

end Read

section Unmarked

variable {text : List Char} {type : TypeExpr} {tokens : List Token}

/-- A word alone is the whole of a text without blanks at its ends. -/
theorem Spaced.eq_of_word {word : List Char} (h : Spaced gap [.word word] text)
    (hbegins : Begins text) (hstops : Stops text) : text = word := by
  obtain ⟨rest, rfl, -, -, -, hrest⟩ := h.cons_inv_of_begins hbegins
  rw [hrest.blanks_of_nil.eq_nil_of_stops hstops, List.append_nil]
  rfl

/-- Outer marks stand at the ends of a text without blanks there. -/
theorem Spaced.between_marks {first last : Char}
    (h : Spaced gap (.mark first :: (tokens ++ [.mark last])) text) (hbegins : Begins text)
    (hstops : Stops text) :
    ∃ inner, text = first :: (inner ++ [last]) ∧ Spaced gap tokens inner := by
  obtain ⟨rest, rfl, -, -, -, hrest⟩ := h.cons_inv_of_begins hbegins
  obtain ⟨inner, rfl, hinner⟩ := hrest.concat_mark_inv_of_stops hstops.of_append
  exact ⟨inner, rfl, hinner⟩

/-- A type without a mark at the outside is its name, or stands in brackets. -/
theorem TypeTokens.unmarked_cases (h : TypeTokens type false tokens)
    (ht : Spaced gap tokens text) (hbegins : Begins text) (hstops : Stops text) :
    (∃ name, type = .named name ∧ isIdentifier name.toList = true ∧ text = name.toList) ∨
      ∃ inner within, type = .list inner ∧ text = '[' :: (within ++ [']']) := by
  cases h with
  | @named name hname => exact .inl ⟨name, rfl, hname, ht.eq_of_word hbegins hstops⟩
  | @list inner marked tokens h =>
      obtain ⟨within, htext, -⟩ := ht.between_marks hbegins hstops
      exact .inr ⟨inner, within, rfl, htext⟩

/-- A type without a mark at the outside does not end with one. -/
theorem TypeTokens.getLast?_ne (h : TypeTokens type false tokens)
    (ht : Spaced gap tokens text) (hbegins : Begins text) (hstops : Stops text) :
    text.getLast? ≠ some '!' := by
  rcases h.unmarked_cases ht hbegins hstops with ⟨name, -, hname, rfl⟩ | ⟨inner, within, -, rfl⟩
  · intro hlast
    have hword := (proper_word_of_isIdentifier hname).2 '!' (List.mem_of_getLast? hlast)
    exact absurd hword (by decide)
  · rw [← List.cons_append, List.getLast?_concat]
    decide

theorem unmarked_of_getLast?_ne (h : (trim text).getLast? ≠ some '!') :
    unmarked text = (trim text, false) := by
  rw [unmarked, dropLast?_eq_none h]

theorem unmarked_of_trim_eq {before : List Char} (h : trim text = before ++ ['!']) :
    unmarked text = (trimEnd before, true) := by
  rw [unmarked, h, dropLast?_concat]

/-- Whatever else is taken off a type, its name is read. -/
theorem read?_name {name : String} (hname : isIdentifier name.toList = true)
    (h : (unmarked text).1 = name.toList) :
    read? text = some (.named name, (unmarked text).2) := by
  cases hn : name.toList with
  | nil =>
      rw [hn] at hname
      cases hname
  | cons c rest =>
      have hc : c ≠ '[' := by
        rintro rfl
        rw [hn] at hname
        exact absurd hname (by simp [isIdentifier, isIdentStart])
      rw [hn] at h
      rw [read?_word h hc, ← hn, String.ofList_toList]

/-- A type in brackets is read the same with and without a mark after them. -/
theorem read?_of_unmarked {inner core : List Char} (hcore : core = '[' :: (inner ++ [']']))
    (h : unmarked text = (core, true)) (hsame : unmarked core = (core, false))
    (hread : read? core = some (type, false)) : read? text = some (type, true) := by
  have hinner : (read? core) = (read? inner).map fun (type, _) => (.list type, (unmarked core).2) :=
    read?_brackets (by rw [hsame, hcore])
  rw [read?_brackets (by rw [h, hcore]), h]
  rw [hinner, hsame, Option.map_eq_some_iff] at hread
  obtain ⟨⟨found, marked⟩, hfound, heq⟩ := hread
  cases heq
  rw [hfound]
  rfl

end Unmarked

/-- A text of the tokens of a type is read as the type, with the mark at the outside. -/
theorem read?_of_typeTokens {type : TypeExpr} {marked : Bool} {tokens : List Token}
    (h : TypeTokens type marked tokens) {text : List Char} (ht : Spaced gap tokens text) :
    read? text = some (type, marked) := by
  induction h generalizing text with
  | @named name hname =>
      have hlast :=
        (TypeTokens.named hname).getLast?_ne ht.trim (begins_trim text) (stops_trim text)
      have hunmarked := unmarked_of_getLast?_ne hlast
      have htext := ht.trim.eq_of_word (begins_trim text) (stops_trim text)
      rw [read?_name hname (by rw [hunmarked, htext]), hunmarked]
  | @list inner marked within h ih =>
      have hlast := h.list.getLast?_ne ht.trim (begins_trim text) (stops_trim text)
      have hunmarked := unmarked_of_getLast?_ne hlast
      obtain ⟨before, htext, hbefore⟩ := ht.trim.between_marks (begins_trim text) (stops_trim text)
      rw [read?_brackets (by rw [hunmarked, htext]), ih hbefore, hunmarked]
      rfl
  | @marked type within h ih =>
      obtain ⟨before, htext, hbefore⟩ := ht.trim.concat_mark_inv_of_stops (stops_trim text)
      have hunmarked := unmarked_of_trim_eq htext
      have hbegins : Begins (trimEnd before) := by
        refine (begins_trim text).of_isPrefix ?_
        rw [htext]
        exact (trimEnd_isPrefix before).trans (List.prefix_append before ['!'])
      have hstops := stops_trimEnd before
      rcases h.unmarked_cases hbefore.trimEnd hbegins hstops with
        ⟨name, rfl, hname, heq⟩ | ⟨inner, within, rfl, heq⟩
      · rw [read?_name hname (by rw [hunmarked, heq]), hunmarked]
      · have hsame : trim (trimEnd before) = trimEnd before := by
          rw [trim, trimStart_of_begins hbegins, trimEnd_of_stops hstops]
        have hlast : (trim (trimEnd before)).getLast? ≠ some '!' :=
          hsame.symm ▸ h.getLast?_ne hbefore.trimEnd hbegins hstops
        have hcore := unmarked_of_getLast?_ne hlast
        rw [hsame] at hcore
        exact read?_of_unmarked heq hunmarked hcore (ih hbefore.trimEnd)

end ModelGraph.Written
