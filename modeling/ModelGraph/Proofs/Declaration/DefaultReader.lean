import ModelGraph.Proofs.Declaration.DefaultSpan
import ModelGraph.Proofs.Text.Skip

/-! # Reading default values by position

Default values are taken out of a body by a reader that keeps two positions: up to the first the
body is copied, and at the second it is read. An equals sign takes it behind the value that follows,
and so forward (`le_skipValue`). What it writes is the body with its default values blanked out
(`stripDefaults_eq`). -/

namespace ModelGraph.DefaultValue

open Text Written

/-- The position behind the bracket that leaves no bracket open, from a position at which `depth` of
them are; the end of the body if there is none. -/
def bracketEnd (body : List Char) (depth index : Nat) : Nat :=
  if h : index < body.length then
    if isOpening body[index] then bracketEnd body (depth + 1) (index + 1)
    else if isClosing body[index] then
      if depth - 1 = 0 then index + 1 else bracketEnd body (depth - 1) (index + 1)
    else bracketEnd body depth (index + 1)
  else index
termination_by body.length - index

/-- The position behind a value that is looked for from a position on. -/
def skipValue (body : List Char) (index : Nat) : Nat :=
  let start := skipWhile isAsciiSpace body index
  if body[start]?.any isOpening then bracketEnd body 0 start
  else
    let stop := skipWhile isTokenChar body start
    if BeforeColon (body.drop stop) then start else stop

section Forward

theorem le_bracketEnd (body : List Char) (depth index : Nat) :
    index ≤ bracketEnd body depth index := by
  fun_induction bracketEnd body depth index <;> omega

/-- The end of a value is not in front of where it is looked for. -/
theorem le_skipValue (body : List Char) (index : Nat) : index ≤ skipValue body index := by
  have hstart := le_skipWhile isAsciiSpace body index
  simp only [skipValue]
  split
  · exact Nat.le_trans hstart (le_bracketEnd body 0 _)
  · split
    · exact hstart
    · exact Nat.le_trans hstart (le_skipWhile isTokenChar body _)

end Forward

/-- What is written of a body from the position `copied` on, by a reader at the position `index`. -/
def stripFrom (body : List Char) (copied index : Nat) : List Char :=
  if h : index < body.length then
    if body[index] = '=' then
      let stop := skipValue body (index + 1)
      body.extract copied index ++ ' ' :: stripFrom body stop stop
    else stripFrom body copied (index + 1)
  else body.drop copied
termination_by body.length - index
decreasing_by
  · have hforward := le_skipValue body (index + 1)
    omega
  · omega

/-- A body without its default values. -/
def stripDefaults (body : List Char) : List Char :=
  stripFrom body 0 0

section Lengths

variable (body : List Char) (index : Nat)

theorem bracketEnd_eq (depth : Nat) :
    bracketEnd body depth index = index + bracketedLength depth (body.drop index) := by
  fun_induction bracketEnd body depth index with
  | case1 depth index h hopening ih =>
      rw [ih, List.drop_eq_getElem_cons h, bracketedLength_eq, if_pos hopening]
      omega
  | case2 depth index h hopening hclosing hlast =>
      rw [List.drop_eq_getElem_cons h, bracketedLength_eq, if_neg hopening, if_pos hclosing,
        if_pos (by omega)]
  | case3 depth index h hopening hclosing hlast ih =>
      rw [ih, List.drop_eq_getElem_cons h, bracketedLength_eq, if_neg hopening, if_pos hclosing,
        if_neg (by omega)]
      omega
  | case4 depth index h hopening hclosing ih =>
      rw [ih, List.drop_eq_getElem_cons h, bracketedLength_eq, if_neg hopening, if_neg hclosing]
      omega
  | case5 depth index h =>
      rw [List.drop_eq_nil_of_le (by omega)]
      rfl

/-- The reader goes as far as the value is long. -/
theorem skipValue_eq : skipValue body index = index + valueLength (body.drop index) := by
  have hstart := skipWhile_eq isAsciiSpace body index
  have hdrop := drop_skipWhile isAsciiSpace body index
  simp only [skipValue]
  generalize skipWhile isAsciiSpace body index = start at hstart hdrop ⊢
  rcases exists_value (body.drop index) with
    ⟨gap, c, rest, heq, hgap, hopening⟩ | ⟨gap, token, rest, heq, hvalue⟩
  · have hhead : ∀ d ∈ (c :: rest).head?, isAsciiSpace d = false := by
      rintro _ ⟨⟩
      rcases isOpening_iff.1 hopening with rfl | rfl <;> decide
    rw [heq, takeWhile_append_eq hgap hhead] at hstart
    rw [heq, dropWhile_append_eq hgap hhead] at hdrop
    have hfirst : body[start]?.any isOpening = true := by
      rw [← List.head?_drop, hdrop]
      exact hopening
    rw [if_pos hfirst, bracketEnd_eq, hdrop, heq,
      valueLength_bracketed hgap (isOpening_iff.1 hopening), hstart, Nat.add_assoc]
  · have hhead : ∀ d ∈ (token ++ rest).head?, isAsciiSpace d = false :=
      fun d hd => (hvalue.begins d hd).1
    rw [heq, takeWhile_append_eq hvalue.spaces hhead] at hstart
    rw [heq, dropWhile_append_eq hvalue.spaces hhead] at hdrop
    have hfirst : ¬ body[start]?.any isOpening = true := by
      rw [← List.head?_drop, hdrop, Option.any_eq_true]
      rintro ⟨d, hd, hopening⟩
      rw [(hvalue.begins d hd).2] at hopening
      cases hopening
    rw [if_neg hfirst, drop_skipWhile, skipWhile_eq, hdrop,
      takeWhile_append_eq hvalue.chars hvalue.stops, dropWhile_append_eq hvalue.chars hvalue.stops,
      heq, hvalue.valueLength_eq, hstart]
    split <;> omega

/-- A value ends in the text that it is looked for in. -/
theorem valueLength_le (text : List Char) : valueLength text ≤ text.length := by
  obtain ⟨span, rest, heq, hlength, -⟩ :=
    exists_pattern_of_default? (rfl : default? ('=' :: text) = some (valueLength text + 1))
  have htext := congrArg List.length heq
  rw [List.length_append, List.length_cons] at htext
  omega

variable {body index}

theorem skipValue_le (h : index ≤ body.length) : skipValue body index ≤ body.length := by
  have hle := valueLength_le (body.drop index)
  rw [List.length_drop] at hle
  rw [skipValue_eq]
  omega

/-- What the reader writes: what it has read and not copied, and then the rest of the body with its
default values blanked out. -/
theorem stripFrom_eq {copied : Nat} (h : copied ≤ index) :
    stripFrom body copied index =
      body.extract copied index ++ blankOut default? (body.drop index) := by
  fun_induction stripFrom body copied index with
  | case1 copied index hlt hsign stop ih =>
      have hspan : default? (body[index] :: body.drop (index + 1)) =
          some (valueLength (body.drop (index + 1)) + 1) := by
        rw [hsign]
        rfl
      have hstop : body.drop stop =
          (body.drop (index + 1)).drop (valueLength (body.drop (index + 1))) := by
        rw [List.drop_drop, ← skipValue_eq]
      rw [ih (Nat.le_refl stop), List.drop_eq_getElem_cons hlt, blankOut_of_some hspan, ← hstop]
      simp
  | case2 copied index hlt hsign ih =>
      have hnone : default? (body[index] :: body.drop (index + 1)) = none :=
        opensAt_default.eq_none _ _ hsign
      have hread :
          body.extract copied (index + 1) = body.extract copied index ++ [body[index]] := by
        rw [List.extract_eq_take_drop, List.extract_eq_take_drop, Nat.sub_add_comm h,
          List.take_add_one, List.getElem?_drop, Nat.add_sub_cancel' h,
          List.getElem?_eq_getElem hlt]
        rfl
      rw [ih (Nat.le_succ_of_le h), List.drop_eq_getElem_cons hlt, blankOut_of_none hnone, hread]
      simp
  | case3 copied index hlt =>
      have hrest : (body.drop copied).length ≤ index - copied := by
        rw [List.length_drop]
        omega
      have hnil : body.drop index = [] := List.drop_eq_nil_of_le (by omega)
      rw [List.extract_eq_take_drop, List.take_of_length_le hrest, hnil, blankOut_nil,
        List.append_nil]

/-- Stripping a body of its default values blanks them out. -/
theorem stripDefaults_eq (body : List Char) : stripDefaults body = blankOut default? body := by
  rw [stripDefaults, stripFrom_eq (Nat.le_refl 0)]
  simp

end Lengths

section Body

variable {body span : List Char} {pieces : List Piece}

theorem sign_not_mem_spacedOut (h : Parted DefaultPattern body pieces) :
    '=' ∉ spacedOut pieces := by
  induction h with
  | nil => exact List.not_mem_nil
  | span _ _ ih =>
      intro hmem
      rcases List.mem_cons.1 hmem with hspace | hmem
      · cases hspace
      · exact ih hmem
  | kept hkept _ ih =>
      intro hmem
      rcases List.mem_cons.1 hmem with rfl | hmem
      · have hnone := (measures_default.eq_none_iff _).2 hkept
        cases hnone
      · exact ih hmem

/-- The span of a default value ends where the value is found to end. -/
theorem skipValue_of_pattern {front rest : List Char} (h : DefaultPattern span rest)
    (hbody : body = front ++ (span ++ rest)) :
    skipValue body (front.length + 1) = front.length + span.length := by
  have hlength := default?_of_pattern h
  obtain ⟨more, rfl⟩ : ∃ more, span = '=' :: more := by
    cases h <;> exact ⟨_, rfl⟩
  rw [List.cons_append, default?, Option.some.injEq, List.length_cons] at hlength
  have hdrop : body.drop (front.length + 1) = more ++ rest := by
    rw [hbody, ← List.drop_drop, List.drop_left]
    rfl
  rw [skipValue_eq, hdrop, List.length_cons]
  omega

end Body

/-- Stripping a body of its default values takes spans out of it, each from an equals sign up to
where its value ends, and leaves a space for each; there is one way only to part a body so, and no
equals sign is left. The end of a value is never in front of where it is looked for, and never
behind the body. A value in brackets is taken whole, and a word in front of a colon is taken only
inside of such a value. -/
theorem exists_spans_of_defaults (body : List Char) :
    (∀ position ≤ body.length,
      position ≤ skipValue body position ∧ skipValue body position ≤ body.length) ∧
    stripDefaults body = blankOut default? body ∧
    '=' ∉ blankOut default? body ∧ ('=' ∉ body → blankOut default? body = body) ∧
    ∃ pieces : List Piece,
      (∀ other, Parted DefaultPattern body other ↔ other = pieces) ∧
      pieces.flatMap Piece.text = body ∧ spacedOut pieces = blankOut default? body ∧
      ∀ before span after, pieces = before ++ .span span :: after →
        TakesDefault span (after.flatMap Piece.text) ∧
          skipValue body ((before.flatMap Piece.text).length + 1) =
            (before.flatMap Piece.text).length + span.length := by
  have hparted := measures_default.parted_cut body
  refine ⟨fun position h => ⟨le_skipValue body position, skipValue_le h⟩, stripDefaults_eq body, ?_,
    fun hsign => ?_, cut default? body, measures_default.parted_iff body, hparted.flatMap_text,
    spacedOut_cut default? body, fun before span after hsplit => ?_⟩
  · rw [← spacedOut_cut]
    exact sign_not_mem_spacedOut hparted
  · refine blankOut_eq_self fun c rest hsuffix => ?_
    have hc : c ≠ '=' := by
      rintro rfl
      exact hsign (hsuffix.subset List.mem_cons_self)
    simp [default?, hc]
  · have hpattern := hparted.pattern_of_split hsplit
    refine ⟨hpattern.takesDefault, skipValue_of_pattern hpattern ?_⟩
    rw [← hparted.flatMap_text, hsplit]
    simp [Piece.text]

/-- A body with an object, a value that is not there and a token for default values. The key in the
object stands in front of a colon, and is taken with the object. -/
theorem exists_spans_of_defaults_nested :
    ∃ body value rest : String,
      body = "a: T = \x7bk: [1]\x7d b: S = c: E = X" ∧ value = "= \x7bk: [1]\x7d" ∧
        rest = " b: S = c: E = X" ∧
        stripDefaults body.toList = "a: T   b: S  c: E  ".toList ∧
        blankOut default? body.toList = "a: T   b: S  c: E  ".toList ∧
        '=' ∉ blankOut default? body.toList ∧
        skipValue body.toList 24 ≤ body.toList.length ∧ skipValue body.toList 6 = 15 ∧
        (∃ inner, value.toList = '=' :: ([' '] ++ '\x7b' :: inner) ∧
          Closes 1 inner rest.toList) ∧
        ∃ gap taken, value.toList = '=' :: (gap ++ taken) ∧
          (∀ c ∈ gap, isAsciiSpace c = true) ∧ BracketedValue taken rest.toList ∧
            gap.length < 3 := by
  obtain ⟨hbounds, hstrip, hsign, -, pieces, hunique, -, -, hspans⟩ :=
    exists_spans_of_defaults "a: T = \x7bk: [1]\x7d b: S = c: E = X".toList
  have hpieces := (hunique _).1 (measures_default.parted_cut _)
  obtain ⟨htakes, hskip⟩ := hspans ("a: T ".toList.map .kept) "= \x7bk: [1]\x7d".toList
    (cut default? " b: S = c: E = X".toList) (hpieces.symm.trans (by decide +kernel))
  have hrest : (cut default? " b: S = c: E = X".toList).flatMap Piece.text =
      " b: S = c: E = X".toList := by decide +kernel
  rw [hrest] at htakes
  obtain ⟨inner, hvalue, hcloses⟩ :=
    htakes.bracketed [' '] '\x7b' "k: [1]\x7d b: S = c: E = X".toList (by decide +kernel)
      (List.forall_mem_singleton.2 (by decide)) (by decide)
  have hword : IsWord ['k'] :=
    ⟨List.cons_ne_nil _ _, List.forall_mem_singleton.2 (by decide),
      List.forall_mem_singleton.2 (by decide)⟩
  obtain ⟨gap, taken, hspan, hgap, htaken, hlt, -⟩ :=
    htakes.words "= \x7b".toList ['k'] [] " [1]\x7d b: S = c: E = X".toList (by decide +kernel)
      hword (fun _ => (nomatch ·)) (by decide)
  have hblanked : blankOut default? "a: T = \x7bk: [1]\x7d b: S = c: E = X".toList =
      "a: T   b: S  c: E  ".toList := by
    decide +kernel
  exact ⟨_, _, _, rfl, rfl, rfl, hstrip.trans hblanked, hblanked, hsign, (hbounds 24 (by decide)).2,
    hskip, ⟨inner, hvalue, hcloses⟩, gap, taken, hspan, hgap, htaken, hlt⟩

end ModelGraph.DefaultValue
