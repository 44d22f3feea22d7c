import ModelGraph.Proofs.Document.Row
import ModelGraph.Proofs.Trivia.Stripping
import ModelGraph.Proofs.Written.DefaultValue

/-! # The spans of default values

A default value begins with its equals sign. If a bracket follows, the value ends with the bracket
that closes it; else it is a token, unless a colon follows the token: then the token is the name of
the next field, and only the blanks before it are taken. The recogniser of default values measures
this pattern (`measures_default`), so what is left of a body are the characters outside of these
spans, with a space for each span. -/

namespace ModelGraph

open Text Written

section Parting

variable {pattern : Pattern} {text span : List Char} {pieces before after : List Piece}

/-- The pieces of a text, written one after the other, are the text. -/
theorem Parted.flatMap_text (h : Parted pattern text pieces) :
    pieces.flatMap Piece.text = text := by
  induction h with
  | nil => rfl
  | span _ _ ih | kept _ _ ih =>
      rw [List.flatMap_cons, ih]
      rfl

/-- At each span of a parted text the pattern matches. -/
theorem Parted.pattern_of_split (h : Parted pattern text pieces)
    (hsplit : pieces = before ++ .span span :: after) :
    pattern span (after.flatMap Piece.text) := by
  induction h generalizing before with
  | nil => simp at hsplit
  | span hspan hrest ih =>
      rcases List.cons_eq_append_iff.1 hsplit with ⟨-, hafter⟩ | ⟨more, -, hmore⟩
      · obtain ⟨hsame, rfl⟩ := List.cons.inj hafter
        cases hsame
        rwa [hrest.flatMap_text]
      · exact ih hmore
  | kept _ _ ih =>
      rcases List.cons_eq_append_iff.1 hsplit with ⟨-, hafter⟩ | ⟨more, -, hmore⟩
      · cases (List.cons.inj hafter).1
      · exact ih hmore

end Parting

namespace DefaultValue

/-- The brackets that open a value. -/
def isOpening (c : Char) : Bool :=
  c = '\x7b' || c = '['

/-- The brackets that close a value. -/
def isClosing (c : Char) : Bool :=
  c = '\x7d' || c = ']'

/-- What a character adds to the number of open brackets. Braces and square brackets are not told
apart. -/
def turn (c : Char) : Int :=
  if isOpening c then 1 else if isClosing c then -1 else 0

/-- What a text adds to the number of open brackets. -/
def nesting : List Char → Int
  | [] => 0
  | c :: rest => turn c + nesting rest

/-- Behind so many open brackets, some are open all the way through the value, which ends with the
bracket that leaves none open, or else with the text. -/
structure Closes (depth : Int) (value rest : List Char) : Prop where
  inside : ∀ front, front <+: value → front ≠ value → 0 < depth + nesting front
  ends : depth + nesting value = 0 ∨ 0 < depth + nesting value ∧ rest = []

/-- A value that begins with a bracket, in front of a text. -/
inductive BracketedValue : List Char → List Char → Prop
  | intro {c : Char} {value rest : List Char} (hopening : isOpening c = true)
      (hcloses : Closes 1 value rest) : BracketedValue (c :: value) rest

/-- A text that begins with a gap and a token of a value, both as long as they can be, and with no
bracket that opens a value. -/
structure TokenValue (gap token rest : List Char) : Prop where
  spaces : ∀ c ∈ gap, isAsciiSpace c = true
  begins : ∀ c ∈ (token ++ rest).head?, isAsciiSpace c = false ∧ isOpening c = false
  chars : ∀ c ∈ token, isTokenChar c = true
  stops : ∀ c ∈ rest.head?, isTokenChar c = false

/-- The first character of a text that is no blank is a colon. -/
def BeforeColon (text : List Char) : Prop :=
  (trimStart text).head? = some ':'

/-- A word, as one that names a field is: characters of a token, none of them a blank or an equals
sign. -/
structure IsWord (text : List Char) : Prop where
  ne_nil : text ≠ []
  chars : ∀ c ∈ text, isTokenChar c = true
  solid : ∀ c ∈ text, isBlank c = false ∧ c ≠ '='

instance : DecidablePred BeforeColon := fun text =>
  inferInstanceAs (Decidable ((trimStart text).head? = some ':'))

/-- Default values: a value in brackets, a token, or nothing where the token is the name of the next
field. -/
inductive DefaultPattern : Pattern
  | bracketed {gap value rest : List Char} (hgap : ∀ c ∈ gap, isAsciiSpace c = true)
      (hvalue : BracketedValue value rest) : DefaultPattern ('=' :: (gap ++ value)) rest
  | token {gap token rest : List Char} (h : TokenValue gap token rest)
      (hcolon : ¬ BeforeColon rest) : DefaultPattern ('=' :: (gap ++ token)) rest
  | absent {gap token rest : List Char} (h : TokenValue gap token rest)
      (hcolon : BeforeColon rest) : DefaultPattern ('=' :: gap) (token ++ rest)

/-- What the span of a default value takes from the text that begins with it. A bracket behind the
equals sign is taken up to where it is closed. A word in front of a colon is taken only as a part of
a value in brackets. -/
structure TakesDefault (span rest : List Char) : Prop where
  begins : span.head? = some '='
  bracketed : ∀ gap c more, span ++ rest = '=' :: (gap ++ c :: more) →
    (∀ d ∈ gap, isAsciiSpace d = true) → isOpening c = true →
      ∃ value, span = '=' :: (gap ++ c :: value) ∧ Closes 1 value rest
  words : ∀ before word blanks after,
    span ++ rest = before ++ (word ++ (blanks ++ ':' :: after)) → IsWord word →
      (∀ c ∈ blanks, isBlank c = true) → before.length < span.length →
        ∃ gap value, span = '=' :: (gap ++ value) ∧ (∀ c ∈ gap, isAsciiSpace c = true) ∧
          BracketedValue value rest ∧ gap.length < before.length ∧
            before.length + word.length ≤ span.length

section Brackets

@[simp] theorem nesting_nil : nesting [] = 0 := rfl

@[simp] theorem nesting_cons (c : Char) (text : List Char) :
    nesting (c :: text) = turn c + nesting text := rfl

theorem nesting_append (first second : List Char) :
    nesting (first ++ second) = nesting first + nesting second := by
  induction first with
  | nil => simp
  | cons c first ih => rw [List.cons_append, nesting_cons, nesting_cons, ih, Int.add_assoc]

theorem turn_opening {c : Char} (h : isOpening c = true) : turn c = 1 :=
  if_pos h

theorem turn_closing {c : Char} (hopening : ¬ isOpening c = true) (h : isClosing c = true) :
    turn c = -1 := by
  rw [turn, if_neg hopening, if_pos h]

theorem turn_other {c : Char} (hopening : ¬ isOpening c = true) (hclosing : ¬ isClosing c = true) :
    turn c = 0 := by
  rw [turn, if_neg hopening, if_neg hclosing]

theorem neg_one_le_turn (c : Char) : -1 ≤ turn c := by
  rw [turn]
  split
  · omega
  · split <;> omega

theorem isTokenChar_of_turn_neg {c : Char} (h : turn c < 0) : isTokenChar c = false := by
  have hclosing : isClosing c = true := by
    by_contra hclosing
    rw [turn, if_neg hclosing] at h
    split at h <;> omega
  simp only [isClosing, Bool.or_eq_true, decide_eq_true_eq] at hclosing
  rcases hclosing with rfl | rfl <;> decide

theorem bracketedLength_eq (depth : Nat) (c : Char) (rest : List Char) :
    bracketedLength depth (c :: rest) =
      if isOpening c = true then bracketedLength (depth + 1) rest + 1
      else if isClosing c = true then
        if depth ≤ 1 then 1 else bracketedLength (depth - 1) rest + 1
      else bracketedLength depth rest + 1 := rfl

/-- One character of a value in brackets: if it leaves none open, the value ends with it. -/
theorem bracketedLength_cons {depth : Nat} (hdepth : 0 < depth) (c : Char) (rest : List Char) :
    bracketedLength depth (c :: rest) =
      if depth + turn c = 0 then 1 else bracketedLength (depth + turn c).toNat rest + 1 := by
  rw [bracketedLength_eq]
  split
  · next hopening =>
    have hopen : ¬ (depth : Int) + 1 = 0 := by omega
    have hdeeper : ((depth : Int) + 1).toNat = depth + 1 := by omega
    rw [turn_opening hopening, if_neg hopen, hdeeper]
  · next hopening =>
    split
    · next hclosing =>
      have hlast : (depth : Int) + -1 = 0 ↔ depth ≤ 1 := by omega
      have hshallower : ((depth : Int) + -1).toNat = depth - 1 := by omega
      simp only [turn_closing hopening hclosing, hlast, hshallower]
    · next hclosing =>
      have hopen : ¬ (depth : Int) = 0 := by omega
      rw [turn_other hopening hclosing, Int.add_zero, if_neg hopen, Int.toNat_natCast]

variable {depth : Int} {c : Char} {value rest : List Char}

theorem closes_nil (hdepth : 0 < depth) : Closes depth [] [] where
  inside front hfront hne := absurd (List.prefix_nil.1 hfront) hne
  ends := .inr ⟨by simpa using hdepth, rfl⟩

theorem closes_singleton (hdepth : 0 < depth) (hlast : depth + turn c = 0) (rest : List Char) :
    Closes depth [c] rest where
  inside front hfront hne := by
    rcases List.prefix_cons_iff.1 hfront with rfl | ⟨more, rfl, hmore⟩
    · simpa using hdepth
    · rw [List.prefix_nil.1 hmore] at hne
      exact absurd rfl hne
  ends := .inl (by simpa using hlast)

theorem Closes.cons (hdepth : 0 < depth) (h : Closes (depth + turn c) value rest) :
    Closes depth (c :: value) rest where
  inside front hfront hne := by
    rcases List.prefix_cons_iff.1 hfront with rfl | ⟨more, rfl, hmore⟩
    · simpa using hdepth
    · have hinside := h.inside more hmore fun heq => hne (congrArg (c :: ·) heq)
      rw [nesting_cons]
      omega
  ends := by
    rw [nesting_cons, ← Int.add_assoc]
    exact h.ends

/-- A value in brackets is walked up to where none is left open. -/
theorem exists_closes (text : List Char) {depth : Nat} (hdepth : 0 < depth) :
    ∃ value rest, text = value ++ rest ∧ bracketedLength depth text = value.length ∧
      Closes depth value rest := by
  induction text generalizing depth with
  | nil => exact ⟨[], [], rfl, rfl, closes_nil (by omega)⟩
  | cons c text ih =>
      have hopen : (0 : Int) < depth := by omega
      rw [bracketedLength_cons hdepth]
      by_cases hlast : (depth : Int) + turn c = 0
      · exact ⟨[c], text, rfl, if_pos hlast, closes_singleton hopen hlast text⟩
      · have hturn := neg_one_le_turn c
        have hinside : 0 < ((depth : Int) + turn c).toNat := by omega
        obtain ⟨value, rest, rfl, hlength, hcloses⟩ := ih hinside
        rw [Int.toNat_of_nonneg (by omega)] at hcloses
        refine ⟨c :: value, rest, rfl, ?_, hcloses.cons hopen⟩
        rw [if_neg hlast, hlength, List.length_cons]

/-- There is one way only to close a value. -/
theorem Closes.length_eq {other more : List Char} (h : Closes depth value rest)
    (h' : Closes depth other more) (heq : value ++ rest = other ++ more) :
    value.length = other.length := by
  -- of two values at the front of a text the shorter one ends in the middle of the longer one
  have hle : ∀ {first second rest more : List Char}, Closes depth first rest →
      Closes depth second more → first ++ rest = second ++ more →
        second.length ≤ first.length := by
    intro first second rest more h h' heq
    by_contra hlt
    have hprefix : first <+: second :=
      List.prefix_of_prefix_length_le ⟨rest, heq⟩ (List.prefix_append second more) (by omega)
    have hinside := h'.inside first hprefix fun hsame => hlt (by rw [hsame])
    rcases h.ends with hends | ⟨-, rfl⟩
    · omega
    · have hlength := congrArg List.length heq
      simp only [List.append_nil, List.length_append] at hlength
      omega
  exact Nat.le_antisymm (hle h' h heq.symm) (hle h h' heq)

end Brackets

section Length

variable {c : Char} {gap token value rest : List Char}

theorem isOpening_iff : isOpening c = true ↔ c = '\x7b' ∨ c = '[' := by
  rw [isOpening, Bool.or_eq_true, decide_eq_true_eq, decide_eq_true_eq]

theorem valueLength_bracket (hgap : ∀ c ∈ gap, isAsciiSpace c = true)
    (hopening : isOpening c = true) (rest : List Char) :
    valueLength (gap ++ c :: rest) = gap.length + (bracketedLength 1 rest + 1) := by
  have hbracket := isOpening_iff.1 hopening
  rw [valueLength_bracketed hgap hbracket, bracketedLength_open hbracket]

theorem TokenValue.valueLength_eq (h : TokenValue gap token rest) :
    valueLength (gap ++ (token ++ rest)) =
      if BeforeColon rest then gap.length else gap.length + token.length := by
  have hopen : ∀ c ∈ (token ++ rest).head?, ¬ (c = '\x7b' ∨ c = '[') := by
    intro c hc hbracket
    have hopening := (h.begins c hc).2
    rw [isOpening_iff.2 hbracket] at hopening
    cases hopening
  rw [valueLength_token h.spaces (fun c hc => (h.begins c hc).1) hopen,
    takeWhile_append_eq h.chars h.stops, dropWhile_append_eq h.chars h.stops]
  rfl

/-- Behind an equals sign stand a gap and a bracket, or a gap and a token, which may be empty. -/
theorem exists_value (text : List Char) :
    (∃ gap c rest, text = gap ++ c :: rest ∧ (∀ c ∈ gap, isAsciiSpace c = true) ∧
      isOpening c = true) ∨
    ∃ gap token rest, text = gap ++ (token ++ rest) ∧ TokenValue gap token rest := by
  obtain ⟨gap, core, rfl, hgap, hcore⟩ := Document.exists_front isAsciiSpace text
  by_cases hopening : ∃ c ∈ core.head?, isOpening c = true
  · obtain ⟨c, hc, hopening⟩ := hopening
    obtain ⟨rest, rfl⟩ := List.head?_eq_some_iff.1 hc
    exact .inl ⟨gap, c, rest, rfl, hgap, hopening⟩
  · obtain ⟨token, rest, rfl, htoken, hrest⟩ := Document.exists_front isTokenChar core
    refine .inr ⟨gap, token, rest, rfl, hgap, fun c hc => ⟨hcore c hc, ?_⟩, htoken, hrest⟩
    exact Bool.eq_false_iff.2 fun h => hopening ⟨c, hc, h⟩

/-- A default value is found as its pattern says. -/
theorem exists_pattern_of_default? {text : List Char} {n : Nat} (h : default? text = some n) :
    ∃ span rest, text = span ++ rest ∧ span.length = n ∧ DefaultPattern span rest := by
  rw [default?.eq_def] at h
  split at h
  · next text =>
    obtain rfl := Option.some.inj h
    rcases exists_value text with
      ⟨gap, c, text, rfl, hgap, hopening⟩ | ⟨gap, token, rest, rfl, hvalue⟩
    · obtain ⟨value, rest, rfl, hlength, hcloses⟩ := exists_closes text Nat.one_pos
      refine ⟨'=' :: (gap ++ c :: value), rest, by simp, ?_, .bracketed hgap ⟨hopening, hcloses⟩⟩
      rw [valueLength_bracket hgap hopening, hlength]
      simp
    · rw [hvalue.valueLength_eq]
      split
      · next hcolon =>
        exact ⟨'=' :: gap, token ++ rest, by simp, by simp, .absent hvalue hcolon⟩
      · next hcolon =>
        exact ⟨'=' :: (gap ++ token), rest, by simp, by simp, .token hvalue hcolon⟩
  · cases h

theorem default?_of_pattern {span rest : List Char} (h : DefaultPattern span rest) :
    default? (span ++ rest) = some span.length := by
  cases h with
  | @bracketed gap value _ hgap hvalue =>
      obtain @⟨c, value, _, hopening, hcloses⟩ := hvalue
      obtain ⟨other, more, heq, hlength, hother⟩ := exists_closes (value ++ rest) Nat.one_pos
      have hsplit : '=' :: (gap ++ c :: value) ++ rest = '=' :: (gap ++ c :: (value ++ rest)) := by
        simp
      rw [hsplit, default?, valueLength_bracket hgap hopening, hlength,
        ← hcloses.length_eq hother heq]
      simp
  | token h hcolon =>
      rw [List.cons_append, List.append_assoc, default?, h.valueLength_eq, if_neg hcolon]
      simp
  | absent h hcolon =>
      rw [List.cons_append, default?, h.valueLength_eq, if_pos hcolon]
      simp

/-- Default values are found as their pattern says. -/
theorem measures_default : Measures default? DefaultPattern where
  iff text n := by
    constructor
    · exact exists_pattern_of_default?
    · rintro ⟨span, rest, rfl, rfl, h⟩
      exact default?_of_pattern h
  ne_nil span rest h := by
    cases h <;> exact List.cons_ne_nil _ _

end Length

section Taking

variable {gap before word blanks after value span rest : List Char}

/-- No word begins in front of the value. -/
theorem IsWord.gap_lt (hword : IsWord word) (hgap : ∀ c ∈ gap, isAsciiSpace c = true)
    (heq : '=' :: (gap ++ rest) = before ++ (word ++ after)) : gap.length < before.length := by
  by_contra hle
  obtain ⟨c, more, rfl⟩ := List.exists_cons_of_ne_nil hword.ne_nil
  have hlt : before.length < ('=' :: gap).length := by
    rw [List.length_cons]
    omega
  have hat : ('=' :: gap)[before.length]? = some c := by
    rw [← List.getElem?_append_left hlt, List.cons_append, heq]
    simp
  obtain ⟨hblank, hsign⟩ := hword.solid c List.mem_cons_self
  rcases List.mem_cons.1 (List.mem_of_getElem? hat) with rfl | hmem
  · exact hsign rfl
  · rw [isBlank_of_isAsciiSpace (hgap c hmem)] at hblank
    cases hblank

/-- A value in brackets ends with the text, or with a bracket. -/
theorem BracketedValue.ends (h : BracketedValue value rest) :
    rest = [] ∨ ∃ c ∈ value.getLast?, isTokenChar c = false := by
  obtain @⟨first, inner, _, _, hcloses⟩ := h
  rcases hcloses.ends with hends | ⟨-, rfl⟩
  · rcases List.eq_nil_or_concat' inner with rfl | ⟨init, c, rfl⟩
    · cases hends
    · have hinside := hcloses.inside init (List.prefix_append init [c]) (by simp)
      have hturn : turn c < 0 := by
        rw [nesting_append] at hends
        simp only [nesting_cons, nesting_nil] at hends
        omega
      refine .inr ⟨c, ?_, isTokenChar_of_turn_neg hturn⟩
      rw [← List.cons_append, List.getLast?_concat]
      rfl
  · exact .inl rfl

/-- Of two parts that begin a text the shorter one begins the longer one. -/
theorem exists_eq_append {first rest front tail : List Char} (heq : first ++ rest = front ++ tail)
    (hle : front.length ≤ first.length) :
    ∃ middle, first = front ++ middle ∧ tail = middle ++ rest := by
  rcases List.append_eq_append_iff.1 heq with ⟨more, rfl, hrest⟩ | hsplit
  · rw [List.length_append] at hle
    obtain rfl : more = [] := List.length_eq_zero_iff.1 (by omega)
    exact ⟨[], (List.append_nil _).symm.trans (List.append_nil _).symm, hrest.symm⟩
  · exact hsplit

/-- A word that begins in a value in brackets is a part of it. -/
theorem BracketedValue.length_le (h : BracketedValue value rest) (hword : IsWord word)
    (lead : List Char) (heq : lead ++ value ++ rest = before ++ (word ++ after))
    (hbegins : before.length < (lead ++ value).length) :
    before.length + word.length ≤ (lead ++ value).length := by
  by_contra hlt
  obtain ⟨front, hfront, hbehind⟩ := exists_eq_append heq hbegins.le
  rw [hfront, List.length_append] at hbegins hlt
  obtain ⟨more, rfl, rfl⟩ := exists_eq_append hbehind (by omega)
  rw [List.length_append] at hlt
  rcases h.ends with hends | ⟨c, hlast, hc⟩
  · rw [(List.append_eq_nil_iff.1 hends).1, List.length_nil] at hlt
    omega
  · -- the word goes on behind the value, so it has the bracket that ends it
    have hvalue : (lead ++ value).getLast? = some c := by
      rw [List.getLast?_append, Option.mem_def.1 hlast, Option.some_or]
    have hne : front ≠ [] := by
      rintro rfl
      simp at hbegins
    rw [hfront, List.getLast?_append_of_ne_nil before hne] at hvalue
    have hchar := hword.chars c (List.mem_append_left more (List.mem_of_getLast? hvalue))
    rw [hc] at hchar
    cases hchar

/-- A word in front of a colon is the whole token that it begins in. -/
theorem TokenValue.beforeColon {token : List Char} (h : TokenValue gap token rest)
    (hword : IsWord word) (hblanks : ∀ c ∈ blanks, isBlank c = true)
    (heq : '=' :: (gap ++ token) ++ rest = before ++ (word ++ (blanks ++ ':' :: after)))
    (hbegins : before.length < ('=' :: (gap ++ token)).length) : BeforeColon rest := by
  have hcolon : isTokenChar ':' = false := by decide
  rw [List.cons_append, List.append_assoc] at heq
  have hgap := hword.gap_lt h.spaces heq
  rw [← List.cons_append] at heq
  obtain ⟨first, rfl, htoken⟩ := exists_eq_append heq.symm hgap
  simp only [List.length_cons, List.length_append] at hbegins
  obtain ⟨second, rfl, hsecond⟩ := exists_eq_append htoken (by omega)
  rw [List.length_append] at hbegins
  -- the word neither goes on behind the token nor does the token go on up to the colon
  by_cases hlong : second.length < word.length
  · obtain ⟨more, rfl, rfl⟩ := exists_eq_append hsecond hlong.le
    obtain ⟨c, hc⟩ : ∃ c, c ∈ more.head? := by
      cases more with
      | nil => simp at hlong
      | cons c more => exact ⟨c, rfl⟩
    have hstops := h.stops c (by rw [List.head?_append, Option.mem_def.1 hc]; rfl)
    rw [hword.chars c (List.mem_append_right second (List.mem_of_mem_head? hc))] at hstops
    cases hstops
  · obtain ⟨third, rfl, hthird⟩ := exists_eq_append hsecond.symm (by omega)
    by_cases hshort : third.length ≤ blanks.length
    · obtain ⟨last, rfl, rfl⟩ := exists_eq_append hthird hshort
      have hend : ∀ c ∈ (':' :: after).head?, isBlank c = false := by
        rintro _ ⟨⟩
        decide
      rw [BeforeColon, trimStart,
        dropWhile_append_eq (fun c hc => hblanks c (List.mem_append_right third hc)) hend]
      rfl
    · obtain ⟨last, rfl, hlast⟩ := exists_eq_append hthird.symm (by omega)
      cases last with
      | nil => simp at hshort
      | cons c last =>
          obtain ⟨rfl, -⟩ := List.cons.inj hlast
          have hchar := h.chars ':' (by simp)
          rw [hcolon] at hchar
          cases hchar

/-- The span of a default value takes a value in brackets whole, and no other word that stands
before a colon. -/
theorem DefaultPattern.takesDefault (h : DefaultPattern span rest) : TakesDefault span rest where
  begins := by cases h <;> rfl
  bracketed inner c more heq hinner hopening := by
    obtain ⟨value, behind, rfl, hlength, hcloses⟩ := exists_closes more Nat.one_pos
    have hspan := default?_of_pattern h
    rw [heq, default?, valueLength_bracket hinner hopening, hlength, Option.some.injEq] at hspan
    have hsplit : span ++ rest = '=' :: (inner ++ c :: value) ++ behind := by
      rw [heq]
      simp
    have hsame : span.length = ('=' :: (inner ++ c :: value)).length := by
      simp only [← hspan, List.length_cons, List.length_append]
    obtain ⟨hvalue, rfl⟩ := List.append_inj hsplit hsame
    exact ⟨value, hvalue, hcloses⟩
  words before word blanks after heq hword hblanks hbegins := by
    cases h with
    | @bracketed gap value _ hgap hvalue =>
        refine ⟨gap, value, rfl, hgap, hvalue, ?_, hvalue.length_le hword ('=' :: gap) heq hbegins⟩
        rw [List.cons_append, List.append_assoc] at heq
        exact hword.gap_lt hgap heq
    | token h hcolon => exact absurd (h.beforeColon hword hblanks heq hbegins) hcolon
    | @absent gap _ _ h _ =>
        have hgap := hword.gap_lt h.spaces heq
        rw [List.length_cons] at hbegins
        omega

end Taking

end DefaultValue

end ModelGraph
