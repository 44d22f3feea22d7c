import ModelGraph.Kind
import ModelGraph.Proofs.Document.NormalChunk

/-! # The chunk of a definition

The definition of an entity, followed by a blank line and another declaration, is one chunk
(`head?_chunks_of_definition`). Between its keyword and its body it may say anything but braces and
the keywords of declarations: a reader takes a keyword for the next declaration and a brace for the
body wherever they stand outside literals, also among the arguments of a directive. -/

namespace ModelGraph.Document

open Text Written

/-- An opening or closing brace. -/
def Lexeme.isBrace : Lexeme → Bool
  | single c => c == '\x7b' || c == '\x7d'
  | _ => false

/-- A word that opens a declaration. -/
def Lexeme.isKeyword : Lexeme → Bool
  | word text => keywords.contains (String.ofList text)
  | _ => false

/-- Lexemes in which braces pair. -/
inductive Balanced : List Lexeme → Prop
  | nil : Balanced []
  | cons {lexeme : Lexeme} {row : List Lexeme} (hbrace : lexeme.isBrace = false)
      (hrow : Balanced row) : Balanced (lexeme :: row)
  | braces {inner row : List Lexeme} (hinner : Balanced inner) (hrow : Balanced row) :
      Balanced (.single '\x7b' :: (inner ++ .single '\x7d' :: row))

/-- No lexeme of the name, the interfaces, the directives or the members of a definition is a brace
or a keyword. -/
def Header (row : List Lexeme) : Prop :=
  ∀ lexeme ∈ row, lexeme.isBrace = false ∧ lexeme.isKeyword = false

/-- The characters of a line that counts as blank. -/
def lineSpaces : List Char :=
  [' ', '\t', '\r']

/-- Somewhere between two ends of line there are only spaces. -/
def HasBlankLine (row : List Lexeme) : Prop :=
  ∃ (before : List Lexeme) (spaces : List Char) (after : List Lexeme),
    (∀ c ∈ spaces, c ∈ lineSpaces) ∧
      row = before ++ .single '\n' :: (spaces.map .single ++ .single '\n' :: after)

/-- The last lexeme is neither a blank nor a comment. -/
def EndsInToken (row : List Lexeme) : Prop :=
  ∀ lexeme ∈ row.getLast?, lexeme.isGap = false ∧ lexeme.isComment = false

/-- The lexemes of a definition: keyword, header, and a body in braces, which may be missing. A
union has no body, and it must not have blank lines. -/
inductive Definition : List Lexeme → Prop
  | bodyless {kind : Kind} {header : List Lexeme} (hkind : kind ≠ .union) (hheader : Header header)
      (hlast : EndsInToken header) : Definition (.word kind.keyword.toList :: header)
  | braced {kind : Kind} {header body : List Lexeme} (hkind : kind ≠ .union)
      (hheader : Header header) (hbody : Balanced body) :
      Definition
        (.word kind.keyword.toList :: (header ++ .single '\x7b' :: (body ++ [.single '\x7d'])))
  | union {header : List Lexeme} (hheader : Header header) (hlines : ¬ HasBlankLine header)
      (hlast : EndsInToken header) : Definition (.word Kind.union.keyword.toList :: header)

/-- What may stand before a definition and belongs to no chunk, such as blanks, comments and a
description. A last comment would run on into the definition. -/
structure Leading (row : List Lexeme) : Prop where
  outside : ∀ lexeme ∈ row, lexeme.opens = false
  last : ∀ lexeme ∈ row.getLast?, lexeme.isComment = false

/-- At least one blank line, and nothing else. -/
structure Separates (text : List Char) : Prop where
  blank : ∀ c ∈ text, c = '\n' ∨ c ∈ lineSpaces
  lines : 2 ≤ text.count '\n'

section Run

variable {opened : Opened} {more : List Lexeme}

/-- Read several lexemes of a declaration. -/
def Opened.pushAll (opened : Opened) (row : List Lexeme) : Opened :=
  { opened with backwards := row.reverse ++ opened.backwards }

@[simp] theorem Opened.row_pushAll (opened : Opened) (row : List Lexeme) :
    (opened.pushAll row).row = opened.row ++ row := by
  simp [pushAll, Opened.row]

@[simp] theorem Opened.pushAll_nil (opened : Opened) : opened.pushAll [] = opened := rfl

@[simp] theorem Opened.pushAll_pushAll (opened : Opened) (first second : List Lexeme) :
    (opened.pushAll first).pushAll second = opened.pushAll (first ++ second) := by
  simp [pushAll]

theorem Opened.pushAll_push (opened : Opened) (lexeme : Lexeme) (row : List Lexeme) :
    (opened.push lexeme).pushAll row = opened.pushAll (lexeme :: row) := by
  simp [pushAll, push]

/-- A lexeme that ends nothing leaves the reader where it is. -/
theorem declarations_of_pass {reader : Reader} {lexeme : Lexeme}
    (h : reader.step more lexeme = reader.pass lexeme) :
    reader.declarations (lexeme :: more) = (reader.pass lexeme).2.declarations more := by
  rw [Reader.declarations, h]
  rfl

/-- A character other than a brace ends nothing, unless it is an end of line before a blank one. -/
theorem step_single {depth : Nat} {c : Char} {ahead : List Lexeme}
    (hbrace : (Lexeme.single c).isBrace = false)
    (hline : c = '\n' → depth = 0 → opened.endsAtBlankLine = true → blankLineAhead ahead = false) :
    Reader.step ⟨some opened, depth⟩ ahead (.single c) =
      Reader.pass ⟨some opened, depth⟩ (.single c) := by
  have hc : c ≠ '\x7b' ∧ c ≠ '\x7d' := by simpa [Lexeme.isBrace] using hbrace
  rw [Reader.step, if_neg hc.1, if_neg hc.2]
  split
  · next hc =>
    subst hc
    refine if_neg fun hall => ?_
    simp only [Bool.and_eq_true, decide_eq_true_eq] at hall
    obtain ⟨⟨⟨hdepth, -⟩, hends⟩, hahead⟩ := hall
    rw [hline rfl hdepth hends] at hahead
    cases hahead
  · rfl

/-- Inside braces only braces matter. -/
theorem step_inside {depth : Nat} {lexeme : Lexeme} (hbrace : lexeme.isBrace = false)
    (ahead : List Lexeme) :
    Reader.step ⟨some opened, depth + 1⟩ ahead lexeme =
      Reader.pass ⟨some opened, depth + 1⟩ lexeme := by
  cases lexeme with
  | comment | quoted => rfl
  | word text => rw [Reader.step, Reader.word, if_pos (Nat.succ_pos depth)]
  | single c => exact step_single hbrace fun _ hdepth => absurd hdepth (Nat.succ_ne_zero depth)

theorem declarations_openBrace {depth : Nat} :
    Reader.declarations ⟨some opened, depth⟩ (.single '\x7b' :: more) =
      Reader.declarations
        ⟨some { opened.push (.single '\x7b') with braced := true }, depth + 1⟩ more := rfl

theorem declarations_closeBrace_inside {depth : Nat} :
    Reader.declarations ⟨some opened, depth + 2⟩ (.single '\x7d' :: more) =
      Reader.declarations ⟨some (opened.push (.single '\x7d')), depth + 1⟩ more := rfl

/-- The brace that leaves all braces ends the declaration. -/
theorem declarations_closeBrace (hbraced : opened.braced = true) :
    Reader.declarations ⟨some opened, 1⟩ (.single '\x7d' :: more) =
      opened.push (.single '\x7d') :: Reader.declarations ⟨none, 0⟩ more := by
  have hstep : Reader.step ⟨some opened, 1⟩ more (.single '\x7d') =
      (some (opened.push (.single '\x7d')), ⟨none, 0⟩) := by
    have hpush : (opened.push (.single '\x7d')).braced = true := hbraced
    simp [Reader.step, Reader.closeBrace, hpush]
  rw [Reader.declarations, hstep]

/-- The body of a definition is read up to the brace that closes it. -/
theorem declarations_balanced {row : List Lexeme} (h : Balanced row) {depth : Nat}
    (hbraced : opened.braced = true) :
    Reader.declarations ⟨some opened, depth + 1⟩ (row ++ more) =
      Reader.declarations ⟨some (opened.pushAll row), depth + 1⟩ more := by
  induction h generalizing opened depth more with
  | nil => rfl
  | @cons lexeme row hbrace _ ih =>
      have hpush : (opened.push lexeme).braced = true := hbraced
      rw [List.cons_append, declarations_of_pass (step_inside hbrace (row ++ more)),
        ← opened.pushAll_push, ← ih hpush]
      rfl
  | @braces inner row _ _ ihinner ihrow =>
      have hopen : { opened.push (.single '\x7b') with braced := true } =
          opened.push (.single '\x7b') := by
        rw [← hbraced]
        rfl
      have hinner : (opened.push (.single '\x7b')).braced = true := hbraced
      have hrow : (((opened.push (.single '\x7b')).pushAll inner).push
          (.single '\x7d')).braced = true := hbraced
      rw [List.cons_append, List.append_assoc, List.cons_append, declarations_openBrace, hopen,
        ihinner hinner, declarations_closeBrace_inside, ihrow hrow]
      simp only [Opened.pushAll_push, Opened.pushAll_pushAll, List.cons_append]

/-- A header goes on to its end: no word of it opens a declaration, and if a blank line would end
it, it has none. -/
theorem declarations_header {row : List Lexeme} (h : Header row) (more : List Lexeme)
    (hword : opened.awaitsWord = false)
    (hlines : opened.endsAtBlankLine = true → ∀ before after,
      row = before ++ .single '\n' :: after → blankLineAhead (after ++ more) = false) :
    Reader.declarations ⟨some opened, 0⟩ (row ++ more) =
      Reader.declarations ⟨some (opened.pushAll row), 0⟩ more := by
  induction row generalizing opened with
  | nil => rfl
  | cons lexeme row ih =>
      obtain ⟨hbrace, hkeyword⟩ := h lexeme List.mem_cons_self
      have hstep : Reader.step ⟨some opened, 0⟩ (row ++ more) lexeme =
          Reader.pass ⟨some opened, 0⟩ lexeme := by
        cases lexeme with
        | comment | quoted => rfl
        | word text =>
            have hno : keywords.contains (String.ofList text) = false := hkeyword
            simp only [Reader.step, Reader.word, hword, hno]
            rfl
        | single c =>
            refine step_single hbrace ?_
            rintro rfl - hends
            exact hlines hends [] row rfl
      have hrow := @ih (opened.push lexeme)
        (fun other hmem => h other (List.mem_cons_of_mem lexeme hmem)) hword
        fun hends before after heq => hlines hends (lexeme :: before) after (by rw [heq]; rfl)
      rw [List.cons_append, declarations_of_pass hstep, ← opened.pushAll_push, ← hrow]
      rfl

/-- The next keyword ends a declaration without braces. -/
theorem declarations_keyword {word : List Char} (hword : opened.awaitsWord = false)
    (hkeyword : String.ofList word ∈ keywords) :
    Reader.declarations ⟨some opened, 0⟩ (.word word :: more) =
      opened :: Reader.declarations ⟨some (.atWord word), 0⟩ more := by
  have hyes : keywords.contains (String.ofList word) = true := List.contains_iff_mem.2 hkeyword
  have hstep : Reader.step ⟨some opened, 0⟩ more (.word word) =
      (some opened, ⟨some (.atWord word), 0⟩) := by
    simp only [Reader.step, Reader.word, hword, hyes]
    rfl
  rw [Reader.declarations, hstep]

/-- What stands before a definition opens no declaration. -/
theorem declarations_leading {row : List Lexeme} (h : Leading row) :
    Reader.start.declarations (row ++ more) = Reader.start.declarations more := by
  have houtside := h.outside
  clear h
  induction row with
  | nil => rfl
  | cons lexeme row ih =>
      have hrow := ih fun other hmem => houtside other (List.mem_cons_of_mem lexeme hmem)
      rw [← hrow, List.cons_append, Reader.declarations]
      have hopens := houtside lexeme List.mem_cons_self
      cases lexeme with
      | comment | quoted => rfl
      | word => cases hopens
      | single c =>
          have hstep : Reader.start.step (row ++ more) (.single c) = (none, Reader.start) := by
            have hopen : c ≠ '\x7b' := by simpa [Lexeme.opens] using hopens
            rw [Reader.step, if_neg hopen]
            split
            · rfl
            · split <;> rfl
          rw [hstep]

end Run

section Gap

variable {gap : List Char} {more : List Lexeme}

theorem isBlank_of_mem_lineSpaces {c : Char} (h : c ∈ lineSpaces) : isBlank c = true := by
  simp only [lineSpaces, List.mem_cons, List.not_mem_nil, or_false] at h
  rcases h with rfl | rfl | rfl <;> decide

theorem isBrace_of_isBlank {c : Char} (h : isBlank c = true) :
    (Lexeme.single c).isBrace = false := by
  refine Bool.eq_false_iff.2 fun hbrace => ?_
  simp only [Lexeme.isBrace, Bool.or_eq_true, beq_iff_eq] at hbrace
  rcases hbrace with rfl | rfl <;> exact absurd h (by decide)

theorem blankLineAhead_space {c : Char} (h : c ∈ lineSpaces) :
    blankLineAhead (.single c :: more) = blankLineAhead more := by
  simp only [lineSpaces, List.mem_cons, List.not_mem_nil, or_false] at h
  rcases h with rfl | rfl | rfl <;> rfl

theorem isBlank_of_separates (h : Separates gap) {c : Char} (hc : c ∈ gap) : isBlank c = true := by
  rcases h.blank c hc with rfl | hc
  · decide
  · exact isBlank_of_mem_lineSpaces hc

/-- An end of line among blanks leaves the rest of its line blank. -/
theorem blankLineAhead_gap (h : ∀ c ∈ gap, c = '\n' ∨ c ∈ lineSpaces) (hline : '\n' ∈ gap) :
    blankLineAhead (gap.map .single ++ more) = true := by
  induction gap with
  | nil => cases hline
  | cons c gap ih =>
      rw [List.map_cons, List.cons_append]
      rcases h c List.mem_cons_self with rfl | hc
      · rfl
      · rw [blankLineAhead_space hc]
        refine ih (fun d hd => h d (List.mem_cons_of_mem c hd)) ?_
        rcases List.mem_cons.1 hline with rfl | hline
        · exact absurd hc (by decide)
        · exact hline

/-- The first blank line ends a declaration without braces, if blank lines do. -/
theorem exists_declarations_gap {opened : Opened} (hbraced : opened.braced = false)
    (hends : opened.endsAtBlankLine = true) (h : Separates gap)
    (more : List Lexeme) :
    ∃ (blanks : List Char) (others : List Opened), (∀ c ∈ blanks, isBlank c = true) ∧
      Reader.declarations ⟨some opened, 0⟩ (gap.map .single ++ more) =
        opened.pushAll (blanks.map .single) :: others := by
  obtain ⟨hblank, hlines⟩ := h
  induction gap generalizing opened with
  | nil => cases hlines
  | cons c gap ih =>
      have hgap : ∀ d ∈ gap, d = '\n' ∨ d ∈ lineSpaces :=
        fun d hd => hblank d (List.mem_cons_of_mem c hd)
      rcases hblank c List.mem_cons_self with rfl | hc
      · have hline : '\n' ∈ gap := by
          rw [List.count_cons_self] at hlines
          exact List.count_pos_iff.1 (by omega)
        have hstep : Reader.step ⟨some opened, 0⟩ (gap.map .single ++ more) (.single '\n') =
            (some opened, ⟨none, 0⟩) := by
          simp [Reader.step, Reader.newline, hbraced, hends, blankLineAhead_gap hgap hline]
        refine ⟨[], Reader.declarations ⟨none, 0⟩ (gap.map .single ++ more), by simp, ?_⟩
        rw [List.map_cons, List.cons_append, Reader.declarations, hstep]
        rfl
      · have hne : c ≠ '\n' := by
          rintro rfl
          exact absurd hc (by decide)
        have hstep : Reader.step ⟨some opened, 0⟩ (gap.map .single ++ more) (.single c) =
            Reader.pass ⟨some opened, 0⟩ (.single c) := by
          exact step_single (isBrace_of_isBlank (isBlank_of_mem_lineSpaces hc))
            fun hline => absurd hline hne
        have hcount : 2 ≤ gap.count '\n' := by
          rwa [List.count_cons_of_ne hne] at hlines
        obtain ⟨blanks, others, hblanks, hrest⟩ :=
          @ih (opened.push (.single c)) hbraced hends hgap hcount
        refine ⟨c :: blanks, others, ?_, ?_⟩
        · intro d hd
          rcases List.mem_cons.1 hd with rfl | hd
          · exact isBlank_of_mem_lineSpaces hc
          · exact hblanks d hd
        · rw [List.map_cons, List.cons_append, declarations_of_pass hstep, List.map_cons,
            ← opened.pushAll_push, ← hrest]
          rfl

theorem proper_single_of_isBlank {c : Char} (h : isBlank c = true) : (Lexeme.single c).Proper := by
  refine ⟨?_, ?_, ?_⟩
  · rintro rfl
    exact absurd h (by decide)
  · rintro rfl
    exact absurd h (by decide)
  · refine Bool.eq_false_iff.2 fun hstart => ?_
    rw [isBlank_of_isIdentRest (isIdentRest_of_isIdentStart hstart)] at h
    cases h

theorem lexemes_gap (h : ∀ c ∈ gap, isBlank c = true) (rest : List Char) :
    lexemes (gap ++ rest) = gap.map .single ++ lexemes rest := by
  induction gap with
  | nil => rfl
  | cons c gap ih =>
      have hproper := proper_single_of_isBlank (h c List.mem_cons_self)
      have hends : (Lexeme.single c).Ends (gap ++ rest) := fun _ _ => trivial
      have hfirst := lexemes_text_append hproper hends
      have hrest := ih fun d hd => h d (List.mem_cons_of_mem c hd)
      rw [List.cons_append, List.map_cons, List.cons_append, ← hrest]
      exact hfirst

end Gap

section First

variable {row header : List Lexeme}

theorem EndsInToken.cons_word (h : EndsInToken row) (word : List Char) :
    EndsInToken (.word word :: row) := by
  cases row with
  | nil =>
      rintro _ ⟨⟩
      exact ⟨rfl, rfl⟩
  | cons lexeme row => exact h

theorem endsInToken_concat_single {c : Char} (hc : isBlank c = false) (row : List Lexeme) :
    EndsInToken (row ++ [.single c]) := by
  intro lexeme hlexeme
  rw [List.getLast?_concat] at hlexeme
  cases hlexeme
  exact ⟨hc, rfl⟩

/-- A definition ends in a token. -/
theorem Definition.endsInToken (h : Definition row) : EndsInToken row := by
  cases h with
  | bodyless _ _ hlast => exact hlast.cons_word _
  | @braced kind header body =>
      have hconcat := endsInToken_concat_single (c := '\x7d') (by decide)
        (.word kind.keyword.toList :: (header ++ .single '\x7b' :: body))
      simpa using hconcat
  | union _ _ hlast => exact hlast.cons_word _

theorem stops_written (hproper : ∀ lexeme ∈ row, lexeme.Proper) (hlast : EndsInToken row) :
    Stops (written row) := by
  rcases List.eq_nil_or_concat' row with rfl | ⟨front, last, rfl⟩
  · exact stops_nil
  · obtain ⟨hgap, hcomment⟩ := hlast last List.getLast?_concat
    obtain ⟨init, c, htext, hc⟩ := exists_text_eq_concat (hproper last (by simp)) hgap hcomment
    intro d hd
    have hwritten : written (front ++ [last]) = written front ++ init ++ [c] := by
      simp [written, htext]
    rw [hwritten, List.getLast?_concat] at hd
    cases hd
    exact hc

/-- In a row without blank lines that ends in a token, a token follows every end of line. -/
theorem blankLineAhead_of_not_hasBlankLine (hlines : ¬ HasBlankLine row) (hlast : EndsInToken row)
    {before after : List Lexeme} (hrow : row = before ++ .single '\n' :: after)
    (more : List Lexeme) : blankLineAhead (after ++ more) = false := by
  -- spaces move from the front of the row ahead to those already seen on the line
  suffices h : ∀ spaces : List Char, (∀ c ∈ spaces, c ∈ lineSpaces) →
      row = before ++ .single '\n' :: (spaces.map .single ++ after) →
      blankLineAhead (after ++ more) = false from h [] (by simp) hrow
  clear hrow
  induction after with
  | nil =>
      intro spaces hspaces hrow
      obtain ⟨front, c, hconcat, hc⟩ :
          ∃ front c, row = front ++ [.single c] ∧ isBlank c = true := by
        rcases List.eq_nil_or_concat' spaces with rfl | ⟨init, c, rfl⟩
        · exact ⟨before, '\n', by simpa using hrow, by decide⟩
        · refine ⟨before ++ .single '\n' :: init.map .single, c, by simpa using hrow, ?_⟩
          exact isBlank_of_mem_lineSpaces (hspaces c (by simp))
      have hgap := (hlast (.single c) (by rw [hconcat, List.getLast?_concat]; rfl)).1
      rw [Lexeme.isGap, hc] at hgap
      cases hgap
  | cons lexeme after ih =>
      intro spaces hspaces hrow
      cases lexeme with
      | comment | quoted | word => rfl
      | single c =>
          by_cases hc : c ∈ lineSpaces
          · rw [List.cons_append, blankLineAhead_space hc]
            refine ih (spaces ++ [c]) ?_ (by simpa using hrow)
            intro d hd
            rcases List.mem_append.1 hd with hd | hd
            · exact hspaces d hd
            · rwa [List.mem_singleton.1 hd]
          · have hline : c ≠ '\n' := by
              rintro rfl
              exact hlines ⟨before, spaces, after, hspaces, hrow⟩
            simp only [lineSpaces, List.mem_cons, List.not_mem_nil, or_false, not_or] at hc
            simp [blankLineAhead, hline, hc]

theorem atWord_keyword (kind : Kind) :
    (Opened.atWord kind.keyword.toList).awaitsWord = false ∧
      (Opened.atWord kind.keyword.toList).braced = false ∧
      ((Opened.atWord kind.keyword.toList).endsAtBlankLine = true ↔ kind = .union) := by
  cases kind <;> decide

@[simp] theorem row_atWord (word : List Char) : (Opened.atWord word).row = [.word word] := rfl

theorem header_gap {gap : List Char} (h : ∀ c ∈ gap, isBlank c = true) :
    Header (gap.map .single) := by
  intro lexeme hmem
  obtain ⟨c, hc, rfl⟩ := List.mem_map.1 hmem
  exact ⟨isBrace_of_isBlank (h c hc), rfl⟩

theorem Header.append {first second : List Lexeme} (hfirst : Header first)
    (hsecond : Header second) : Header (first ++ second) := by
  intro lexeme hmem
  rcases List.mem_append.1 hmem with hmem | hmem
  · exact hfirst lexeme hmem
  · exact hsecond lexeme hmem

theorem declarations_start (word : List Char) (more : List Lexeme) :
    Reader.start.declarations (.word word :: more) =
      Reader.declarations ⟨some (.atWord word), 0⟩ more := rfl

/-- The first declaration that a reader takes has the lexemes of the definition, and blanks. -/
theorem Definition.exists_first (h : Definition row) {gap : List Char} (hgap : Separates gap)
    {word : List Char} (hword : String.ofList word ∈ keywords) (more : List Lexeme) :
    ∃ (opened : Opened) (blanks : List Char) (others : List Opened),
      (∀ c ∈ blanks, isBlank c = true) ∧ opened.row = row ++ blanks.map .single ∧
      Reader.start.declarations (row ++ (gap.map .single ++ .word word :: more)) =
        opened :: others := by
  have hblank : ∀ c ∈ gap, isBlank c = true := fun c hc => isBlank_of_separates hgap hc
  cases h with
  | @bodyless kind header hkind hheader _ =>
      obtain ⟨hawaits, -, hends⟩ := atWord_keyword kind
      have hread := declarations_header (hheader.append (header_gap hblank)) (.word word :: more)
        hawaits fun hunion => absurd (hends.1 hunion) hkind
      have hpushed : ((Opened.atWord kind.keyword.toList).pushAll
          (header ++ gap.map .single)).awaitsWord = false := hawaits
      rw [declarations_keyword hpushed hword, List.append_assoc] at hread
      rw [List.cons_append, declarations_start, hread]
      exact ⟨_, gap, _, hblank, by simp, rfl⟩
  | @braced kind header body hkind hheader hbody =>
      obtain ⟨hawaits, -, hends⟩ := atWord_keyword kind
      have hread := declarations_header hheader (.single '\x7b' :: (body ++ .single '\x7d' ::
        (gap.map .single ++ .word word :: more))) hawaits
        fun hunion => absurd (hends.1 hunion) hkind
      rw [declarations_openBrace, declarations_balanced hbody rfl, declarations_closeBrace rfl]
        at hread
      have hsplit : .word kind.keyword.toList ::
            (header ++ .single '\x7b' :: (body ++ [.single '\x7d'])) ++
              (gap.map .single ++ .word word :: more) =
          .word kind.keyword.toList :: (header ++ .single '\x7b' :: (body ++ .single '\x7d' ::
            (gap.map .single ++ .word word :: more))) := by simp
      rw [hsplit, declarations_start, hread]
      refine ⟨_, [], _, by simp, ?_, rfl⟩
      simp [Opened.row, Opened.push, Opened.pushAll, Opened.atWord]
  | @union header hheader hlines hlast =>
      obtain ⟨hawaits, hbraced, hends⟩ := atWord_keyword .union
      have hread := declarations_header hheader (gap.map .single ++ .word word :: more) hawaits
        fun _ before after hrow =>
          blankLineAhead_of_not_hasBlankLine hlines hlast hrow _
      have hpushed : ((Opened.atWord Kind.union.keyword.toList).pushAll header).braced = false :=
        hbraced
      obtain ⟨blanks, others, hblanks, hgapread⟩ :=
        exists_declarations_gap hpushed (hends.2 rfl) hgap (.word word :: more)
      rw [hgapread] at hread
      rw [List.cons_append, declarations_start, hread]
      exact ⟨_, blanks, others, hblanks, by simp, rfl⟩

/-- Trimming drops the blanks behind a definition. -/
theorem chunk_of_row_eq {opened : Opened} {blanks : List Char} {c : Char} {more : List Char}
    (hwritten : written row = c :: more) (hc : isBlank c = false) (hstops : Stops (written row))
    (hblanks : ∀ c ∈ blanks, isBlank c = true) (hrow : opened.row = row ++ blanks.map .single) :
    opened.chunk = written row := by
  have htext : written opened.row = written row ++ blanks := by
    simp [hrow, written, List.flatMap_map, Lexeme.text]
  have hbegins : Begins (written row ++ blanks) := by
    rw [hwritten]
    rintro _ ⟨⟩
    exact hc
  have hgap : Blanks anyBlank blanks := fun c hc => ⟨hblanks c hc, rfl⟩
  calc opened.chunk = trimEnd (trimStart (written opened.row)) := rfl
    _ = trimEnd (written row ++ blanks) := by rw [htext, trimStart_of_begins hbegins]
    _ = written row := trimEnd_append_blanks hstops hgap

/-- A definition begins with a letter. -/
theorem Definition.exists_written_eq (h : Definition row) :
    ∃ c more, written row = c :: more ∧ isIdentStart c = true := by
  obtain ⟨kind, more, rfl⟩ : ∃ (kind : Kind) (more : List Lexeme),
      row = .word kind.keyword.toList :: more := by
    cases h <;> exact ⟨_, _, rfl⟩
  have hkeyword : ∃ c rest, kind.keyword.toList = c :: rest ∧ isIdentStart c = true := by
    cases kind <;> exact ⟨_, _, rfl, by decide⟩
  obtain ⟨c, rest, hword, hc⟩ := hkeyword
  refine ⟨c, rest ++ written more, ?_, hc⟩
  rw [written, List.flatMap_cons, Lexeme.text, hword]
  rfl

/-- What stands before a definition ends where the definition begins. -/
theorem Leading.ends (h : Leading row) {lexeme : Lexeme} (hlast : lexeme ∈ row.getLast?)
    {c : Char} (hc : isIdentStart c = true) (rest : List Char) : lexeme.Ends (c :: rest) := by
  rintro _ ⟨⟩
  have hcomment := h.last lexeme hlast
  have hopens := h.outside lexeme (List.mem_of_getLast? hlast)
  cases lexeme with
  | comment => cases hcomment
  | quoted => exact fun _ => (ne_of_isIdentStart hc).2
  | word => cases hopens
  | single => trivial

/-- A row that ends in a token ends where blanks begin. -/
theorem EndsInToken.ends (h : EndsInToken row) {lexeme : Lexeme} (hlast : lexeme ∈ row.getLast?)
    {c : Char} (hc : isBlank c = true) (rest : List Char) : lexeme.Ends (c :: rest) := by
  rintro _ ⟨⟩
  cases lexeme with
  | comment => cases (h _ hlast).2
  | single => trivial
  | quoted =>
      rintro - rfl
      exact absurd hc (by decide)
  | word =>
      refine Bool.eq_false_iff.2 fun hrest => ?_
      rw [isBlank_of_isIdentRest hrest] at hc
      cases hc

/-- A definition, a blank line and another declaration: the first chunk is the definition. -/
theorem head?_chunks_of_definition {lead text gap rest : List Char}
    (hlead : Leading (lexemes lead)) (htext : Definition (lexemes text))
    (hcomplete : ∀ literal, .quoted literal ∈ lexemes lead ++ lexemes text → Complete literal)
    (hgap : Separates gap)
    (hrest : ∃ word more, lexemes rest = .word word :: more ∧ String.ofList word ∈ keywords) :
    (chunks (lead ++ text ++ gap ++ rest)).head? = some text := by
  obtain ⟨word, more, hlexemes, hword⟩ := hrest
  obtain ⟨c, tail, hwritten, hc⟩ := htext.exists_written_eq
  have hcompleteLead : ∀ literal, .quoted literal ∈ lexemes lead → Complete literal :=
    fun literal hmem => hcomplete literal (List.mem_append_left _ hmem)
  have hcompleteText : ∀ literal, .quoted literal ∈ lexemes text → Complete literal :=
    fun literal hmem => hcomplete literal (List.mem_append_right _ hmem)
  have hblank : ∀ c ∈ gap, isBlank c = true := fun c hc => isBlank_of_separates hgap hc
  have hleadEnds : ∀ lexeme ∈ (lexemes lead).getLast?, lexeme.Ends (text ++ (gap ++ rest)) := by
    intro lexeme hlast
    have htail : text = c :: tail := by rw [← hwritten, written, text_lexemes]
    rw [htail]
    exact hlead.ends hlast hc _
  have htextEnds : ∀ lexeme ∈ (lexemes text).getLast?, lexeme.Ends (gap ++ rest) := by
    intro lexeme hlast
    cases gap with
    | nil => cases hgap.lines
    | cons d gap => exact htext.endsInToken.ends hlast (hblank d List.mem_cons_self) _
  have hread : lexemes (lead ++ text ++ gap ++ rest) =
      lexemes lead ++ (lexemes text ++ (gap.map .single ++ .word word :: more)) := by
    rw [List.append_assoc, List.append_assoc, lexemes_append hcompleteLead hleadEnds,
      lexemes_append hcompleteText htextEnds, lexemes_gap hblank, hlexemes]
  obtain ⟨opened, blanks, others, hblanks, hrow, hdeclarations⟩ :=
    htext.exists_first hgap hword more
  have hstops :=
    stops_written (fun lexeme => (lexed_lexemes hcompleteText).proper) htext.endsInToken
  have hletter := isBlank_of_isIdentRest (isIdentRest_of_isIdentStart hc)
  have hchunk := chunk_of_row_eq hwritten hletter hstops hblanks hrow
  rw [written, text_lexemes] at hchunk
  rw [chunks, hread, declarations_leading hlead, hdeclarations, List.map_cons, hchunk]
  rfl

/-- A description, a brace in a literal of the header, and an object in the body. -/
theorem head?_chunks_of_definition_described :
    (chunks ("\"d\"\n".toList ++ "type A@d(x:\"\x7b\")\x7by(z:I=\x7bx:1\x7d):B\x7d".toList ++
        "\n\n".toList ++ "enum E".toList)).head? =
      some "type A@d(x:\"\x7b\")\x7by(z:I=\x7bx:1\x7d):B\x7d".toList := by
  have hleadRow : lexemes "\"d\"\n".toList = [.quoted ['"', 'd', '"'], .single '\n'] := by
    decide +kernel
  have htextRow : lexemes "type A@d(x:\"\x7b\")\x7by(z:I=\x7bx:1\x7d):B\x7d".toList =
      [.word "type".toList, .single ' ', .word ['A'], .single '@', .word ['d'], .single '(',
        .word ['x'], .single ':', .quoted ['"', '\x7b', '"'], .single ')', .single '\x7b',
        .word ['y'], .single '(', .word ['z'], .single ':', .word ['I'], .single '=',
        .single '\x7b', .word ['x'], .single ':', .single '1', .single '\x7d', .single ')',
        .single ':', .word ['B'], .single '\x7d'] := by
    decide +kernel
  have hlead : Leading (lexemes "\"d\"\n".toList) := by
    rw [hleadRow]
    exact ⟨by decide, by decide⟩
  have htext : Definition (lexemes "type A@d(x:\"\x7b\")\x7by(z:I=\x7bx:1\x7d):B\x7d".toList) := by
    rw [htextRow]
    have hheader : Header [.single ' ', .word ['A'], .single '@', .word ['d'], .single '(',
        .word ['x'], .single ':', .quoted ['"', '\x7b', '"'], .single ')'] := by
      rw [Header]
      decide
    have hobject : Balanced [.single '\x7b', .word ['x'], .single ':', .single '1',
        .single '\x7d', .single ')', .single ':', .word ['B']] :=
      .braces (.cons rfl (.cons rfl (.cons rfl .nil))) (.cons rfl (.cons rfl (.cons rfl .nil)))
    have hbody : Balanced [.word ['y'], .single '(', .word ['z'], .single ':', .word ['I'],
        .single '=', .single '\x7b', .word ['x'], .single ':', .single '1', .single '\x7d',
        .single ')', .single ':', .word ['B']] :=
      .cons rfl (.cons rfl (.cons rfl (.cons rfl (.cons rfl (.cons rfl hobject)))))
    have hkind : Kind.record ≠ .union := by decide
    exact .braced hkind hheader hbody
  have hcomplete : ∀ literal, .quoted literal ∈ lexemes "\"d\"\n".toList ++
      lexemes "type A@d(x:\"\x7b\")\x7by(z:I=\x7bx:1\x7d):B\x7d".toList → Complete literal := by
    intro literal hmem
    rw [hleadRow, htextRow] at hmem
    obtain rfl | rfl : literal = ['"', 'd', '"'] ∨ literal = ['"', '\x7b', '"'] := by
      simpa using hmem
    · have hcontent : StringContent (fun _ => True) ['d'] :=
        .plain (by decide) (by decide) (by decide) .nil
      exact .line hcontent
    · have hcontent : StringContent (fun _ => True) ['\x7b'] :=
        .plain (by decide) (by decide) (by decide) .nil
      exact .line hcontent
  have hblank : ∀ c ∈ List.replicate 2 '\n', c = '\n' ∨ c ∈ lineSpaces :=
    fun c hc => .inl (List.eq_of_mem_replicate hc)
  have hgap : Separates "\n\n".toList := ⟨hblank, by decide⟩
  have hrest : lexemes "enum E".toList = [.word "enum".toList, .single ' ', .word ['E']] := by
    decide +kernel
  have hkeyword : String.ofList "enum".toList ∈ keywords := by
    decide +kernel
  exact head?_chunks_of_definition hlead htext hcomplete hgap ⟨_, _, hrest, hkeyword⟩

end First

end ModelGraph.Document
