import ModelGraph.Proofs.Document.NormalChunk
import ModelGraph.Proofs.Document.Parting

/-! # Where the chunks of a document stand

The chunks of a document are stretches of it, one behind the other, and none of its text that could
declare anything is left out: every identifier and every opening brace outside of comments and
literals stands in exactly one of them, whatever else the document says
(`exists_places_chunks`). -/

namespace ModelGraph.Document

open Text Written

/-- A text at a position. -/
structure Place where
  start : Nat
  text : List Char
  deriving DecidableEq, Repr

/-- The place of a lexeme behind others. -/
def Lexeme.place (before : List Lexeme) (lexeme : Lexeme) : Place :=
  ⟨(written before).length, lexeme.text⟩

/-- A comment or a literal. -/
def Lexeme.isSkipped : Lexeme → Bool
  | comment _ | quoted _ => true
  | word _ | single _ => false

namespace Place

/-- The position behind a place. -/
def stop (place : Place) : Nat :=
  place.start + place.text.length

/-- The position is one of the place. -/
def Has (place : Place) (position : Nat) : Prop :=
  place.start ≤ position ∧ position < place.stop

/-- The first place is a part of the second. -/
def Within (inner outer : Place) : Prop :=
  outer.start ≤ inner.start ∧ inner.stop ≤ outer.stop

/-- The document has the text at the position. -/
def In (place : Place) (document : List Char) : Prop :=
  place.text <+: document.drop place.start

end Place

/-- The position is in a comment or in a literal. -/
def Hidden (document : List Char) (position : Nat) : Prop :=
  ∃ before lexeme after, lexemes document = before ++ lexeme :: after ∧
    lexeme.isSkipped = true ∧ (lexeme.place before).Has position

namespace Place

/-- The place is outside of comments and literals. -/
def Visible (place : Place) (document : List Char) : Prop :=
  ∀ position, place.Has position → ¬ Hidden document position

/-- An identifier of the document that is part of no longer one. -/
structure IsRun (place : Place) (document : List Char) : Prop where
  isIn : place.In document
  identifier : isIdentifier place.text = true
  maximal : ∀ longer : Place, longer.In document → isIdentifier longer.text = true →
    place.Within longer → longer = place

/-- An opening brace of the document. -/
structure IsBrace (place : Place) (document : List Char) : Prop where
  isIn : place.In document
  text_eq : place.text = ['\x7b']

/-- A stretch of the document as a chunk is: not empty, without blanks around it, and with an
identifier or an opening brace in front. -/
structure IsChunk (place : Place) (document : List Char) : Prop where
  isIn : place.In document
  ne_nil : place.text ≠ []
  trimmed : trim place.text = place.text
  front : (identifier? place.text).isSome = true ∨ place.text.head? = some '\x7b'

section Position

variable {place inner outer : Place} {document : List Char}

theorem Within.trans (h : inner.Within place) (houter : place.Within outer) :
    inner.Within outer :=
  ⟨Nat.le_trans houter.1 h.1, Nat.le_trans h.2 houter.2⟩

theorem Within.has (h : inner.Within outer) {position : Nat} (hposition : inner.Has position) :
    outer.Has position :=
  ⟨Nat.le_trans h.1 hposition.1, Nat.lt_of_lt_of_le hposition.2 h.2⟩

theorem IsRun.ne_nil (h : place.IsRun document) : place.text ≠ [] := by
  intro hnil
  have hidentifier := h.identifier
  rw [hnil] at hidentifier
  cases hidentifier

theorem IsBrace.ne_nil (h : place.IsBrace document) : place.text ≠ [] := by
  rw [h.text_eq]
  exact List.cons_ne_nil _ _

theorem has_start (h : place.text ≠ []) : place.Has place.start := by
  have hlength := List.length_pos_iff.2 h
  constructor
  · exact Nat.le_refl place.start
  · rw [stop]
    omega

theorem In.getElem? (h : place.In document) {offset : Nat} (hoffset : offset < place.text.length) :
    document[place.start + offset]? = place.text[offset]? := by
  obtain ⟨rest, hrest⟩ := h
  rw [← List.getElem?_drop, ← hrest, List.getElem?_append_left hoffset]

theorem In.getElem?_start (h : place.In document) {c : Char} {more : List Char}
    (htext : place.text = c :: more) : document[place.start]? = some c := by
  have hlength : 0 < place.text.length := by
    rw [htext]
    exact Nat.succ_pos more.length
  have hfirst := h.getElem? hlength
  rwa [htext] at hfirst

/-- At a position of the place the document has a character of its text. -/
theorem In.exists_mem (h : place.In document) {position : Nat} (hposition : place.Has position) :
    ∃ c ∈ place.text, document[position]? = some c := by
  obtain ⟨hstart, hstop⟩ := hposition
  obtain ⟨offset, rfl⟩ := Nat.exists_eq_add_of_le hstart
  have hoffset : offset < place.text.length := by
    rw [stop] at hstop
    omega
  refine ⟨place.text[offset], List.getElem_mem hoffset, ?_⟩
  rw [h.getElem? hoffset, List.getElem?_eq_getElem hoffset]

end Position

end Place

section Lexemes

variable {document : List Char} {before row after : List Lexeme} {lexeme : Lexeme}

theorem written_append (before row : List Lexeme) :
    written (before ++ row) = written before ++ written row :=
  List.flatMap_append

theorem length_written_append (before row : List Lexeme) :
    (written (before ++ row)).length = (written before).length + (written row).length := by
  rw [written_append, List.length_append]

theorem length_written_cons (lexeme : Lexeme) (row : List Lexeme) :
    (written (lexeme :: row)).length = lexeme.text.length + (written row).length := by
  rw [written, List.flatMap_cons, List.length_append]

theorem Lexeme.stop_place (before : List Lexeme) (lexeme : Lexeme) :
    (lexeme.place before).stop = (written (before ++ [lexeme])).length := by
  rw [length_written_append, length_written_cons]
  rfl

/-- Behind the first lexemes of a document it says what the others do. -/
theorem drop_written (h : lexemes document = before ++ row) :
    document.drop (written before).length = written row := by
  have htext := text_lexemes document
  rw [h, List.flatMap_append] at htext
  rw [← htext, List.drop_left]

theorem Lexeme.isIn_place (h : lexemes document = before ++ lexeme :: after) :
    (lexeme.place before).In document := by
  rw [Place.In, place, drop_written h]
  exact List.prefix_append lexeme.text (written after)

/-- Every position of a document is in one of its lexemes. -/
theorem exists_lexeme_at {row : List Lexeme} {position : Nat}
    (h : position < (written row).length) :
    ∃ before lexeme after, row = before ++ lexeme :: after ∧
      (lexeme.place before).Has position := by
  induction row generalizing position with
  | nil => cases h
  | cons first row ih =>
      rw [length_written_cons] at h
      by_cases hfirst : position < first.text.length
      · refine ⟨[], first, row, rfl, Nat.zero_le position, ?_⟩
        rw [Place.stop]
        exact Nat.lt_add_left _ hfirst
      · obtain ⟨before, lexeme, after, rfl, hstart, hstop⟩ :=
          ih (show position - first.text.length < (written row).length by omega)
        refine ⟨first :: before, lexeme, after, rfl, ?_, ?_⟩
        all_goals
          simp only [Place.stop, Lexeme.place, length_written_cons] at hstart hstop ⊢
          omega

theorem Lexeme.isGap_of_opens (h : lexeme.opens = true) : lexeme.isGap = false := by
  cases lexeme with
  | comment | quoted => cases h
  | word text => rfl
  | single c =>
      obtain rfl : c = '\x7b' := by simpa [opens] using h
      decide

theorem Lexeme.isComment_of_opens (h : lexeme.opens = true) : lexeme.isComment = false := by
  cases lexeme with
  | comment => cases h
  | quoted | word | single => rfl

/-- Whatever is neither a comment nor a literal is a whole lexeme. -/
theorem proper_of_isSkipped (h : lexemes document = before ++ lexeme :: after)
    (hskipped : lexeme.isSkipped = false) : lexeme.Proper := by
  apply (lexemes_at h).2
  rintro literal rfl
  cases hskipped

theorem Lexeme.isSkipped_of_opens (h : lexeme.opens = true) : lexeme.isSkipped = false := by
  cases lexeme with
  | comment | quoted => cases h
  | word | single => rfl

end Lexemes

section Declaration

variable {document : List Char} {before row : List Lexeme} {opened : Opened}

/-- Trimming the end keeps the lexemes up to one at which a declaration can begin. -/
theorem exists_trimEnd_written {lexeme : Lexeme} (hproper : lexeme.Proper)
    (hopens : lexeme.opens = true) (first last : List Lexeme) :
    ∃ rest, trimEnd (written (first ++ lexeme :: last)) =
      written first ++ lexeme.text ++ rest := by
  obtain ⟨init, c, htext, hc⟩ := exists_text_eq_concat hproper
    (Lexeme.isGap_of_opens hopens) (Lexeme.isComment_of_opens hopens)
  refine ⟨trimEnd (written last), ?_⟩
  calc trimEnd (written (first ++ lexeme :: last))
      = trimEnd ((written first ++ init) ++ c :: written last) := by simp [written, htext]
    _ = (written first ++ init) ++ c :: trimEnd (written last) := trimEnd_append_cons hc _ _
    _ = written first ++ lexeme.text ++ trimEnd (written last) := by simp [htext]

/-- A chunk of a document is that of a declaration that begins where the blanks in front end. -/
theorem Opened.chunk_eq_trimEnd (h : lexemes document = before ++ (opened.row ++ row))
    (hbegun : opened.Begun) : opened.chunk = trimEnd (written opened.row) := by
  obtain ⟨lexeme, more, hrow, hopens⟩ := hbegun
  rw [hrow, List.cons_append] at h
  have hproper := proper_of_isSkipped h (Lexeme.isSkipped_of_opens hopens)
  have hbegins : Begins (written opened.row) := by
    rw [hrow]
    exact begins_text_append hproper (Lexeme.isGap_of_opens hopens) (written more)
  calc opened.chunk = trimEnd (trimStart (written opened.row)) := rfl
    _ = trimEnd (written opened.row) := by rw [trimStart_of_begins hbegins]

/-- The place of a declaration behind other lexemes. -/
def Opened.place (before : List Lexeme) (opened : Opened) : Place :=
  ⟨(written before).length, opened.chunk⟩

/-- The chunk of a declaration reaches no further than its last lexeme. -/
theorem Opened.stop_place_le (h : lexemes document = before ++ (opened.row ++ row))
    (hbegun : opened.Begun) :
    (opened.place before).stop ≤ (written (before ++ opened.row)).length := by
  have hlength := (trimEnd_isPrefix (written opened.row)).length_le
  rw [Place.stop, place, Opened.chunk_eq_trimEnd h hbegun, length_written_append]
  exact Nat.add_le_add_left hlength _

/-- What can begin a declaration is not trimmed off one. -/
theorem Opened.within_place (h : lexemes document = before ++ (opened.row ++ row))
    (hbegun : opened.Begun) {first last : List Lexeme} {lexeme : Lexeme}
    (hrow : opened.row = first ++ lexeme :: last) (hopens : lexeme.opens = true) :
    (lexeme.place (before ++ first)).Within (opened.place before) := by
  have hdocument : lexemes document = (before ++ first) ++ lexeme :: (last ++ row) := by
    rw [h, hrow]
    simp
  have hproper := proper_of_isSkipped hdocument (Lexeme.isSkipped_of_opens hopens)
  obtain ⟨rest, hrest⟩ : ∃ rest, opened.chunk = written first ++ lexeme.text ++ rest := by
    rw [Opened.chunk_eq_trimEnd h hbegun, hrow]
    exact exists_trimEnd_written hproper hopens first last
  constructor
  · simp only [place, Lexeme.place, length_written_append]
    omega
  · simp only [Place.stop, place, Lexeme.place, length_written_append, hrest, List.length_append]
    omega

theorem identifier?_isSome {name : List Char} (h : isIdentifier name = true) (rest : List Char) :
    (identifier? (name ++ rest)).isSome = true := by
  cases name with
  | nil => cases h
  | cons c more =>
      simp only [isIdentifier, Bool.and_eq_true] at h
      simp [identifier?, h.1]

theorem Opened.isChunk_place (h : lexemes document = before ++ (opened.row ++ row))
    (hbegun : opened.Begun) : (opened.place before).IsChunk document := by
  obtain ⟨lexeme, more, hrow, hopens⟩ := hbegun
  have hdocument : lexemes document = before ++ lexeme :: (more ++ row) := by
    rw [h, hrow, List.cons_append]
  have hproper := proper_of_isSkipped hdocument (Lexeme.isSkipped_of_opens hopens)
  have hchunk := Opened.chunk_eq_trimEnd h ⟨lexeme, more, hrow, hopens⟩
  obtain ⟨rest, hrest⟩ : ∃ rest, opened.chunk = lexeme.text ++ rest := by
    rw [hchunk, hrow]
    exact exists_trimEnd_written hproper hopens [] more
  constructor
  · have hrow : opened.chunk <+: written opened.row := by
      rw [hchunk]
      exact trimEnd_isPrefix (written opened.row)
    rw [Place.In, place, drop_written h, written_append]
    exact hrow.trans (List.prefix_append _ _)
  · rw [place, hrest]
    exact List.append_ne_nil_of_left_ne_nil (Lexeme.text_ne_nil hproper) rest
  · exact trim_trim (written opened.row)
  · rw [place, hrest]
    cases lexeme with
    | comment | quoted => cases hopens
    | word text => exact .inl (identifier?_isSome hproper rest)
    | single c =>
        obtain rfl : c = '\x7b' := by simpa [Lexeme.opens] using hopens
        exact .inr rfl

end Declaration

section Run

/-- The places of the declarations that the rest of a document has: each as a chunk is, one behind
the other, and every lexeme at which a declaration can begin in one of them. -/
structure Placed (document : List Char) (before row : List Lexeme) (places : List Place) :
    Prop where
  chunks : ∀ place ∈ places, place.IsChunk document
  behind : ∀ place ∈ places, (written before).length ≤ place.start
  apart : places.Pairwise fun first second => first.stop ≤ second.start
  covers : ∀ first lexeme last, row = first ++ lexeme :: last → lexeme.opens = true →
    ∃ place ∈ places, (lexeme.place (before ++ first)).Within place

variable {document : List Char} {before row : List Lexeme} {places : List Place}

theorem Placed.nil : Placed document before [] [] where
  chunks _ hmem := nomatch hmem
  behind _ hmem := nomatch hmem
  apart := .nil
  covers first lexeme last hrow := by simp at hrow

theorem Placed.gap {lexeme : Lexeme} (h : Placed document (before ++ [lexeme]) row places)
    (hgap : lexeme.opens = false) : Placed document before (lexeme :: row) places where
  chunks := h.chunks
  behind place hmem := by
    have hstart := h.behind place hmem
    rw [length_written_append] at hstart
    omega
  apart := h.apart
  covers first other last hrow hopens := by
    rcases List.cons_eq_append_iff.1 hrow with ⟨-, hother⟩ | ⟨first, rfl, hlast⟩
    · obtain ⟨rfl, -⟩ := List.cons.inj hother
      rw [hgap] at hopens
      cases hopens
    · have hcovers := h.covers first other last hlast hopens
      rwa [List.append_assoc] at hcovers

theorem Placed.declaration {opened : Opened}
    (h : Placed document (before ++ opened.row) row places)
    (hdocument : lexemes document = before ++ (opened.row ++ row)) (hbegun : opened.Begun) :
    Placed document before (opened.row ++ row) (opened.place before :: places) where
  chunks := List.forall_mem_cons.2 ⟨Opened.isChunk_place hdocument hbegun, h.chunks⟩
  behind := by
    refine List.forall_mem_cons.2 ⟨Nat.le_refl _, fun place hmem => ?_⟩
    have hstart := h.behind place hmem
    rw [length_written_append] at hstart
    omega
  apart := by
    refine List.pairwise_cons.2 ⟨fun place hmem => ?_, h.apart⟩
    calc (opened.place before).stop
        ≤ (written (before ++ opened.row)).length := Opened.stop_place_le hdocument hbegun
      _ ≤ place.start := h.behind place hmem
  covers first lexeme last hrow hopens := by
    -- the lexeme is one of the declaration, or stands behind it
    rcases List.append_eq_append_iff.1 hrow with
      ⟨behind, rfl, hlast⟩ | ⟨_ | ⟨other, rest⟩, hfirst, hrest⟩
    · obtain ⟨place, hmem, hwithin⟩ := h.covers behind lexeme last hlast hopens
      rw [List.append_assoc] at hwithin
      exact ⟨place, List.mem_cons_of_mem _ hmem, hwithin⟩
    · obtain ⟨place, hmem, hwithin⟩ := h.covers [] lexeme last hrest.symm hopens
      rw [List.append_nil] at hfirst hwithin
      rw [hfirst] at hwithin
      exact ⟨place, List.mem_cons_of_mem _ hmem, hwithin⟩
    · obtain ⟨rfl, -⟩ := List.cons.inj hrest
      exact ⟨_, List.mem_cons_self, Opened.within_place hdocument hbegun hfirst hopens⟩

/-- The declarations of the rest of a document have places in it. -/
theorem Parted.exists_placed {declarations : List Opened} (h : Parted row declarations)
    (hdocument : lexemes document = before ++ row) :
    ∃ places, places.map Place.text = declarations.map Opened.chunk ∧
      Placed document before row places := by
  induction h generalizing before with
  | nil => exact ⟨[], rfl, .nil⟩
  | @gap lexeme row declarations hgap _ ih =>
      have hrest : lexemes document = (before ++ [lexeme]) ++ row := by
        rw [hdocument, List.append_assoc, List.singleton_append]
      obtain ⟨places, htexts, hplaced⟩ := ih hrest
      exact ⟨places, htexts, hplaced.gap hgap⟩
  | @declaration opened row declarations hbegun _ ih =>
      have hrest : lexemes document = (before ++ opened.row) ++ row := by
        rw [hdocument, List.append_assoc]
      obtain ⟨places, htexts, hplaced⟩ := ih hrest
      refine ⟨opened.place before :: places, ?_, hplaced.declaration hdocument hbegun⟩
      rw [List.map_cons, List.map_cons, htexts]
      rfl

end Run

section Pieces

variable {document : List Char} {piece : Place}

/-- A visible place begins in a word or in a single character. -/
theorem Place.Visible.exists_lexeme (h : piece.Visible document) (hin : piece.In document)
    (hne : piece.text ≠ []) :
    ∃ before lexeme after, lexemes document = before ++ lexeme :: after ∧
      lexeme.isSkipped = false ∧ (lexeme.place before).Has piece.start := by
  have hstart : piece.start < (written (lexemes document)).length := by
    obtain ⟨c, -, hc⟩ := hin.exists_mem (Place.has_start hne)
    rw [written, text_lexemes]
    exact (List.getElem?_eq_some_iff.1 hc).1
  obtain ⟨before, lexeme, after, hlexemes, hhas⟩ := exists_lexeme_at hstart
  refine ⟨before, lexeme, after, hlexemes, ?_, hhas⟩
  cases hskipped : lexeme.isSkipped with
  | false => rfl
  | true =>
      exact absurd ⟨before, lexeme, after, hlexemes, hskipped, hhas⟩
        (h piece.start (Place.has_start hne))

/-- Behind a word of a document no character would continue it. -/
theorem isIdentRest_behind_word {before after : List Lexeme} {text : List Char} {c : Char}
    (h : lexemes document = before ++ .word text :: after)
    (hc : document[((Lexeme.word text).place before).stop]? = some c) : isIdentRest c = false := by
  have hrest : lexemes document = (before ++ [.word text]) ++ after := by
    rw [h, List.append_assoc, List.singleton_append]
  rw [Lexeme.stop_place, ← Nat.add_zero (written _).length, ← List.getElem?_drop,
    drop_written hrest, ← List.head?_eq_getElem?] at hc
  exact (lexemes_at h).1 c hc

/-- A visible identifier that is part of no longer one is a word of the document. -/
theorem Place.IsRun.exists_lexeme (h : piece.IsRun document) (hvisible : piece.Visible document) :
    ∃ before lexeme after, lexemes document = before ++ lexeme :: after ∧
      lexeme.opens = true ∧ piece.Within (lexeme.place before) := by
  obtain ⟨before, lexeme, after, hlexemes, hskipped, hhas⟩ := hvisible.exists_lexeme h.isIn h.ne_nil
  refine ⟨before, lexeme, after, hlexemes, ?_⟩
  cases lexeme with
  | comment | quoted => cases hskipped
  | word text =>
      refine ⟨rfl, hhas.1, ?_⟩
      -- else the character behind the word would be one of the identifier
      by_contra hlonger
      have hbehind : piece.Has ((Lexeme.word text).place before).stop := by
        have hbefore := hhas.2
        constructor <;> omega
      obtain ⟨c, hmem, hc⟩ := h.isIn.exists_mem hbehind
      have hcontinues := isIdentRest_of_isIdentifier h.identifier c hmem
      rw [isIdentRest_behind_word hlexemes hc] at hcontinues
      cases hcontinues
  | single c =>
      obtain ⟨first, more, htext⟩ := List.exists_cons_of_ne_nil h.ne_nil
      obtain ⟨d, hmem, hd⟩ := (Lexeme.isIn_place hlexemes).exists_mem hhas
      obtain rfl : d = c := List.mem_singleton.1 hmem
      obtain rfl := Option.some.inj ((h.isIn.getElem?_start htext).symm.trans hd)
      have hidentifier := h.identifier
      rw [htext, isIdentifier, (proper_of_isSkipped hlexemes hskipped).2.2] at hidentifier
      cases hidentifier

/-- A visible opening brace is a lexeme of the document. -/
theorem Place.IsBrace.exists_lexeme (h : piece.IsBrace document)
    (hvisible : piece.Visible document) :
    ∃ before lexeme after, lexemes document = before ++ lexeme :: after ∧
      lexeme.opens = true ∧ piece.Within (lexeme.place before) := by
  obtain ⟨before, lexeme, after, hlexemes, hskipped, hhas⟩ := hvisible.exists_lexeme h.isIn h.ne_nil
  obtain ⟨c, hmem, hc⟩ := (Lexeme.isIn_place hlexemes).exists_mem hhas
  obtain rfl := Option.some.inj ((h.isIn.getElem?_start h.text_eq).symm.trans hc)
  refine ⟨before, lexeme, after, hlexemes, ?_, hhas.1, ?_⟩
  · cases lexeme with
    | comment | quoted => cases hskipped
    | word => rfl
    | single c =>
        obtain rfl := List.mem_singleton.1 hmem
        rfl
  · have hstop := hhas.2
    rw [Place.stop, h.text_eq, List.length_singleton]
    omega

/-- Places one behind the other share no position. -/
theorem eq_of_has {places : List Place}
    (h : places.Pairwise fun first second => first.stop ≤ second.start) {first second : Place}
    (hfirst : first ∈ places) (hsecond : second ∈ places) {position : Nat}
    (hhas : first.Has position) (hhas' : second.Has position) : first = second := by
  induction h with
  | nil => cases hfirst
  | @cons place places hbehind _ ih =>
      -- what stands behind the first place shares none of its positions
      have hnone : ∀ other ∈ places, place.Has position → ¬ other.Has position := by
        intro other hmem hplace hother
        have hstop := hbehind other hmem
        have hbefore := hplace.2
        have hafter := hother.1
        omega
      rcases List.mem_cons.1 hfirst with rfl | hmem <;>
        rcases List.mem_cons.1 hsecond with rfl | hmem'
      · rfl
      · exact absurd hhas' (hnone second hmem' hhas)
      · exact absurd hhas (hnone first hmem hhas')
      · exact ih hmem hmem'

end Pieces

/-- The chunks of a document are stretches of it that are not empty, have no blanks around them and
begin with an identifier or an opening brace; they stand one behind the other, and every identifier
and every opening brace outside of comments and literals stands in exactly one of them. -/
theorem exists_places_chunks (document : List Char) :
    ∃ places : List Place, places.map Place.text = chunks document ∧
      (∀ place ∈ places, place.IsChunk document) ∧
      (places.Pairwise fun first second => first.stop ≤ second.start) ∧
      ∀ piece : Place, piece.IsRun document ∨ piece.IsBrace document → piece.Visible document →
        ∃! place, place ∈ places ∧ piece.Within place := by
  have hwhole : lexemes document = [] ++ lexemes document := rfl
  obtain ⟨places, htexts, hplaced⟩ := (parted_declarations _).exists_placed hwhole
  refine ⟨places, htexts, hplaced.chunks, hplaced.apart, fun piece hpiece hvisible => ?_⟩
  have hne : piece.text ≠ [] := hpiece.elim Place.IsRun.ne_nil Place.IsBrace.ne_nil
  obtain ⟨before, lexeme, after, hlexemes, hopens, hlexeme⟩ :
      ∃ before lexeme after, lexemes document = before ++ lexeme :: after ∧
        lexeme.opens = true ∧ piece.Within (lexeme.place before) := by
    rcases hpiece with hrun | hbrace
    · exact hrun.exists_lexeme hvisible
    · exact hbrace.exists_lexeme hvisible
  obtain ⟨place, hmem, hplace⟩ := hplaced.covers before lexeme after hlexemes hopens
  have hwithin := hlexeme.trans hplace
  refine ⟨place, ⟨hmem, hwithin⟩, ?_⟩
  rintro other ⟨hother, hwithin'⟩
  have hstart := Place.has_start hne
  exact eq_of_has hplaced.apart hother hmem (hwithin'.has hstart) (hwithin.has hstart)

example : chunks "\x7d a \x7b \"x \x7b y\" \x7d \x7d b # c".toList =
    ["a \x7b \"x \x7b y\" \x7d".toList, "b # c".toList] := by
  decide +kernel

end ModelGraph.Document
