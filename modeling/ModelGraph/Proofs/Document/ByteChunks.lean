import ModelGraph.Proofs.Document.ByteSkip

/-! # Bytes and lexemes

The reader that goes over the bytes of a document takes the declarations that the reader of lexemes
takes. Whatever the first one skips at once is a lexeme, and where it stands in front of one the
other has read the lexemes before it. So no step of it fails, and it hands out the same texts
(`byteChunks?_eq_some`). -/

namespace ModelGraph.Document

open Text Written

section Places

/-- The position in the bytes behind a row of lexemes. -/
def offset (row : List Lexeme) : Nat :=
  (octets (written row)).length

/-- A declaration of the reader of lexemes is at its place in the bytes the same for the reader of
bytes. -/
structure OpenedAt (done : List Lexeme) (opened : Opened) (place : ByteOpened) : Prop where
  begun : opened.Begun
  start : ∃ before, done = before ++ opened.row ∧ place.start = offset before
  braced : place.braced = opened.braced
  endsAtBlankLine : place.endsAtBlankLine = opened.endsAtBlankLine
  awaitsWord : place.awaitsWord = opened.awaitsWord

/-- Behind the same lexemes both readers stand at the same place. -/
inductive StandsAt (done : List Lexeme) : Reader → ByteReader → Prop
  | outside (depth : Nat) : StandsAt done ⟨none, depth⟩ ⟨offset done, none, depth⟩
  | inside {opened : Opened} {place : ByteOpened} (h : OpenedAt done opened place) (depth : Nat) :
      StandsAt done ⟨some opened, depth⟩ ⟨offset done, some place, depth⟩

/-- A step of the reader of bytes hands out what the other reader does, and stands where it
stands. -/
def Answers (done : List Lexeme) (out : Option Opened × Reader) (step : ByteStep) : Prop :=
  ∃ next, step = some (out.1.toList.map Opened.chunk, next) ∧ StandsAt done out.2 next

variable {document : String} {done row ahead : List Lexeme} {lexeme : Lexeme} {reader : Reader}
  {opened : Opened} {place : ByteOpened} {byteReader : ByteReader}

theorem offset_append (done row : List Lexeme) :
    offset (done ++ row) = offset done + (octets (written row)).length := by
  rw [offset, written_append, octets_append, List.length_append]
  rfl

theorem offset_concat (done : List Lexeme) (lexeme : Lexeme) :
    offset (done ++ [lexeme]) = offset done + (octets lexeme.text).length := by
  rw [offset_append, written, List.flatMap_singleton]

theorem drop_source (h : lexemes document.toList = done ++ row) :
    (source document).drop (offset done) = octets (written row) := by
  have htext := text_lexemes document.toList
  rw [h, List.flatMap_append] at htext
  rw [source_eq, ← htext, octets_append]
  exact List.drop_left

theorem length_source (h : lexemes document.toList = done) :
    (source document).length = offset done := by
  have htext := text_lexemes document.toList
  rw [h] at htext
  rw [source_eq, ← htext]
  rfl

theorem StandsAt.index_eq (h : StandsAt done reader byteReader) :
    byteReader.index = offset done := by
  cases h <;> rfl

theorem StandsAt.depth_eq (h : StandsAt done reader byteReader) :
    byteReader.depth = reader.depth := by
  cases h <;> rfl

theorem OpenedAt.push (h : OpenedAt done opened place) (lexeme : Lexeme) :
    OpenedAt (done ++ [lexeme]) (opened.push lexeme) place where
  begun := h.begun.grown rfl
  start := by
    obtain ⟨before, rfl, hstart⟩ := h.start
    have hrow : (opened.push lexeme).row = opened.row ++ [lexeme] := Opened.row_grown rfl
    exact ⟨before, by rw [hrow, List.append_assoc], hstart⟩
  braced := h.braced
  endsAtBlankLine := h.endsAtBlankLine
  awaitsWord := h.awaitsWord

/-- A declaration that ends behind a row is taken out of the document. -/
theorem OpenedAt.close?_eq (h : OpenedAt done opened place)
    (hdocument : lexemes document.toList = done ++ row) :
    close? document (some place) (offset done) = some [opened.chunk] := by
  obtain ⟨before, rfl, hstart⟩ := h.start
  rw [List.append_assoc] at hdocument
  have htext := text_lexemes document.toList
  rw [hdocument, List.flatMap_append, List.flatMap_append] at htext
  obtain ⟨slice, hslice, hsaid⟩ := exists_slice?_eq htext.symm
  have hne : opened.chunk ≠ [] := (Opened.isChunk_place hdocument h.begun).ne_nil
  have hstop : offset (before ++ opened.row) =
      (octets (written before ++ written opened.row)).length := by
    rw [offset, written_append]
  have hchunk : trim slice.text = opened.chunk := by
    rw [hsaid]
    rfl
  rw [close?, hstart, hstop, offset, hslice, Option.map_some, hchunk, if_neg (by simpa using hne)]

theorem StandsAt.answers_pass (h : StandsAt done reader byteReader) (lexeme : Lexeme) :
    Answers (done ++ [lexeme]) (reader.pass lexeme)
      (byteReader.moved (offset (done ++ [lexeme]))) := by
  cases h with
  | outside depth => exact ⟨_, rfl, .outside depth⟩
  | inside hopened depth => exact ⟨_, rfl, .inside (hopened.push lexeme) depth⟩

/-- A declaration that opens behind a row. -/
theorem openedAt_atWord (done : List Lexeme) (text : List Char) :
    OpenedAt (done ++ [.word text]) (.atWord text) (.atWord (offset done) text) where
  begun := Opened.begun_first rfl rfl
  start := ⟨done, rfl, rfl⟩
  braced := rfl
  endsAtBlankLine := rfl
  awaitsWord := rfl

theorem openedAt_atBrace (done : List Lexeme) :
    OpenedAt (done ++ [.single '\x7b']) .atBrace
      { ByteOpened.atWord (offset done) ['\x7b'] with braced := true } where
  begun := Opened.begun_first rfl rfl
  start := ⟨done, rfl, rfl⟩
  braced := rfl
  endsAtBlankLine := by
    have hbrace : String.ofList ['\x7b'] ∉ keywords := by decide
    simp [ByteOpened.atWord, Opened.atBrace, hbrace]
  awaitsWord := beq_eq_false_iff_ne.2 (by decide)

/-- The word at which the reader stands is taken out of the document. -/
theorem exists_slice?_word {text : List Char}
    (hdocument : lexemes document.toList = done ++ .word text :: ahead) :
    ∃ slice, slice? document (offset done) (offset (done ++ [.word text])) = some slice ∧
      slice.text = text := by
  have htext := text_lexemes document.toList
  rw [hdocument, List.flatMap_append, List.flatMap_cons] at htext
  have hstop : offset (done ++ [.word text]) = (octets (written done ++ text)).length := by
    rw [offset_concat, octets_append, List.length_append]
    rfl
  rw [hstop]
  exact exists_slice?_eq htext.symm

theorem skipWhile_word {text : List Char}
    (hdocument : lexemes document.toList = done ++ .word text :: ahead) :
    skipWhile isIdentRest (source document) (offset done) = offset (done ++ [.word text]) := by
  obtain ⟨hends, hproper⟩ := lexemes_at hdocument
  have hword := isIdentRest_of_isIdentifier (hproper (by rintro _ ⟨⟩))
  rw [skipWhile_eq_octets asciiClass_isIdentRest (drop_source hdocument) hword hends,
    offset_concat, Lexeme.text]

theorem StandsAt.answers_word (h : StandsAt done reader byteReader) {text : List Char}
    (hdocument : lexemes document.toList = done ++ .word text :: ahead) :
    Answers (done ++ [.word text]) (reader.word text) (byteReader.word document) := by
  have hpass := h.answers_pass (.word text)
  have hopens := openedAt_atWord done text
  obtain ⟨slice, hslice, rfl⟩ := exists_slice?_word hdocument
  rw [ByteReader.word, h.index_eq, skipWhile_word hdocument, h.depth_eq, hslice, Reader.word]
  split
  · exact hpass
  · cases h with
    | outside depth => exact ⟨_, rfl, .inside hopens depth⟩
    | @inside opened place hopened depth =>
        have hpushed := hopened.push (.word slice.text)
        simp only [Option.bind_some, hopened.awaitsWord]
        split
        · refine ⟨_, rfl, .inside ?_ depth⟩
          exact ⟨hpushed.begun, hpushed.start, hpushed.braced, hpushed.endsAtBlankLine, rfl⟩
        · split
          · refine ⟨_, ?_, .inside hopens depth⟩
            rw [ByteReader.closed, hopened.close?_eq hdocument]
            rfl
          · exact hpass

theorem offset_single {c : Char} (hc : c.toNat < 128) (done : List Lexeme) :
    offset (done ++ [.single c]) = offset done + 1 := by
  rw [offset_concat, Lexeme.text, octets_singleton hc, List.length_singleton]

theorem StandsAt.answers_openBrace (h : StandsAt done reader byteReader) :
    Answers (done ++ [.single '\x7b']) reader.openBrace byteReader.openBrace := by
  have hoffset := offset_single (c := '\x7b') (by decide) done
  rw [ByteReader.openBrace, h.index_eq, ← hoffset, h.depth_eq, Reader.openBrace]
  cases h with
  | outside depth =>
      simp only
      split
      · exact ⟨_, rfl, .inside (openedAt_atBrace done) _⟩
      · exact ⟨_, rfl, .outside _⟩
  | inside hopened depth =>
      have hpushed := hopened.push (.single '\x7b')
      refine ⟨_, rfl, .inside ?_ _⟩
      exact ⟨hpushed.begun, hpushed.start, rfl, hpushed.endsAtBlankLine, hpushed.awaitsWord⟩

theorem StandsAt.answers_closeBrace (h : StandsAt done reader byteReader)
    (hdocument : lexemes document.toList = done ++ .single '\x7d' :: ahead) :
    Answers (done ++ [.single '\x7d']) reader.closeBrace (byteReader.closeBrace document) := by
  have hread : lexemes document.toList = (done ++ [.single '\x7d']) ++ ahead := by
    rw [hdocument, List.append_assoc, List.singleton_append]
  have hoffset := offset_single (c := '\x7d') (by decide) done
  rw [ByteReader.closeBrace, h.index_eq, ← hoffset, h.depth_eq,
    Reader.closeBrace]
  cases h with
  | outside depth =>
      simp only [Option.any_none, Bool.and_false]
      exact ⟨_, rfl, .outside _⟩
  | @inside opened place hopened depth =>
      have hpushed := hopened.push (.single '\x7d')
      simp only [Option.any_some, Option.map_some, hpushed.braced]
      split
      · refine ⟨_, ?_, .outside _⟩
        rw [ByteReader.closed, hpushed.close?_eq hread]
        rfl
      · exact ⟨_, rfl, .inside hpushed _⟩

theorem StandsAt.answers_newline (h : StandsAt done reader byteReader)
    (hdocument : lexemes document.toList = done ++ .single '\n' :: ahead) :
    Answers (done ++ [.single '\n']) (reader.newline (blankLineAhead ahead))
      (byteReader.newline document) := by
  have hread : lexemes document.toList = (done ++ [.single '\n']) ++ ahead := by
    rw [hdocument, List.append_assoc, List.singleton_append]
  have hpass := h.answers_pass (.single '\n')
  have hblank := lineBlank_eq_octets (drop_source hread)
  rw [lexemes_written_of_append hread] at hblank
  have hoffset := offset_single (c := '\n') (by decide) done
  rw [ByteReader.newline, h.index_eq, ← hoffset, hblank, h.depth_eq,
    Reader.newline]
  cases h with
  | outside depth =>
      simp only [Option.any_none, Bool.and_false, Bool.false_and]
      exact hpass
  | @inside opened place hopened depth =>
      simp only [Option.any_some, hopened.braced, hopened.endsAtBlankLine, ← Bool.and_assoc]
      split
      · refine ⟨_, ?_, .outside _⟩
        rw [ByteReader.closed, hopened.close?_eq hdocument]
        rfl
      · exact hpass

/-- A byte at which nothing begins and nothing ends. -/
structure IsPlain (c : Char) : Prop where
  sign : c ≠ '#'
  quote : c ≠ '"'
  openBrace : c ≠ '\x7b'
  closeBrace : c ≠ '\x7d'
  newline : c ≠ '\n'
  start : isIdentStart c = false

theorem isPlain_of_le_toNat {c : Char} (hc : 128 ≤ c.toNat) : IsPlain c where
  sign := ne_of_toNat_lt hc (by decide)
  quote := ne_of_toNat_lt hc (by decide)
  openBrace := ne_of_toNat_lt hc (by decide)
  closeBrace := ne_of_toNat_lt hc (by decide)
  newline := ne_of_toNat_lt hc (by decide)
  start := by
    by_contra hstart
    have hlt := toNat_lt_of_isIdentRest
      (isIdentRest_of_isIdentStart (Bool.eq_true_of_not_eq_false hstart))
    omega

theorem step?_of_drop {c : Char} {more : List Char}
    (hdrop : (source document).drop byteReader.index = c :: more) :
    byteReader.step? document =
      if c = '#' then
        byteReader.moved (skipWhile (· ≠ '\n') (source document) byteReader.index)
      else if c = '"' then byteReader.moved (stringEnd (source document) byteReader.index)
      else if c = '\x7b' then byteReader.openBrace
      else if c = '\x7d' then byteReader.closeBrace document
      else if c = '\n' then byteReader.newline document
      else if isIdentStart c then byteReader.word document
      else byteReader.moved (byteReader.index + 1) := by
  have hbyte : (source document)[byteReader.index]? = some c := by
    rw [← List.head?_drop, hdrop]
    rfl
  rw [ByteReader.step?, hbyte]
  rfl

/-- The bytes of a character at which nothing begins or ends are read one by one. -/
theorem run?_plain {plain rest : List Char} (hplain : ∀ c ∈ plain, IsPlain c)
    (hdrop : (source document).drop byteReader.index = plain ++ rest) :
    byteReader.run? document =
      ByteReader.run? { byteReader with index := byteReader.index + plain.length } document := by
  induction plain generalizing byteReader with
  | nil => rfl
  | cons c plain ih =>
      obtain ⟨hc, hplain⟩ := List.forall_mem_cons.1 hplain
      have hstep : byteReader.step? document = byteReader.moved (byteReader.index + 1) := by
        rw [step?_of_drop hdrop, if_neg hc.sign, if_neg hc.quote, if_neg hc.openBrace,
          if_neg hc.closeBrace, if_neg hc.newline, if_neg (by simp [hc.start])]
      have hnext : (source document).drop (byteReader.index + 1) = plain ++ rest := by
        rw [← List.drop_drop, hdrop]
        rfl
      have hindex : byteReader.index + 1 + plain.length =
          byteReader.index + (c :: plain).length := by
        rw [List.length_cons]
        omega
      rw [ByteReader.run?_of_step? hstep, ih hplain hnext, hindex]
      simp only [List.nil_append, Option.map_id']

theorem exists_literal_eq {text literal : List Char} (h : .quoted literal ∈ lexemes text) :
    ∃ more, literal = '"' :: more := by
  obtain ⟨piece, -, hpiece⟩ := List.mem_map.1 h
  cases piece with
  | kept c => cases hpiece
  | span text =>
      simp only [Lexeme.ofPiece] at hpiece
      split at hpiece
      · cases hpiece
      · next more =>
        cases hpiece
        exact ⟨more, rfl⟩
      · cases hpiece

section Step

variable (h : StandsAt done reader byteReader)
include h

theorem StandsAt.drop_eq (hdocument : lexemes document.toList = done ++ lexeme :: ahead) :
    (source document).drop byteReader.index = octets (lexeme.text ++ written ahead) := by
  rw [h.index_eq]
  exact drop_source hdocument

theorem StandsAt.answers_comment {text : List Char}
    (hdocument : lexemes document.toList = done ++ .comment text :: ahead) :
    Answers (done ++ [.comment text]) (reader.pass (.comment text))
      (byteReader.step? document) := by
  obtain ⟨hends, hproper⟩ := lexemes_at hdocument
  obtain ⟨body, hbody, rfl⟩ := hproper (by rintro _ ⟨⟩)
  have hdrop := h.drop_eq hdocument
  have hline : ∀ c ∈ '#' :: body, decide (c ≠ '\n') = true := by
    intro c hc
    refine decide_eq_true ?_
    rintro rfl
    rcases List.mem_cons.1 hc with hsign | hmem
    · cases hsign
    · exact hbody hmem
  have hrest : ∀ c ∈ (written ahead).head?, decide (c ≠ '\n') = false := fun c hc =>
    decide_eq_false (not_not_intro (hends c hc))
  have hstop := skipWhile_eq_octets asciiClass_line hdrop hline hrest
  have hbegins : octets ('#' :: body ++ written ahead) = '#' :: octets (body ++ written ahead) :=
    octets_cons_ascii (by decide) _
  have hpass := h.answers_pass (.comment ('#' :: body))
  rw [offset_concat, ← h.index_eq] at hpass
  rw [Lexeme.text, hbegins] at hdrop
  rw [step?_of_drop hdrop, if_pos rfl, hstop]
  exact hpass

theorem StandsAt.answers_quoted {text : List Char}
    (hdocument : lexemes document.toList = done ++ .quoted text :: ahead) :
    Answers (done ++ [.quoted text]) (reader.pass (.quoted text))
      (byteReader.step? document) := by
  obtain ⟨body, rfl⟩ : ∃ body, text = '"' :: body := exists_literal_eq (by rw [hdocument]; simp)
  have hlexemes := lexemes_written_of_append hdocument
  have hdrop := h.drop_eq hdocument
  have hstop := stringEnd_eq_octets hlexemes hdrop
  have hbegins : octets ('"' :: body ++ written ahead) = '"' :: octets (body ++ written ahead) :=
    octets_cons_ascii (by decide) _
  have hpass := h.answers_pass (.quoted ('"' :: body))
  rw [offset_concat, ← h.index_eq] at hpass
  rw [Lexeme.text, hbegins] at hdrop
  rw [step?_of_drop hdrop, if_neg (by decide), if_pos rfl, hstop]
  exact hpass

theorem StandsAt.answers_step_word {text : List Char}
    (hdocument : lexemes document.toList = done ++ .word text :: ahead) :
    Answers (done ++ [.word text]) (reader.word text) (byteReader.step? document) := by
  have hword : isIdentifier text = true := proper_of_isSkipped hdocument rfl
  obtain ⟨c, more, rfl⟩ := List.exists_cons_of_ne_nil (l := text) (by rintro rfl; cases hword)
  obtain ⟨hstart, -⟩ := Bool.and_eq_true_iff.1 hword
  have hne : ∀ d : Char, isIdentStart d = false → c ≠ d := by
    rintro d hd rfl
    rw [hd] at hstart
    cases hstart
  have hdrop := h.drop_eq hdocument
  rw [Lexeme.text, List.cons_append,
    octets_cons_ascii (toNat_lt_of_isIdentRest (isIdentRest_of_isIdentStart hstart))] at hdrop
  rw [step?_of_drop hdrop, if_neg (hne _ rfl), if_neg (hne _ rfl), if_neg (hne _ rfl),
    if_neg (hne _ rfl), if_neg (hne _ rfl), if_pos hstart]
  exact h.answers_word hdocument

/-- A brace or the end of a line. -/
theorem StandsAt.answers_step_single {c : Char} (hc : c = '\x7b' ∨ c = '\x7d' ∨ c = '\n')
    (hdocument : lexemes document.toList = done ++ .single c :: ahead) :
    Answers (done ++ [.single c]) (reader.step ahead (.single c)) (byteReader.step? document) := by
  have hdrop := h.drop_eq hdocument
  have hascii : c.toNat < 128 := by
    rcases hc with rfl | rfl | rfl <;> decide
  rw [Lexeme.text, List.singleton_append, octets_cons_ascii hascii] at hdrop
  rw [step?_of_drop hdrop]
  rcases hc with rfl | rfl | rfl
  · exact h.answers_openBrace
  · exact h.answers_closeBrace hdocument
  · exact h.answers_newline hdocument

/-- Any other character. -/
theorem StandsAt.exists_run?_single {c : Char} (hc : ¬ (c = '\x7b' ∨ c = '\x7d' ∨ c = '\n'))
    (hdocument : lexemes document.toList = done ++ .single c :: ahead) :
    ∃ next, StandsAt (done ++ [.single c]) (reader.pass (.single c)).2 next ∧
      byteReader.run? document = next.run? document := by
  obtain ⟨hsign, hquote, hstart⟩ := proper_of_isSkipped hdocument rfl
  have hplain : ∀ d ∈ octets [c], IsPlain d := by
    intro d hd
    by_cases hascii : c.toNat < 128
    · rw [octets_singleton hascii, List.mem_singleton] at hd
      subst hd
      simp only [not_or] at hc
      exact ⟨hsign, hquote, hc.1, hc.2.1, hc.2.2, hstart⟩
    · exact isPlain_of_le_toNat (le_toNat_of_mem_octets (Nat.le_of_not_lt hascii) d hd)
  have hdrop := h.drop_eq hdocument
  rw [octets_append] at hdrop
  obtain ⟨next, hmoved, hnext⟩ := h.answers_pass (.single c)
  rw [offset_concat, ← h.index_eq] at hmoved
  obtain ⟨-, rfl⟩ := Prod.mk.inj (Option.some.inj hmoved)
  exact ⟨_, hnext, run?_plain hplain hdrop⟩

end Step

theorem Answers.exists_run?_eq {out : Option Opened × Reader}
    (h : Answers done out (byteReader.step? document)) :
    ∃ next, StandsAt done out.2 next ∧
      byteReader.run? document =
        (next.run? document).map (out.1.toList.map Opened.chunk ++ ·) := by
  obtain ⟨next, hstep, hnext⟩ := h
  exact ⟨next, hnext, ByteReader.run?_of_step? hstep⟩

/-- One lexeme takes both readers on, and they hand out the same. -/
theorem StandsAt.exists_run?_eq (h : StandsAt done reader byteReader)
    (hdocument : lexemes document.toList = done ++ lexeme :: ahead) :
    ∃ next, StandsAt (done ++ [lexeme]) (reader.step ahead lexeme).2 next ∧
      byteReader.run? document = (next.run? document).map
        ((reader.step ahead lexeme).1.toList.map Opened.chunk ++ ·) := by
  cases lexeme with
  | comment text => exact (h.answers_comment hdocument).exists_run?_eq
  | quoted text => exact (h.answers_quoted hdocument).exists_run?_eq
  | word text => exact (h.answers_step_word hdocument).exists_run?_eq
  | single c =>
      by_cases hc : c = '\x7b' ∨ c = '\x7d' ∨ c = '\n'
      · exact (h.answers_step_single hc hdocument).exists_run?_eq
      · obtain ⟨next, hnext, hrun⟩ := h.exists_run?_single hc hdocument
        simp only [not_or] at hc
        have hstep : reader.step ahead (.single c) = reader.pass (.single c) := by
          rw [Reader.step, if_neg hc.1, if_neg hc.2.1, if_neg hc.2.2]
        rw [hstep]
        exact ⟨next, hnext, by simpa [Reader.pass] using hrun⟩

/-- The reader of bytes hands out the chunks that the reader of lexemes does. -/
theorem StandsAt.run?_eq_some (h : StandsAt done reader byteReader)
    (hdocument : lexemes document.toList = done ++ row) :
    byteReader.run? document = some ((reader.declarations row).map Opened.chunk) := by
  induction row generalizing done reader byteReader with
  | nil =>
      have hlength : (source document).length = offset done :=
        length_source (by rw [hdocument, List.append_nil])
      rw [ByteReader.run?_of_le (by rw [hlength, h.index_eq]), hlength]
      cases h with
      | outside depth => rfl
      | inside hopened depth => exact hopened.close?_eq hdocument
  | cons lexeme ahead ih =>
      obtain ⟨next, hnext, hrun⟩ := h.exists_run?_eq hdocument
      rw [hrun, ih hnext (by rw [hdocument, List.append_assoc, List.singleton_append]),
        Reader.declarations]
      generalize reader.step ahead lexeme = out
      obtain ⟨_ | ended, after⟩ := out <;> rfl

end Places

theorem utf8ByteSize_eq (document : String) :
    document.utf8ByteSize = (source document).length := by
  rw [source_eq, length_octets, ← String.utf8ByteSize_ofList, String.ofList_toList]

theorem isSome_slice?_iff (document : String) (start stop : Nat) :
    (slice? document start stop).isSome = true ↔
      start ≤ stop ∧ stop ≤ document.utf8ByteSize ∧ IsBoundary document start ∧
        IsBoundary document stop := by
  rw [slice?]
  split
  · next h =>
    have hle : stop ≤ document.utf8ByteSize := h.2.2.le_rawEndPos
    simp [h, hle]
  · next h =>
    simp only [Option.isSome_none, Bool.false_eq_true, false_iff]
    exact fun hslice => h ⟨hslice.1, hslice.2.2⟩

/-- Reading a document by its bytes never fails. A slice can be taken between two positions in the
document of which none is inside of a character and the second is not in front of the first; every
reader that the reader of a document becomes takes its slices, and goes on by at least one byte and
never behind the document. What comes out are the chunks of the document. -/
theorem byteChunks?_eq_some (document : String) :
    (∀ start stop, (slice? document start stop).isSome = true ↔
      start ≤ stop ∧ stop ≤ document.utf8ByteSize ∧ IsBoundary document start ∧
        IsBoundary document stop) ∧
    (∀ reader, ByteReader.Reached document reader →
      reader.index ≤ document.utf8ByteSize ∧
        (reader.index < document.utf8ByteSize →
          ∃ ended next, reader.step? document = some (ended, next) ∧
            reader.index < next.index ∧ next.index ≤ document.utf8ByteSize)) ∧
    byteChunks? document = some (chunks document.toList) := by
  have hstart : StandsAt [] Reader.start ByteReader.start := .outside 0
  have hchunks : byteChunks? document = some (chunks document.toList) :=
    hstart.run?_eq_some (List.nil_append _).symm
  refine ⟨isSome_slice?_iff document, fun reader hreached => ?_, hchunks⟩
  rw [utf8ByteSize_eq]
  refine ⟨hreached.index_le, fun hindex => ?_⟩
  obtain ⟨ended, next, hstep⟩ := hreached.exists_step? (by rw [← byteChunks?, hchunks]; rfl) hindex
  exact ⟨ended, next, hstep, ByteReader.lt_index_of_step? hstep⟩

/-- A document with characters of more than one byte, one of them behind a backslash, and a string
that nothing closes. -/
theorem byteChunks?_eq_some_escaped :
    ∃ document : String, document = "ü type A \x7b s: \"\\é\" \x7d enum É \"\"\"\\" ∧
      byteChunks? document =
        some ["type A \x7b s: \"\\é\" \x7d".toList, "enum É \"\"\"\\".toList] ∧
      (slice? document 3 7).isSome = true ∧ (slice? document 1 7).isSome = false ∧
      ∃ ended next, ByteReader.start.step? document = some (ended, next) ∧
        0 < next.index ∧ next.index ≤ document.utf8ByteSize := by
  obtain ⟨hslice, hreached, hchunks⟩ :=
    byteChunks?_eq_some "ü type A \x7b s: \"\\é\" \x7d enum É \"\"\"\\"
  refine ⟨_, rfl, hchunks.trans (by decide +kernel), (hslice 3 7).2 (by decide +kernel), ?_,
    (hreached _ .start).2 (by decide +kernel)⟩
  rw [Bool.eq_false_iff, Ne, hslice]
  decide +kernel

end ModelGraph.Document
