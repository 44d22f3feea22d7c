import ModelGraph.Proofs.Document.Alone
import ModelGraph.Proofs.Text.Octets
import ModelGraph.Proofs.Text.Skip

/-! # Reading a document by its bytes

The reader of declarations as it goes over the bytes of a document: it keeps positions, and takes
texts out of the document between two of them. That fails where a position is inside of a character
or the second is in front of the first, and so does reading a byte behind the last one. Each step
takes the reader on, and never behind the document (`ByteReader.lt_index_of_step?`), although a
backslash takes the byte behind it with it, which may be missing or be the first of many. -/

namespace ModelGraph.Document

open Text

/-- The bytes of a document, each as the character of its number. -/
def source (document : String) : List Char :=
  (bytes document).map Char.ofUInt8

/-- No character of the document has bytes on both sides of the position. -/
def IsBoundary (document : String) (position : Nat) : Prop :=
  (⟨position⟩ : String.Pos.Raw).IsValid document

instance (document : String) (position : Nat) : Decidable (IsBoundary document position) :=
  inferInstanceAs (Decidable ((⟨position⟩ : String.Pos.Raw).IsValid document))

/-- A part of a document. -/
structure Slice (document : String) where
  start : Nat
  stop : Nat
  start_le_stop : start ≤ stop
  startBoundary : IsBoundary document start
  stopBoundary : IsBoundary document stop

/-- The part of a document between two positions, if there is one. -/
def slice? (document : String) (start stop : Nat) : Option (Slice document) :=
  if h : start ≤ stop ∧ IsBoundary document start ∧ IsBoundary document stop then
    some ⟨start, stop, h.1, h.2.1, h.2.2⟩
  else none

/-- What the document says there. -/
def Slice.text {document : String} (slice : Slice document) : List Char :=
  (String.Pos.Raw.extract document ⟨slice.start⟩ ⟨slice.stop⟩).toList

section Skip

/-- Three quotes stand at the position. -/
def hasQuotes (source : List Char) (index : Nat) : Bool :=
  blockQuotes.isPrefixOf (source.drop index)

/-- The position behind a block string of which the opening quotes have been read. -/
def blockEnd (source : List Char) (index : Nat) : Nat :=
  if h : index < source.length then
    if source[index] = '\\' then blockEnd source (index + 2)
    else if hasQuotes source index then index + 3
    else blockEnd source (index + 1)
  else source.length
termination_by source.length - index

/-- The position behind a string on one line of which the opening quote has been read. -/
def lineEnd (source : List Char) (index : Nat) : Nat :=
  if h : index < source.length then
    if source[index] = '\\' then lineEnd source (index + 2)
    else if source[index] = '"' then index + 1
    else if source[index] = '\n' then index
    else lineEnd source (index + 1)
  else source.length
termination_by source.length - index

/-- The position behind a string that begins at the position. -/
def stringEnd (source : List Char) (index : Nat) : Nat :=
  if hasQuotes source index then blockEnd source (index + 3) else lineEnd source (index + 1)

/-- The blanks that a blank line may have. -/
def isLineGap (c : Char) : Bool :=
  c == ' ' || c == '\t' || c == '\r'

/-- From the position on the line is blank, or the document at its end. -/
def lineBlank (source : List Char) (index : Nat) : Bool :=
  let stop := skipWhile isLineGap source index
  source.length ≤ stop || source[stop]? == some '\n'

end Skip

/-- A declaration that is being read, from the position at which it starts. -/
structure ByteOpened where
  start : Nat
  braced : Bool
  endsAtBlankLine : Bool
  awaitsWord : Bool
  deriving DecidableEq, Repr

/-- A declaration that opens with a word. -/
def ByteOpened.atWord (start : Nat) (word : List Char) : ByteOpened where
  start := start
  braced := false
  endsAtBlankLine :=
    !keywords.contains (String.ofList word) || bracelessKeywords.contains (String.ofList word)
  awaitsWord := String.ofList word == "extend"

/-- Where a reader stands that goes over bytes. -/
structure ByteReader where
  index : Nat
  opened : Option ByteOpened
  depth : Nat
  deriving DecidableEq, Repr

/-- What a reader hands out in one step, and where it stands then; nothing if the step fails. -/
abbrev ByteStep :=
  Option (List (List Char) × ByteReader)

/-- The text of the declaration that is open, if it ends at the position. -/
def close? (document : String) (opened : Option ByteOpened) (stop : Nat) :
    Option (List (List Char)) :=
  match opened with
  | none => some []
  | some opened =>
      (slice? document opened.start stop).map fun slice =>
        if (trim slice.text).isEmpty then [] else [trim slice.text]

namespace ByteReader

/-- The reader before the first byte. -/
def start : ByteReader := ⟨0, none, 0⟩

/-- Read on from a position. -/
def moved (reader : ByteReader) (index : Nat) : ByteStep :=
  some ([], { reader with index := index })

/-- End the declaration that is open at a position. -/
def closed (reader next : ByteReader) (document : String) (stop : Nat) : ByteStep :=
  (close? document reader.opened stop).map fun ended => (ended, next)

/-- Read an identifier. -/
def word (reader : ByteReader) (document : String) : ByteStep :=
  let stop := skipWhile isIdentRest (source document) reader.index
  if 0 < reader.depth then reader.moved stop
  else
    (slice? document reader.index stop).bind fun slice =>
      let next : ByteReader :=
        { reader with index := stop, opened := some (.atWord reader.index slice.text) }
      match reader.opened with
      | none => some ([], next)
      | some opened =>
          if opened.awaitsWord then
            some ([], { next with opened := some { opened with awaitsWord := false } })
          else if keywords.contains (String.ofList slice.text) then
            reader.closed next document reader.index
          else reader.moved stop

/-- Read an opening brace. -/
def openBrace (reader : ByteReader) : ByteStep :=
  let opened :=
    match reader.opened with
    | some opened => some { opened with braced := true }
    | none =>
        if reader.depth = 0 then
          some { ByteOpened.atWord reader.index ['\x7b'] with braced := true }
        else none
  some ([], ⟨reader.index + 1, opened, reader.depth + 1⟩)

/-- Read a closing brace. -/
def closeBrace (reader : ByteReader) (document : String) : ByteStep :=
  let depth := reader.depth - 1
  if depth = 0 && reader.opened.any (·.braced) then
    reader.closed ⟨reader.index + 1, none, depth⟩ document (reader.index + 1)
  else some ([], ⟨reader.index + 1, reader.opened, depth⟩)

/-- Read the end of a line. -/
def newline (reader : ByteReader) (document : String) : ByteStep :=
  if reader.depth = 0 &&
      reader.opened.any (fun opened => !opened.braced && opened.endsAtBlankLine) &&
        lineBlank (source document) (reader.index + 1) then
    reader.closed ⟨reader.index + 1, none, reader.depth⟩ document reader.index
  else reader.moved (reader.index + 1)

/-- Read what begins with the byte at which the reader stands. -/
def step? (reader : ByteReader) (document : String) : ByteStep :=
  (source document)[reader.index]?.bind fun c =>
    if c = '#' then reader.moved (skipWhile (· ≠ '\n') (source document) reader.index)
    else if c = '"' then reader.moved (stringEnd (source document) reader.index)
    else if c = '\x7b' then reader.openBrace
    else if c = '\x7d' then reader.closeBrace document
    else if c = '\n' then reader.newline document
    else if isIdentStart c then reader.word document
    else reader.moved (reader.index + 1)

end ByteReader

section Positions

variable {source : List Char} {index : Nat}

theorem hasQuotes_iff : hasQuotes source index = true ↔ blockQuotes <+: source.drop index :=
  List.isPrefixOf_iff_prefix

theorem blockEnd_of_le (h : source.length ≤ index) : blockEnd source index = source.length := by
  rw [blockEnd, dif_neg (by omega)]

theorem lineEnd_of_le (h : source.length ≤ index) : lineEnd source index = source.length := by
  rw [lineEnd, dif_neg (by omega)]

/-- A block string ends in the document, also if a backslash at its end takes more than there is. -/
theorem blockEnd_eq (h : index ≤ source.length) :
    blockEnd source index = index + blockLength (source.drop index) := by
  fun_induction blockEnd source index with
  | case1 index hlt hslash ih =>
      rw [List.drop_eq_getElem_cons hlt, hslash]
      by_cases hnext : index + 1 < source.length
      · have hrest : source.drop (index + 1) = source[index + 1] :: source.drop (index + 2) :=
          List.drop_eq_getElem_cons hnext
        rw [ih (by omega), hrest, blockLength]
        omega
      · rw [blockEnd_of_le (by omega), List.drop_eq_nil_of_le (by omega), blockLength]
        omega
  | case2 index hlt hslash hquotes =>
      obtain ⟨rest, hrest⟩ := hasQuotes_iff.1 hquotes
      rw [← hrest]
      rfl
  | case3 index hlt hslash hquotes ih =>
      have hfront : ¬ blockQuotes <+: source[index] :: source.drop (index + 1) := by
        rwa [← List.drop_eq_getElem_cons hlt, ← hasQuotes_iff]
      rw [ih (by omega), List.drop_eq_getElem_cons hlt, blockLength_plain hslash hfront]
      omega
  | case4 index hlt =>
      rw [List.drop_eq_nil_of_le (by omega), blockLength]
      omega

/-- The same holds of a string on one line. -/
theorem lineEnd_eq (h : index ≤ source.length) :
    lineEnd source index = index + lineLength (source.drop index) := by
  fun_induction lineEnd source index with
  | case1 index hlt hslash ih =>
      rw [List.drop_eq_getElem_cons hlt, hslash]
      by_cases hnext : index + 1 < source.length
      · have hrest : source.drop (index + 1) = source[index + 1] :: source.drop (index + 2) :=
          List.drop_eq_getElem_cons hnext
        rw [ih (by omega), hrest, lineLength]
        omega
      · rw [lineEnd_of_le (by omega), List.drop_eq_nil_of_le (by omega), lineLength]
        omega
  | case2 index hlt hslash hquote =>
      rw [List.drop_eq_getElem_cons hlt, hquote, lineLength]
  | case3 index hlt hslash hquote hline =>
      rw [List.drop_eq_getElem_cons hlt, hline, lineLength]
      rfl
  | case4 index hlt hslash hquote hline ih =>
      rw [ih (by omega), List.drop_eq_getElem_cons hlt, lineLength_plain hslash hquote hline]
      omega
  | case5 index hlt =>
      rw [List.drop_eq_nil_of_le (by omega), lineLength]
      omega

/-- A string is as long in the bytes as the lexeme that begins with its quote. -/
theorem exists_stringEnd_eq {more : List Char} (h : source.drop index = '"' :: more) :
    ∃ n, longLexeme? ('"' :: more) = some (n + 1) ∧ n ≤ more.length ∧
      stringEnd source index = index + (n + 1) := by
  have hlength := congrArg List.length h
  rw [List.length_drop, List.length_cons] at hlength
  have hdrop : ∀ n, source.drop (index + (n + 1)) = more.drop n := by
    intro n
    rw [← List.drop_drop, h, List.drop_succ_cons]
  have hstring : ∃ n, longLexeme? ('"' :: more) = some (n + 1) ∧
      stringEnd source index = index + (n + 1) := by
    by_cases hquotes : hasQuotes source index = true
    · obtain ⟨body, hbody⟩ := hasQuotes_iff.1 hquotes
      rw [h] at hbody
      obtain rfl : '"' :: '"' :: body = more := (List.cons.inj hbody).2
      refine ⟨blockLength body + 2, rfl, ?_⟩
      rw [List.length_cons, List.length_cons] at hlength
      have hbody : source.drop (index + 3) = body := hdrop 2
      rw [stringEnd, if_pos hquotes, blockEnd_eq (by omega), hbody]
      omega
    · have hblock : ∀ body, more ≠ '"' :: '"' :: body := by
        rintro body rfl
        exact hquotes (hasQuotes_iff.2 ⟨body, h.symm⟩)
      have hmore : source.drop (index + 1) = more := hdrop 0
      refine ⟨lineLength more, longLexeme?_line hblock, ?_⟩
      rw [stringEnd, if_neg hquotes, lineEnd_eq (by omega), hmore]
      omega
  obtain ⟨n, hn, hend⟩ := hstring
  obtain ⟨k, hk⟩ := longLexeme?_quote_take more
  have hspan := hk more.length
  rw [List.take_length, hn, Option.some.injEq] at hspan
  exact ⟨n, hn, by omega, hend⟩

theorem lt_stringEnd (h : index < source.length) (hquote : source[index] = '"') :
    index < stringEnd source index ∧ stringEnd source index ≤ source.length := by
  have hdrop := List.drop_eq_getElem_cons h
  rw [hquote] at hdrop
  obtain ⟨n, -, hn, hend⟩ := exists_stringEnd_eq hdrop
  rw [List.length_drop] at hn
  omega

end Positions

namespace ByteReader

variable {document : String} {reader next : ByteReader} {ended : List (List Char)} {position : Nat}

theorem index_of_moved (h : reader.moved position = some (ended, next)) :
    next.index = position := by
  obtain ⟨-, rfl⟩ := Prod.mk.inj (Option.some.inj h)
  rfl

theorem index_of_closed {after : ByteReader}
    (h : reader.closed after document position = some (ended, next)) :
    next.index = after.index := by
  obtain ⟨_, -, heq⟩ := Option.map_eq_some_iff.1 h
  rw [(Prod.mk.inj heq).2]

theorem index_of_word (h : reader.word document = some (ended, next)) :
    next.index = skipWhile isIdentRest (source document) reader.index := by
  rw [word] at h
  split at h
  · exact index_of_moved h
  · obtain ⟨slice, -, h⟩ := Option.bind_eq_some_iff.1 h
    simp only at h
    split at h
    · obtain ⟨-, rfl⟩ := Prod.mk.inj (Option.some.inj h)
      rfl
    · split at h
      · obtain ⟨-, rfl⟩ := Prod.mk.inj (Option.some.inj h)
        rfl
      · split at h
        · exact index_of_closed h
        · exact index_of_moved h

theorem index_of_openBrace (h : reader.openBrace = some (ended, next)) :
    next.index = reader.index + 1 := by
  obtain ⟨-, rfl⟩ := Prod.mk.inj (Option.some.inj h)
  rfl

theorem index_of_closeBrace (h : reader.closeBrace document = some (ended, next)) :
    next.index = reader.index + 1 := by
  simp only [closeBrace] at h
  split at h
  · exact index_of_closed h
  · obtain ⟨-, rfl⟩ := Prod.mk.inj (Option.some.inj h)
    rfl

theorem index_of_newline (h : reader.newline document = some (ended, next)) :
    next.index = reader.index + 1 := by
  rw [newline] at h
  split at h
  · exact index_of_closed h
  · exact index_of_moved h

/-- A step takes the reader on, and not behind the document. -/
theorem lt_index_of_step? (h : reader.step? document = some (ended, next)) :
    reader.index < next.index ∧ next.index ≤ (source document).length := by
  obtain ⟨c, hc, hstep⟩ := Option.bind_eq_some_iff.1 h
  obtain ⟨hlt, rfl⟩ := List.getElem?_eq_some_iff.1 hc
  split at hstep
  · next hsign =>
    rw [index_of_moved hstep]
    exact lt_skipWhile hlt (by simp [hsign])
  split at hstep
  · next hquote =>
    rw [index_of_moved hstep]
    exact lt_stringEnd hlt hquote
  split at hstep
  · rw [index_of_openBrace hstep]
    omega
  split at hstep
  · rw [index_of_closeBrace hstep]
    omega
  split at hstep
  · rw [index_of_newline hstep]
    omega
  split at hstep
  · next hstart =>
    rw [index_of_word hstep]
    exact lt_skipWhile hlt (isIdentRest_of_isIdentStart hstart)
  · rw [index_of_moved hstep]
    omega

/-- The texts of the declarations that a reader has ahead; nothing if a step fails. -/
def run? (reader : ByteReader) (document : String) : Option (List (List Char)) :=
  if reader.index < (source document).length then
    match _hstep : reader.step? document with
    | some (ended, next) => (next.run? document).map (ended ++ ·)
    | none => none
  else close? document reader.opened (source document).length
termination_by (source document).length - reader.index
decreasing_by
  have hadvances := lt_index_of_step? _hstep
  omega

theorem index_lt_of_step? (h : reader.step? document = some (ended, next)) :
    reader.index < (source document).length := by
  obtain ⟨c, hc, -⟩ := Option.bind_eq_some_iff.1 h
  exact (List.getElem?_eq_some_iff.1 hc).1

theorem run?_of_step? (h : reader.step? document = some (ended, next)) :
    reader.run? document = (next.run? document).map (ended ++ ·) := by
  rw [run?, if_pos (index_lt_of_step? h)]
  split
  · next hstep =>
    rw [h] at hstep
    cases hstep
    rfl
  · next hstep =>
    rw [h] at hstep
    cases hstep

theorem run?_of_le (h : (source document).length ≤ reader.index) :
    reader.run? document = close? document reader.opened (source document).length := by
  rw [run?, if_neg (by omega)]

/-- The readers that the reader of a document becomes. -/
inductive Reached (document : String) : ByteReader → Prop
  | start : Reached document start
  | step {reader next : ByteReader} {ended : List (List Char)} (h : Reached document reader)
      (hstep : reader.step? document = some (ended, next)) : Reached document next

theorem Reached.index_le (h : Reached document reader) :
    reader.index ≤ (source document).length := by
  cases h with
  | start => exact Nat.zero_le _
  | step _ hstep => exact (lt_index_of_step? hstep).2

/-- If the reader of a document never fails, none of those that it becomes does. -/
theorem Reached.exists_step? (h : Reached document reader)
    (hrun : (ByteReader.start.run? document).isSome = true)
    (hindex : reader.index < (source document).length) :
    ∃ ended next, reader.step? document = some (ended, next) := by
  have hsome : (reader.run? document).isSome = true := by
    clear hindex
    induction h with
    | start => exact hrun
    | step _ hstep ih =>
        rw [run?_of_step? hstep, Option.isSome_map] at ih
        exact ih
  rw [run?, if_pos hindex] at hsome
  split at hsome
  · next ended next hstep => exact ⟨ended, next, hstep⟩
  · cases hsome

end ByteReader

/-- The chunks of a document, in order, if no step fails. -/
def byteChunks? (document : String) : Option (List (List Char)) :=
  ByteReader.start.run? document

end ModelGraph.Document
