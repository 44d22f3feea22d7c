import ModelGraph.Proofs.Document.ByteReader

/-! # What is skipped in the bytes

Where a text begins in the bytes of a document, whatever the reader skips at once is as long as the
lexeme in front of the text: a run of characters of a class (`skipWhile_eq_octets`), and a string,
in which a backslash takes one byte with it and not the whole character (`stringEnd_eq_octets`).
The ends of parts of the document are no positions inside of characters
(`isBoundary_of_append`). -/

namespace ModelGraph.Document

open Text Written

theorem source_eq (document : String) : source document = octets document.toList :=
  (octets_toList document).symm

section Slices

variable {document : String} {front text rest : List Char}

/-- The end of a first part of a document is no position inside of a character. -/
theorem isBoundary_of_append (h : document.toList = front ++ rest) :
    IsBoundary document (octets front).length := by
  refine String.Pos.Raw.isValid_iff_exists_append.2
    ⟨String.ofList front, String.ofList rest, ?_, ?_⟩
  · rw [← String.ofList_append, ← h, String.ofList_toList]
  · rw [String.rawEndPos_ofList, length_octets]

/-- The part of a document between two parts of it is what stands there. -/
theorem exists_slice?_eq (h : document.toList = front ++ (text ++ rest)) :
    ∃ slice, slice? document (octets front).length (octets (front ++ text)).length = some slice ∧
      slice.text = text := by
  have hstop : document.toList = front ++ text ++ rest := by rw [h, List.append_assoc]
  have hle : (octets front).length ≤ (octets (front ++ text)).length := by
    rw [octets_append, List.length_append]
    omega
  refine ⟨_, dif_pos ⟨hle, isBoundary_of_append h, isBoundary_of_append hstop⟩, ?_⟩
  have hextract := String.extract_of_valid front text rest
  rw [← hstop, String.ofList_toList] at hextract
  rw [Slice.text]
  simp only [octets_append, List.length_append, length_octets]
  rw [hextract, String.toList_ofList]

end Slices

section Skipping

theorem blockLength_append_octets {high : List Char} (h : ∀ c ∈ high, 128 ≤ c.toNat)
    (rest : List Char) : blockLength (high ++ rest) = high.length + blockLength rest := by
  induction high with
  | nil => simp
  | cons c high ih =>
      obtain ⟨hc, hhigh⟩ := List.forall_mem_cons.1 h
      have hslash : c ≠ '\\' := ne_of_toNat_lt hc (by decide)
      have hquote : c ≠ '"' := ne_of_toNat_lt hc (by decide)
      have hquotes : ¬ blockQuotes <+: c :: (high ++ rest) := fun hbegin =>
        hquote (List.cons_prefix_cons.1 hbegin).1.symm
      rw [List.cons_append, blockLength_plain hslash hquotes, ih hhigh, List.length_cons]
      omega

theorem lineLength_append_octets {high : List Char} (h : ∀ c ∈ high, 128 ≤ c.toNat)
    (rest : List Char) : lineLength (high ++ rest) = high.length + lineLength rest := by
  induction high with
  | nil => simp
  | cons c high ih =>
      obtain ⟨hc, hhigh⟩ := List.forall_mem_cons.1 h
      have hslash : c ≠ '\\' := ne_of_toNat_lt hc (by decide)
      have hquote : c ≠ '"' := ne_of_toNat_lt hc (by decide)
      have hline : c ≠ '\n' := ne_of_toNat_lt hc (by decide)
      rw [List.cons_append, lineLength_plain hslash hquote hline, ih hhigh, List.length_cons]
      omega

/-- In the bytes a block string ends where it ends in the text: a backslash takes one byte with it,
and the others of that character are none that could end the string. -/
theorem blockLength_octets (text : List Char) :
    blockLength (octets text) = (octets (text.take (blockLength text))).length := by
  induction text using blockLength_induction with
  | nil | lone => rfl
  | escaped c rest ih =>
      obtain ⟨d, more, heq, hmore, -⟩ := exists_octets_eq c
      rw [octets_cons_ascii (by decide), octets_cons, heq, List.cons_append, blockLength,
        blockLength_append_octets hmore, ih, blockLength, List.take_succ_cons,
        List.take_succ_cons, octets_cons_ascii (by decide), octets_cons c, heq]
      simp
  | quotes rest =>
      rw [octets_append]
      rfl
  | plain c rest hslash hquotes ih =>
      rw [blockLength_plain hslash hquotes, List.take_succ_cons, octets_cons c rest,
        octets_cons c (rest.take _), List.length_append, ← ih]
      by_cases hc : c.toNat < 128
      · have hfront : ¬ blockQuotes <+: c :: octets rest := by
          rwa [← octets_cons_ascii hc, isPrefix_octets_iff (by simp [blockQuotes])]
        rw [octets_singleton hc, List.singleton_append, blockLength_plain hslash hfront]
        exact Nat.add_comm _ _
      · exact blockLength_append_octets (le_toNat_of_mem_octets (Nat.le_of_not_lt hc)) _

/-- In the bytes a string on one line ends where it ends in the text. -/
theorem lineLength_octets (text : List Char) :
    lineLength (octets text) = (octets (text.take (lineLength text))).length := by
  induction text using lineLength_induction with
  | nil | lone => rfl
  | newline rest | quote rest =>
      rw [octets_cons_ascii (by decide)]
      rfl
  | escaped c rest ih =>
      obtain ⟨d, more, heq, hmore, -⟩ := exists_octets_eq c
      rw [octets_cons_ascii (by decide), octets_cons, heq, List.cons_append, lineLength,
        lineLength_append_octets hmore, ih, lineLength, List.take_succ_cons,
        List.take_succ_cons, octets_cons_ascii (by decide), octets_cons c, heq]
      simp
  | plain c rest hslash hquote hline ih =>
      rw [lineLength_plain hslash hquote hline, List.take_succ_cons, octets_cons c rest,
        octets_cons c (rest.take _), List.length_append, ← ih]
      by_cases hc : c.toNat < 128
      · rw [octets_singleton hc, List.singleton_append, lineLength_plain hslash hquote hline]
        exact Nat.add_comm _ _
      · exact lineLength_append_octets (le_toNat_of_mem_octets (Nat.le_of_not_lt hc)) _

/-- The lexeme that begins with a quote is as long in the bytes. -/
theorem longLexeme?_octets {text : List Char} {n : Nat}
    (h : longLexeme? ('"' :: text) = some (n + 1)) :
    longLexeme? ('"' :: octets text) = some ((octets (text.take n)).length + 1) := by
  have hquotes : ∀ c ∈ ['"', '"'], c.toNat < 128 := by simp
  by_cases hblock : ['"', '"'] <+: text
  · obtain ⟨body, rfl⟩ := hblock
    obtain rfl : blockLength body + 2 = n := by
      have hspan : longLexeme? ('"' :: (['"', '"'] ++ body)) = some (blockLength body + 3) := rfl
      rw [hspan, Option.some.injEq] at h
      omega
    have htake : (['"', '"'] ++ body).take (blockLength body + 2) =
        ['"', '"'] ++ body.take (blockLength body) := rfl
    have hspan : longLexeme? ('"' :: (octets ['"', '"'] ++ octets body)) =
        some (blockLength (octets body) + 3) := rfl
    have htwo : (octets ['"', '"']).length = 2 := rfl
    rw [htake, octets_append, octets_append, hspan, blockLength_octets, List.length_append, htwo,
      Option.some.injEq]
    omega
  · have hchars : ∀ more, text ≠ '"' :: '"' :: more := by
      rintro more rfl
      exact hblock ⟨more, rfl⟩
    have hbytes : ∀ more, octets text ≠ '"' :: '"' :: more := fun more heq =>
      hblock ((isPrefix_octets_iff hquotes text).1 ⟨more, heq.symm⟩)
    rw [longLexeme?_line hchars, Option.some.injEq, Nat.add_right_cancel_iff] at h
    rw [longLexeme?_line hbytes, lineLength_octets, h]

variable {bytes text rest : List Char} {index : Nat}

/-- A string is skipped up to where its lexeme ends. -/
theorem stringEnd_eq_octets {literal : List Char} {ahead : List Lexeme}
    (h : lexemes ('"' :: text) = .quoted literal :: ahead)
    (hdrop : bytes.drop index = octets ('"' :: text)) :
    stringEnd bytes index = index + (octets literal).length := by
  have hquote : '"'.toNat < 128 := by decide
  obtain ⟨n, hn, -⟩ := exists_longLexeme?_quote text
  rw [octets_cons_ascii hquote] at hdrop
  obtain ⟨k, hk, -, hend⟩ := exists_stringEnd_eq hdrop
  rw [longLexeme?_octets hn, Option.some.injEq] at hk
  rw [lexemes, cut_of_some hn] at h
  obtain ⟨rfl, -⟩ : '"' :: text.take n = literal ∧ _ := by simpa [Lexeme.ofPiece] using h
  rw [hend, octets_cons_ascii hquote, List.length_cons, hk]

theorem asciiClass_isIdentRest : AsciiClass isIdentRest := by
  refine asciiClass_of_eq false fun c hc => ?_
  by_contra hrest
  have hlt := toNat_lt_of_isIdentRest (Bool.eq_true_of_not_eq_false hrest)
  omega

theorem asciiClass_isLineGap : AsciiClass isLineGap := by
  refine asciiClass_of_eq false fun c hc => ?_
  have hspace : c ≠ ' ' := ne_of_toNat_lt hc (by decide)
  have htab : c ≠ '\t' := ne_of_toNat_lt hc (by decide)
  have hreturn : c ≠ '\r' := ne_of_toNat_lt hc (by decide)
  simp [isLineGap, hspace, htab, hreturn]

theorem asciiClass_newline : AsciiClass (· == '\n') :=
  asciiClass_of_eq false fun _ hc => beq_eq_false_iff_ne.2 (ne_of_toNat_lt hc (by decide))

theorem asciiClass_line : AsciiClass (· ≠ '\n') :=
  asciiClass_of_eq true fun _ hc => decide_eq_true (ne_of_toNat_lt hc (by decide))

/-- What is in a class is skipped up to where it ends. -/
theorem skipWhile_eq_octets {p : Char → Bool} (hp : AsciiClass p)
    (hdrop : bytes.drop index = octets (text ++ rest)) (htext : ∀ c ∈ text, p c = true)
    (hrest : ∀ c ∈ rest.head?, p c = false) :
    skipWhile p bytes index = index + (octets text).length := by
  rw [skipWhile_eq, hdrop, takeWhile_octets hp, takeWhile_append_eq htext hrest]

theorem lexemes_lineGap {c : Char} (h : isLineGap c = true ∨ c = '\n') (rest : List Char) :
    lexemes (c :: rest) = .single c :: lexemes rest := by
  have hproper : (Lexeme.single c).Proper := by
    simp only [isLineGap, Bool.or_eq_true, beq_iff_eq] at h
    rcases h with ((rfl | rfl) | rfl) | rfl <;> exact ⟨by decide, by decide, rfl⟩
  exact lexemes_text_append hproper fun _ _ => trivial

theorem blankLineAhead_single (c : Char) (ahead : List Lexeme) :
    blankLineAhead (.single c :: ahead) = (c == '\n' || (isLineGap c && blankLineAhead ahead)) :=
  rfl

/-- The lexemes of a text begin with a blank line if the text does. -/
theorem blankLineAhead_lexemes (text : List Char) :
    blankLineAhead (lexemes text) = (text.dropWhile isLineGap).head?.all (· == '\n') := by
  induction text with
  | nil => rfl
  | cons c rest ih =>
      cases hgap : isLineGap c with
      | true =>
          have hline : (c == '\n') = false := by
            rw [beq_eq_false_iff_ne]
            rintro rfl
            cases hgap
          rw [lexemes_lineGap (.inl hgap), blankLineAhead_single, hgap, hline, ih,
            List.dropWhile_cons_of_pos hgap, Bool.true_and, Bool.false_or]
      | false =>
          rw [List.dropWhile_cons_of_neg (by simp [hgap]), List.head?_cons, Option.all_some]
          by_cases hline : c = '\n'
          · rw [lexemes_lineGap (.inr hline), blankLineAhead_single, hgap, Bool.false_and,
              Bool.or_false]
          · obtain ⟨lexeme, more, htext, hlexemes, -⟩ := exists_lexemes_eq c rest
            rw [hlexemes, beq_eq_false_iff_ne.2 hline]
            cases lexeme with
            | comment | quoted | word => rfl
            | single d =>
                obtain ⟨rfl, -⟩ := List.cons.inj htext
                rw [blankLineAhead_single, hgap, beq_eq_false_iff_ne.2 hline]
                rfl

/-- A blank line in the bytes is one in the text. -/
theorem lineBlank_eq_octets (hdrop : bytes.drop index = octets text) :
    lineBlank bytes index = blankLineAhead (lexemes text) := by
  have hsplit : octets text =
      octets (text.takeWhile isLineGap) ++ octets (text.dropWhile isLineGap) := by
    rw [← octets_append, List.takeWhile_append_dropWhile]
  have hstop : bytes[skipWhile isLineGap bytes index]? =
      (octets (text.dropWhile isLineGap)).head? := by
    rw [skipWhile_eq, ← List.head?_drop, ← List.drop_drop, hdrop,
      takeWhile_octets asciiClass_isLineGap, hsplit, List.drop_left]
  have hhead := head?_octets asciiClass_newline (text.dropWhile isLineGap)
  rw [← hstop] at hhead
  rw [blankLineAhead_lexemes]
  simp only [lineBlank]
  cases hbyte : bytes[skipWhile isLineGap bytes index]? with
  | none =>
      have hle := List.getElem?_eq_none_iff.1 hbyte
      rw [hbyte, Option.map_none] at hhead
      rw [Option.map_eq_none_iff.1 hhead.symm, decide_eq_true hle]
      rfl
  | some c =>
      have hlt := (List.getElem?_eq_some_iff.1 hbyte).1
      rw [hbyte, Option.map_some] at hhead
      obtain ⟨d, hd, hsame⟩ := Option.map_eq_some_iff.1 hhead.symm
      rw [hd, decide_eq_false (Nat.not_le_of_lt hlt), Bool.false_or, Option.all_some, hsame]
      rfl

end Skipping

end ModelGraph.Document
