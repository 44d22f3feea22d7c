import Mathlib.Data.List.Induction
import ModelGraph.Proofs.Document.Place

/-! # Chunks read alone

A chunk of a document, read as a document, is one chunk: itself (`split_of_mem_split`). Without the
text behind it its lexemes are the same, but for the last one, which may be a comment or an open
literal that got shorter; and a reader that has read up to a lexeme that is no blank has not looked
at what stands behind it. -/

namespace ModelGraph.Document

open Text Written

section Truncation

/-- If the text ends early, a block string runs to its end. -/
theorem blockLength_take (text : List Char) (n : Nat) :
    blockLength (text.take n) = min n (blockLength text) := by
  induction text using blockLength_induction generalizing n with
  | nil => simp [blockLength]
  | lone => cases n <;> simp [blockLength]
  | escaped c rest ih =>
      obtain _ | _ | n := n
      · simp [blockLength]
      · simp [blockLength]
      · simp only [List.take_succ_cons, blockLength, ih]
        omega
  | quotes rest => obtain _ | _ | _ | n := n <;> simp [blockQuotes, blockLength]
  | plain c rest hslash hquotes ih =>
      cases n with
      | zero => simp [blockLength]
      | succ n =>
          have hfront : ¬ blockQuotes <+: c :: rest.take n := fun hbegin =>
            hquotes (hbegin.trans ((List.prefix_cons_inj c).2 (List.take_prefix n rest)))
          rw [List.take_succ_cons, blockLength_plain hslash hfront, ih,
            blockLength_plain hslash hquotes]
          omega

/-- If the text ends early, a string runs to its end. -/
theorem lineLength_take (text : List Char) (n : Nat) :
    lineLength (text.take n) = min n (lineLength text) := by
  induction text using lineLength_induction generalizing n with
  | nil => simp [lineLength]
  | newline | quote | lone => cases n <;> simp [lineLength]
  | escaped c rest ih =>
      obtain _ | _ | n := n
      · simp [lineLength]
      · simp [lineLength]
      · simp only [List.take_succ_cons, lineLength, ih]
        omega
  | plain c rest hslash hquote hline ih =>
      cases n with
      | zero => simp [lineLength]
      | succ n =>
          rw [List.take_succ_cons, lineLength_plain hslash hquote hline, ih,
            lineLength_plain hslash hquote hline]
          omega

theorem length_takeWhile_take (p : Char → Bool) (text : List Char) (n : Nat) :
    ((text.take n).takeWhile p).length = min n (text.takeWhile p).length := by
  rw [← List.take_takeWhile, List.length_take]

/-- The quotes that open a string are found in a text that ends early, if there is one of them. -/
theorem longLexeme?_quote_take (more : List Char) :
    ∃ k, ∀ n, longLexeme? ('"' :: more.take n) = some (min n k + 1) := by
  by_cases hblock : ∃ body, more = '"' :: '"' :: body
  · obtain ⟨body, rfl⟩ := hblock
    refine ⟨blockLength body + 2, fun n => ?_⟩
    obtain _ | _ | n := n
    · rfl
    · rfl
    · have htake : longLexeme? ('"' :: ('"' :: '"' :: body).take (n + 2)) =
          some (blockLength (body.take n) + 3) := rfl
      rw [htake, blockLength_take, Option.some.injEq]
      omega
  · refine ⟨lineLength more, fun n => ?_⟩
    rw [longLexeme?_line, lineLength_take]
    intro body heq
    have hmore := List.take_append_drop n more
    rw [heq] at hmore
    exact hblock ⟨_, hmore.symm⟩

/-- A text that ends early begins with the same lexeme, cut off where the text ends. -/
theorem longLexeme?_take (c : Char) (more : List Char) :
    (∀ n, longLexeme? (c :: more.take n) = none) ∨
      ∃ k, ∀ n, longLexeme? (c :: more.take n) = some (min n k + 1) := by
  by_cases hsign : c = '#'
  · subst hsign
    refine .inr ⟨(more.takeWhile (· ≠ '\n')).length, fun n => ?_⟩
    rw [longLexeme?, length_takeWhile_take]
  by_cases hquote : c = '"'
  · subst hquote
    exact .inr (longLexeme?_quote_take more)
  simp only [longLexeme?_eq_identifier? hsign hquote, identifier?]
  cases isIdentStart c with
  | false => exact .inl fun n => rfl
  | true =>
      refine .inr ⟨(more.takeWhile isIdentRest).length, fun n => ?_⟩
      rw [if_pos rfl, Option.map_some, List.length_cons, length_takeWhile_take]

/-- Where a text that begins with the character has its first lexeme, and what is left of it if the
text ends earlier: the same kind of lexeme, cut off where the text ends. -/
structure FirstLexeme (c : Char) (make : List Char → Lexeme) (word rest : List Char) : Prop where
  text_eq : (make word).text = c :: word
  inside : ∀ part, part <+: word → lexemes (c :: part) = [make part]
  behind : ∀ part, part <+: rest → lexemes (c :: (word ++ part)) = make word :: lexemes part
  alike : ∀ part, (make word).isSkipped = true → (make word).Alike (make part)

theorem alike_span (c : Char) (word part : List Char)
    (h : (Lexeme.ofPiece (.span (c :: word))).isSkipped = true) :
    (Lexeme.ofPiece (.span (c :: word))).Alike (.ofPiece (.span (c :: part))) := by
  by_cases hsign : c = '#'
  · subst hsign
    exact .comments _ _
  by_cases hquote : c = '"'
  · subst hquote
    exact .literals _ _
  rw [ofPiece_word hsign hquote] at h
  cases h

theorem exists_firstLexeme (c : Char) (more : List Char) :
    ∃ make word rest, more = word ++ rest ∧ FirstLexeme c make word rest := by
  rcases longLexeme?_take c more with hnone | ⟨k, hspan⟩
  · have hcut : ∀ part, part <+: more → lexemes (c :: part) = .single c :: lexemes part := by
      intro part hpart
      have hn := hnone part.length
      rw [← List.prefix_iff_eq_take.1 hpart] at hn
      rw [lexemes, cut_of_none hn]
      rfl
    refine ⟨fun _ => .single c, [], more, rfl, rfl, fun part hpart => ?_, hcut,
      fun _ hskipped => absurd hskipped Bool.false_ne_true⟩
    obtain rfl := List.prefix_nil.1 hpart
    exact hcut [] List.nil_prefix
  · have hcut : ∀ part, part <+: more → lexemes (c :: part) =
        .ofPiece (.span (c :: part.take k)) :: lexemes (part.drop k) := by
      intro part hpart
      have hn := hspan part.length
      rw [← List.prefix_iff_eq_take.1 hpart] at hn
      have hmin : min (min part.length k) part.length = min k part.length := by omega
      rw [lexemes, cut_of_some hn, List.take_eq_take_iff.2 hmin, List.drop_eq_drop_iff.2 hmin]
      rfl
    have hmore := List.take_append_drop k more
    refine ⟨fun part => .ofPiece (.span (c :: part)), more.take k, more.drop k, hmore.symm,
      Lexeme.text_ofPiece _, fun part hpart => ?_, fun part hpart => ?_,
      fun part => alike_span c _ part⟩
    · have hlength := hpart.length_le
      rw [List.length_take] at hlength
      rw [hcut part (hpart.trans (List.take_prefix k more)), List.take_of_length_le (by omega),
        List.drop_eq_nil_of_le (by omega)]
      rfl
    · have hbegin : more.take k ++ part <+: more := by
        have happend := (List.prefix_append_right_inj (more.take k)).2 hpart
        rwa [hmore] at happend
      rw [hcut _ hbegin]
      by_cases hk : k ≤ more.length
      · have hword := List.length_take_of_le hk
        rw [List.take_left' hword, List.drop_left' hword]
      · -- nothing stands behind a lexeme that the text ends in
        rw [List.drop_eq_nil_of_le (by omega)] at hpart
        obtain rfl := List.prefix_nil.1 hpart
        have hword := List.length_take_le k more
        rw [List.append_nil, List.take_of_length_le hword, List.drop_eq_nil_of_le hword]

variable {text : List Char} {first before after row : List Lexeme} {last : Lexeme}

/-- Behind the first lexemes of a document the others are read. -/
theorem lexemes_written_of_append (h : lexemes text = before ++ row) :
    lexemes (written row) = row := by
  induction before generalizing text with
  | nil =>
      rw [List.nil_append] at h
      rw [← h, written, text_lexemes, h]
  | cons lexeme before ih =>
      cases text with
      | nil => cases h
      | cons c more =>
          obtain ⟨make, word, rest, rfl, hfirst⟩ := exists_firstLexeme c more
          rw [hfirst.behind rest List.prefix_rfl] at h
          exact ih (List.cons.inj h).2

/-- A text that ends in a lexeme has the lexemes before it, and the lexeme cut off. -/
theorem exists_lexemes_append (h : lexemes text = first ++ last :: after)
    {part : List Char} (hpart : part <+: last.text) (hne : part ≠ []) :
    ∃ cut, lexemes (written first ++ part) = first ++ [cut] ∧
      (last.isSkipped = true ∨ part = last.text → last.Alike cut) := by
  induction first generalizing text with
  | nil =>
      cases text with
      | nil => cases h
      | cons c more =>
          obtain ⟨make, word, rest, rfl, hfirst⟩ := exists_firstLexeme c more
          rw [hfirst.behind rest List.prefix_rfl] at h
          obtain ⟨rfl, -⟩ := List.cons.inj h
          rw [hfirst.text_eq] at hpart ⊢
          obtain ⟨d, part, rfl⟩ := List.exists_cons_of_ne_nil hne
          obtain ⟨rfl, hword⟩ := List.cons_prefix_cons.1 hpart
          refine ⟨make part, hfirst.inside part hword, ?_⟩
          rintro (hskipped | heq)
          · exact hfirst.alike part hskipped
          · obtain rfl := (List.cons.inj heq).2
            exact .same _
  | cons lexeme first ih =>
      cases text with
      | nil => cases h
      | cons c more =>
          obtain ⟨make, word, rest, rfl, hfirst⟩ := exists_firstLexeme c more
          rw [hfirst.behind rest List.prefix_rfl] at h
          obtain ⟨rfl, hrest⟩ : make word = lexeme ∧ lexemes rest = first ++ last :: after :=
            List.cons.inj h
          obtain ⟨cut, hcut, halike⟩ := ih hrest
          refine ⟨cut, ?_, halike⟩
          have hbegin : written first ++ part <+: rest := by
            have htext := text_lexemes rest
            rw [hrest, List.flatMap_append, List.flatMap_cons] at htext
            rw [← htext]
            exact (List.prefix_append_right_inj _).2 (hpart.trans (List.prefix_append _ _))
          rw [written, List.flatMap_cons, hfirst.text_eq, List.append_assoc, List.cons_append,
            hfirst.behind _ hbegin, hcut]
          rfl

end Truncation

section Alone

namespace Reader

/-- At a lexeme that can begin a declaration, one ends only if another begins, as it would outside
of all declarations. -/
theorem step_start_of_ended {reader next : Reader} {ahead : List Lexeme} {lexeme : Lexeme}
    {ended : Opened} (h : reader.step ahead lexeme = (some ended, next))
    (hopens : lexeme.opens = true) : start.step ahead lexeme = (none, next) := by
  cases lexeme with
  | comment | quoted => cases hopens
  | single c =>
      obtain rfl : c = '\x7b' := by simpa [Lexeme.opens] using hopens
      cases h
  | word text =>
      obtain ⟨opened, depth⟩ := reader
      change Reader.word ⟨opened, depth⟩ text = _ at h
      simp only [word] at h
      split at h
      · cases h
      · next houtside =>
        obtain rfl : depth = 0 := by omega
        split at h
        · cases h
        · split at h
          · cases h
          · split at h
            · obtain ⟨-, rfl⟩ := Prod.mk.inj h
              rfl
            · cases h

/-- A declaration that a reader takes is the first one of the row that begins with it. -/
theorem Coherent.exists_declarations_eq {reader : Reader} (h : reader.Coherent)
    {row : List Lexeme}
    (hstart : start.declarations (reader.pending ++ row) = reader.declarations row)
    {opened : Opened} (hmem : opened ∈ reader.declarations row) :
    ∃ before after more, reader.pending ++ row = before ++ (opened.row ++ after) ∧
      start.declarations (opened.row ++ after) = opened :: more := by
  induction row generalizing reader with
  | nil =>
      obtain ⟨_ | before, depth⟩ := reader
      · cases hmem
      · obtain rfl := List.mem_singleton.1 hmem
        exact ⟨[], [], [], rfl, hstart⟩
  | cons lexeme ahead ih =>
      have hturns := reader.turns_step ahead lexeme
      have hnext := h.step ahead lexeme
      have hended : ∀ {next : Reader} {ended : Opened},
          reader.step ahead lexeme = (some ended, next) → lexeme.opens = true →
            start.step ahead lexeme = (none, next) := step_start_of_ended
      rw [declarations] at hmem hstart
      generalize reader.step ahead lexeme = out at hturns hnext hended hmem hstart
      cases hturns with
      | idle =>
          obtain rfl := coherent_none.1 hnext
          obtain ⟨front, after, more, hrow, hfirst⟩ := ih hnext rfl hmem
          exact ⟨lexeme :: front, after, more, congrArg (lexeme :: ·) hrow, hfirst⟩
      | opens _ hbackwards =>
          have hpending := Opened.row_first hbackwards
          obtain ⟨front, after, more, hrow, hfirst⟩ :=
            ih hnext (by rw [pending_some, hpending]; exact hstart) hmem
          rw [pending_some, hpending] at hrow
          exact ⟨front, after, more, hrow, hfirst⟩
      | grows hbackwards =>
          have hpending := Opened.row_grown hbackwards
          obtain ⟨front, after, more, hrow, hfirst⟩ :=
            ih hnext (by rw [pending_some, hpending, List.append_assoc]; exact hstart) hmem
          rw [pending_some, hpending, List.append_assoc] at hrow
          exact ⟨front, after, more, hrow, hfirst⟩
      | @closes _ _ before ended hbackwards =>
          have hpending : ended.row ++ ahead = before.row ++ lexeme :: ahead := by
            rw [Opened.row_grown hbackwards, List.append_assoc, List.singleton_append]
          obtain rfl := coherent_none.1 hnext
          rcases List.mem_cons.1 hmem with rfl | hmem
          · exact ⟨[], ahead, _, hpending.symm, hpending ▸ hstart⟩
          · obtain ⟨front, after, more, hrow, hfirst⟩ := ih hnext rfl hmem
            refine ⟨ended.row ++ front, after, more, ?_, hfirst⟩
            rw [List.append_assoc, ← hrow]
            exact hpending.symm
      | @ends _ _ before =>
          obtain rfl := coherent_none.1 hnext
          rcases List.mem_cons.1 hmem with rfl | hmem
          · exact ⟨[], lexeme :: ahead, _, rfl, hstart⟩
          · obtain ⟨front, after, more, hrow, hfirst⟩ := ih hnext rfl hmem
            refine ⟨before.row ++ lexeme :: front, after, more, ?_, hfirst⟩
            rw [List.append_assoc, List.cons_append, ← hrow]
            rfl
      | @follows _ depth before next hopens hbackwards =>
          have hpending := Opened.row_first hbackwards
          have hbegins : start.declarations (lexeme :: ahead) =
              Reader.declarations ⟨some next, depth⟩ ahead := by
            rw [declarations, hended rfl hopens]
          rcases List.mem_cons.1 hmem with rfl | hmem
          · exact ⟨[], lexeme :: ahead, _, rfl, hstart⟩
          · obtain ⟨front, after, more, hrow, hfirst⟩ :=
              ih hnext (by rw [pending_some, hpending]; exact hbegins) hmem
            rw [pending_some, hpending] at hrow
            refine ⟨before.row ++ front, after, more, ?_, hfirst⟩
            rw [List.append_assoc, ← hrow]
            rfl

variable {ahead : List Lexeme} {lexeme : Lexeme}

theorem not_isGap_of_cons (h : ∀ last ∈ (lexeme :: ahead).getLast?, last.isGap = false) :
    ∀ last ∈ ahead.getLast?, last.isGap = false := by
  intro last hmem
  rw [List.getLast?_cons, Option.mem_def.1 hmem] at h
  exact h last rfl

theorem blankLineAhead_append (hne : ahead ≠ [])
    (hlast : ∀ last ∈ ahead.getLast?, last.isGap = false) (rest : List Lexeme) :
    blankLineAhead (ahead ++ rest) = blankLineAhead ahead := by
  induction ahead with
  | nil => exact absurd rfl hne
  | cons lexeme ahead ih =>
      cases lexeme with
      | comment | quoted | word => rfl
      | single c =>
          rw [List.cons_append, blankLineAhead, blankLineAhead]
          cases ahead with
          | nil =>
              have hc : isBlank c = false := hlast _ rfl
              have hspace : (c == ' ' || c == '\t' || c == '\r') = false := by
                rw [Bool.eq_false_iff]
                intro hspace
                simp only [Bool.or_eq_true, beq_iff_eq] at hspace
                rcases hspace with (rfl | rfl) | rfl <;> cases hc
              rw [hspace, Bool.false_and, Bool.false_and]
          | cons next more => rw [ih (List.cons_ne_nil next more) hlast]

/-- A reader that comes to a lexeme that is no blank has not looked behind it. -/
theorem step_append (hlast : ∀ last ∈ (lexeme :: ahead).getLast?, last.isGap = false)
    (reader : Reader) (rest : List Lexeme) :
    reader.step (ahead ++ rest) lexeme = reader.step ahead lexeme := by
  cases lexeme with
  | comment | quoted | word => rfl
  | single c =>
      simp only [step]
      split
      · rfl
      · split
        · rfl
        · split
          · next hline =>
            subst hline
            cases ahead with
            | nil => cases hlast _ rfl
            | cons next more => rw [blankLineAhead_append (List.cons_ne_nil next more) hlast]
          · rfl

/-- A declaration is read off its own lexemes, and those behind the last that is no blank are not
needed. -/
theorem exists_declarations_eq_singleton {front rest : List Lexeme} {before opened : Opened}
    {depth : Nat} {more : List Opened}
    (h : declarations ⟨some before, depth⟩ (front ++ rest) = opened :: more)
    (hrow : before.row ++ front <+: opened.row)
    (hlast : ∀ last ∈ front.getLast?, last.isGap = false) :
    ∃ alone, declarations ⟨some before, depth⟩ front = [alone] ∧
      alone.row = before.row ++ front := by
  induction front generalizing before depth with
  | nil => exact ⟨before, rfl, (List.append_nil _).symm⟩
  | cons lexeme ahead ih =>
      rw [List.cons_append, declarations, step_append hlast] at h
      rw [declarations]
      have hturns := turns_step ⟨some before, depth⟩ ahead lexeme
      generalize step ⟨some before, depth⟩ ahead lexeme = out at h hturns ⊢
      have hlength := hrow.length_le
      rw [List.length_append, List.length_cons] at hlength
      cases hturns with
      | grows hbackwards =>
          have hgrown := Opened.row_grown hbackwards
          obtain ⟨alone, halone, hself⟩ :=
            ih h (by simpa [hgrown] using hrow) (not_isGap_of_cons hlast)
          exact ⟨alone, halone, by simpa [hgrown] using hself⟩
      | @closes _ _ _ ended hbackwards =>
          have hgrown := Opened.row_grown hbackwards
          obtain ⟨rfl, -⟩ := List.cons.inj h
          rw [hgrown, List.length_append, List.length_singleton] at hlength
          obtain rfl : ahead = [] := List.length_eq_zero_iff.1 (by omega)
          exact ⟨ended, rfl, hgrown⟩
      | ends | follows =>
          obtain ⟨rfl, -⟩ := List.cons.inj h
          omega

/-- A row of one declaration, up to a lexeme that is no blank, is one declaration by itself. -/
theorem exists_declarations_start_eq {row rest : List Lexeme} {opened : Opened}
    {more : List Opened} (h : start.declarations (row ++ rest) = opened :: more)
    (hopens : ∃ first ∈ row.head?, first.opens = true) (hrow : row <+: opened.row)
    (hlast : ∀ last ∈ row.getLast?, last.isGap = false) :
    ∃ alone, start.declarations row = [alone] ∧ alone.row = row := by
  obtain ⟨lexeme, hhead, hopens⟩ := hopens
  obtain ⟨front, rfl⟩ := List.head?_eq_some_iff.1 hhead
  rw [List.cons_append, declarations, step_append hlast] at h
  rw [declarations]
  have hturns := turns_step start front lexeme
  generalize start.step front lexeme = out at h hturns ⊢
  cases hturns with
  | idle hgap =>
      rw [hgap rfl] at hopens
      cases hopens
  | opens _ hbackwards =>
      have hfirst := Opened.row_first hbackwards
      obtain ⟨alone, halone, hself⟩ :=
        exists_declarations_eq_singleton h (by simpa [hfirst] using hrow)
          (not_isGap_of_cons hlast)
      exact ⟨alone, halone, by simpa [hfirst] using hself⟩

end Reader

end Alone

section Chunk

variable {document : List Char} {before after : List Lexeme} {opened : Opened}

theorem exists_text_eq_of_isSkipped {lexeme : Lexeme} (hmem : lexeme ∈ lexemes document)
    (hskipped : lexeme.isSkipped = true) :
    ∃ c more, lexeme.text = c :: more ∧ isBlank c = false := by
  obtain ⟨piece, -, rfl⟩ := List.mem_map.1 hmem
  cases piece with
  | kept c => cases hskipped
  | span text =>
      simp only [Lexeme.ofPiece] at hskipped ⊢
      split at hskipped
      · exact ⟨'#', _, rfl, by decide⟩
      · exact ⟨'"', _, rfl, by decide⟩
      · cases hskipped

theorem exists_last_not_isGap {row : List Lexeme} (h : ∃ lexeme ∈ row, lexeme.isGap = false) :
    ∃ front last gaps, row = front ++ last :: gaps ∧ last.isGap = false ∧
      ∀ gap ∈ gaps, gap.isGap = true := by
  induction row using List.reverseRecOn with
  | nil => simp at h
  | append_singleton front last ih =>
      cases hlast : last.isGap with
      | false => exact ⟨front, last, [], rfl, hlast, fun gap hgap => nomatch hgap⟩
      | true =>
          obtain ⟨lexeme, hmem, hlexeme⟩ := h
          have hfront : lexeme ∈ front := by
            rcases List.mem_append.1 hmem with hmem | hmem
            · exact hmem
            · rw [List.mem_singleton.1 hmem, hlast] at hlexeme
              cases hlexeme
          obtain ⟨first, other, gaps, rfl, hother, hgaps⟩ := ih ⟨lexeme, hfront, hlexeme⟩
          refine ⟨first, other, gaps ++ [last], by simp, hother, fun gap hgap => ?_⟩
          rcases List.mem_append.1 hgap with hgap | hgap
          · exact hgaps gap hgap
          · rw [List.mem_singleton.1 hgap, hlast]

theorem trimEnd_append_written {gaps : List Lexeme} (h : ∀ gap ∈ gaps, gap.isGap = true)
    (text : List Char) : trimEnd (text ++ written gaps) = trimEnd text := by
  induction gaps generalizing text with
  | nil => rw [written, List.flatMap_nil, List.append_nil]
  | cons gap gaps ih =>
      obtain ⟨hgap, hgaps⟩ := List.forall_mem_cons.1 h
      cases gap with
      | comment | quoted | word => cases hgap
      | single c =>
          have hrest := ih hgaps (text ++ [c])
          rw [trimEnd_append_blank hgap, List.append_assoc] at hrest
          exact hrest

/-- A chunk is what the lexemes of its declaration say, without the blanks at the end. The last of
the others is whole, or a comment or literal that got shorter. -/
theorem Opened.exists_chunk_eq (h : lexemes document = before ++ (opened.row ++ after))
    (hbegun : opened.Begun) :
    ∃ front last gaps part, opened.row = front ++ last :: gaps ∧ last.isGap = false ∧
      part <+: last.text ∧ part ≠ [] ∧ (last.isSkipped = true ∨ part = last.text) ∧
      opened.chunk = written front ++ part := by
  have hne : ∃ lexeme ∈ opened.row, lexeme.isGap = false := by
    obtain ⟨lexeme, more, hrow, hopens⟩ := hbegun
    exact ⟨lexeme, by rw [hrow]; exact List.mem_cons_self, Lexeme.isGap_of_opens hopens⟩
  obtain ⟨front, last, gaps, hrow, hlast, hgaps⟩ := exists_last_not_isGap hne
  have hchunk : opened.chunk = trimEnd (written front ++ last.text) := by
    calc opened.chunk = trimEnd (written (front ++ last :: gaps)) := by
          rw [Opened.chunk_eq_trimEnd h hbegun, hrow]
      _ = trimEnd (written front ++ last.text ++ written gaps) := by simp [written]
      _ = trimEnd (written front ++ last.text) := trimEnd_append_written hgaps _
  have hlexemes : lexemes document = (before ++ front) ++ last :: (gaps ++ after) := by
    rw [h, hrow]
    simp
  cases hskipped : last.isSkipped with
  | true =>
      have hmem : last ∈ lexemes document := by
        rw [hlexemes]
        simp
      obtain ⟨c, more, htext, hc⟩ := exists_text_eq_of_isSkipped hmem hskipped
      refine ⟨front, last, gaps, c :: trimEnd more, hrow, hlast, ?_, List.cons_ne_nil _ _,
        .inl hskipped, ?_⟩
      · rw [htext]
        exact (List.prefix_cons_inj c).2 (trimEnd_isPrefix more)
      · rw [hchunk, htext, trimEnd_append_cons hc]
  | false =>
      have hproper := proper_of_isSkipped hlexemes hskipped
      have hcomment : last.isComment = false := by
        cases last with
        | comment => cases hskipped
        | quoted | word | single => rfl
      refine ⟨front, last, gaps, last.text, hrow, hlast, List.prefix_rfl,
        Lexeme.text_ne_nil hproper, .inr rfl, ?_⟩
      rw [hchunk, trimEnd_append_text hproper hlast hcomment]

theorem Parted.begun {row : List Lexeme} {declarations : List Opened}
    (h : Parted row declarations) : ∀ opened ∈ declarations, opened.Begun := by
  induction h with
  | nil => exact fun _ hmem => nomatch hmem
  | gap _ _ ih => exact ih
  | declaration hbegun _ ih => exact List.forall_mem_cons.2 ⟨hbegun, ih⟩

/-- The lexemes of a chunk are those of its declaration up to the last that is no blank, but for
the text of a comment or literal at the end. -/
theorem Opened.exists_lexemes_chunk (h : lexemes document = before ++ (opened.row ++ after))
    (hbegun : opened.Begun) :
    ∃ front last gaps, opened.row = front ++ last :: gaps ∧ last.isGap = false ∧
      List.Forall₂ Lexeme.Alike (front ++ [last]) (lexemes opened.chunk) := by
  obtain ⟨front, last, gaps, part, hrow, hlast, hpart, hne, hwhole, hchunk⟩ :=
    Opened.exists_chunk_eq h hbegun
  have hlexemes : lexemes document = before ++ (front ++ last :: (gaps ++ after)) := by
    rw [h, hrow]
    simp
  have hbehind := lexemes_written_of_append hlexemes
  obtain ⟨cut, hcut, halike⟩ := exists_lexemes_append hbehind hpart hne
  refine ⟨front, last, gaps, hrow, hlast, ?_⟩
  rw [hchunk, hcut]
  exact List.rel_append (alike_rows_refl front) (.cons (halike hwhole) .nil)

/-- A chunk is the one chunk of the document that it is. -/
theorem chunks_of_mem_chunks {chunk : List Char} (h : chunk ∈ chunks document) :
    chunks chunk = [chunk] := by
  obtain ⟨opened, hmem, rfl⟩ := List.mem_map.1 h
  obtain ⟨before, after, more, hplace, hfirst⟩ :=
    Reader.coherent_start.exists_declarations_eq rfl hmem
  have hbegun := (parted_declarations (lexemes document)).begun opened hmem
  obtain ⟨front, last, gaps, hrow, hlast, halike⟩ := Opened.exists_lexemes_chunk hplace hbegun
  have hsplit : opened.row = front ++ [last] ++ gaps := by
    rw [hrow, List.append_assoc, List.singleton_append]
  have hopens : ∃ first ∈ (front ++ [last]).head?, first.opens = true := by
    obtain ⟨first, tail, hbegins, hopens⟩ := hbegun
    rw [hsplit] at hbegins
    refine ⟨first, ?_, hopens⟩
    cases front <;> exact congrArg some (List.cons.inj hbegins).1
  rw [hsplit, List.append_assoc] at hfirst
  obtain ⟨whole, hwhole, hself⟩ := Reader.exists_declarations_start_eq hfirst hopens
    ⟨gaps, hsplit.symm⟩ (by simpa using hlast)
  have hopened : List.Forall₂ Opened.Alike (Reader.start.declarations (front ++ [last]))
      (Reader.start.declarations (lexemes opened.chunk)) := declarations_alike halike (.outside 0)
  rw [hwhole] at hopened
  obtain ⟨alone, _, hsame, hnone, halone⟩ := List.forall₂_cons_left_iff.1 hopened
  rw [List.forall₂_nil_left_iff.1 hnone] at halone
  -- what is read of the chunk is all of it
  have hpart : alone.row <:+: lexemes opened.chunk :=
    isInfix_of_mem_declarations (by rw [halone]; exact List.mem_singleton_self alone)
  have hlength : alone.row.length = (lexemes opened.chunk).length := by
    calc alone.row.length = alone.backwards.length := List.length_reverse
      _ = whole.backwards.length := hsame.backwards.length_eq.symm
      _ = (front ++ [last]).length := by rw [← hself, Opened.row, List.length_reverse]
      _ = (lexemes opened.chunk).length := halike.length_eq
  have htext : alone.chunk = trim (written (lexemes opened.chunk)) := by
    rw [← hpart.eq_of_length hlength]
    rfl
  rw [chunks, halone, List.map_singleton, htext, written, text_lexemes, Opened.chunk, trim_trim]

end Chunk

/-- A chunk that a splitter keeps of a document is split into itself. -/
theorem split_of_mem_split (splitter : Splitter) {document chunk : String}
    (h : chunk ∈ splitter.split document) : splitter.split chunk = [chunk] := by
  obtain ⟨text, hmem, rfl⟩ := List.mem_map.1 h
  obtain ⟨hchunk, hkept⟩ := List.mem_filter.1 hmem
  rw [Splitter.split, Splitter.keptChunks, String.toList_ofList, chunks_of_mem_chunks hchunk,
    List.filter_singleton, hkept]
  rfl

/-- A union that a blank line ends, with a comment at its end, and behind it a type with braces that
nothing closes and a string that nothing closes. -/
theorem split_of_mem_split_unclosed :
    ∃ (document : String) (chunks : List String),
      document = "union U = A # \x7b \n\ntype T \x7b s: String = \"a\nid: ID = \"\"\"é\\ " ∧
        chunks = ["union U = A # \x7b", "type T \x7b s: String = \"a\nid: ID = \"\"\"é\\"] ∧
        Splitter.standard.split document = chunks ∧
        ∀ chunk ∈ chunks, Splitter.standard.split chunk = [chunk] := by
  have hsplit : Splitter.standard.split
        "union U = A # \x7b \n\ntype T \x7b s: String = \"a\nid: ID = \"\"\"é\\ " =
      ["union U = A # \x7b", "type T \x7b s: String = \"a\nid: ID = \"\"\"é\\"] := by
    decide +kernel
  refine ⟨_, _, rfl, rfl, hsplit, fun chunk hmem => ?_⟩
  rw [← hsplit] at hmem
  exact split_of_mem_split _ hmem

end ModelGraph.Document
