import ModelGraph.Proofs.Trivia.Idempotence
import ModelGraph.Proofs.Written.TypeText

/-! # Words between bars

A bar is no token, it may stand next to a name. What is left of the alternatives of a union in a
normal form are the words between its bars. Collapsing blanks does not change them
(`between_spaced_words`), so they are known from the words of a text (`between_eq_of_words_eq`). If
one word at most stands between two bars, these words are the alternatives
(`unionMembers_of_between`). -/

namespace ModelGraph.Written

open Text Declaration

section Words

variable {gap : Char → Bool}

/-- The words of a text of nothing but words are these. -/
theorem Spaced.words_eq {found : List (List Char)} {text : List Char}
    (h : Spaced gap (found.map .word) text) : words text = found := by
  have hskip : ∀ {blanks : List Char}, Blanks gap blanks → ∀ rest,
      words (blanks ++ rest) = words rest :=
    fun hb => runs_append_of_not fun c hc => by simp [(hb c hc).1]
  induction found generalizing text with
  | nil =>
      have hnone := hskip h.blanks_of_nil []
      rwa [List.append_nil] at hnone
  | cons word more ih =>
      obtain ⟨blanks, rest, rfl, hb, hproper, -, hends, hrest⟩ := h.cons_inv
      have hblank : ∀ c ∈ rest.head?, isBlank c = true := by
        intro c hc
        rcases hrest.head?_of_ends hends hc with hblank | ⟨token, tokens, htokens, hword, -⟩
        · exact hblank
        · have hmem : token ∈ more.map Token.word := htokens ▸ List.mem_cons_self
          obtain ⟨next, -, rfl⟩ := List.mem_map.1 hmem
          exact absurd rfl (hword next)
      rw [hskip hb, Token.text, words_append hproper.1
        (fun c hc => isBlank_of_isWordChar (hproper.2 c hc)) hblank, ih hrest]

/-- A text of blanks and of characters of words. -/
def Wordy (text : List Char) : Prop :=
  ∀ c ∈ text, isBlank c = true ∨ isWordChar c = true

/-- Such a text says its words. -/
theorem Wordy.spaced_words {text : List Char} (h : Wordy text) :
    Spaced anyBlank ((words text).map .word) text := by
  suffices hsome : ∃ found : List (List Char), Spaced anyBlank (found.map .word) text by
    obtain ⟨found, hfound⟩ := hsome
    rw [hfound.words_eq]
    exact hfound
  induction text with
  | nil => exact ⟨[], .nil⟩
  | cons c rest ih =>
      obtain ⟨found, hfound⟩ := ih fun d hd => h d (List.mem_cons_of_mem c hd)
      rcases h c List.mem_cons_self with hc | hc
      · exact ⟨found, .blank hc rfl hfound⟩
      · have hproper : (Token.word [c]).Proper := ⟨List.cons_ne_nil c [], by simpa using hc⟩
        cases hhead : rest.head?.any isWordChar with
        | false =>
            have hends : (Token.word [c]).Ends rest := by
              intro d hd
              rw [Option.mem_def.1 hd] at hhead
              exact hhead
            exact ⟨[c] :: found, .token hproper rfl hends hfound⟩
        | true =>
            -- the character belongs to the word behind it
            obtain ⟨d, hd, hword⟩ := (Option.any_eq_true _ _).1 hhead
            have hbegins : Begins rest := by
              intro e he
              obtain rfl : d = e := Option.some.inj (hd.symm.trans he)
              exact isBlank_of_isWordChar hword
            cases found with
            | nil =>
                have hblank := (hfound.blanks_of_nil d (List.mem_of_head? hd)).1
                rw [hbegins d hd] at hblank
                cases hblank
            | cons word more =>
                obtain ⟨after, rfl, hfirst, -, hends, hafter⟩ := hfound.cons_inv_of_begins hbegins
                have hlonger : (Token.word (c :: word)).Proper :=
                  ⟨List.cons_ne_nil c word, List.forall_mem_cons.2 ⟨hc, hfirst.2⟩⟩
                exact ⟨(c :: word) :: more, .token hlonger rfl hends hafter⟩

/-- What the tokens of a text are written with, if they are words. -/
theorem Spaced.wordy {found : List (List Char)} {text : List Char}
    (h : Spaced gap (found.map .word) text) : Wordy text := by
  intro c hc
  rcases h.mem_text hc with hblank | ⟨token, htoken, hproper, -, hmem⟩
  · exact .inl hblank
  · obtain ⟨word, -, rfl⟩ := List.mem_map.1 htoken
    exact .inr (hproper.2 c hmem)

/-- No mark stands in a text of words. -/
theorem Wordy.not_mem {text : List Char} (h : Wordy text) {c : Char} (hc : c ∈ marks) :
    c ∉ text := by
  intro hmem
  rcases h c hmem with hblank | hword
  · rw [isBlank_of_mem_marks hc] at hblank
    cases hblank
  · rw [isWordChar_of_mem_marks hc] at hword
    cases hword

end Words

section Bars

/-- Pieces are those of the library. -/
theorem pieces_eq_splitOn (separator : Char) (text : List Char) :
    pieces separator text = text.splitOn separator := by
  induction text with
  | nil => rfl
  | cons c rest ih =>
      obtain ⟨first, more, hsplit⟩ :=
        List.exists_cons_of_ne_nil (List.splitOn_ne_nil separator rest)
      rw [List.splitOn_cons_eq_if_modifyHead, pieces, ih, hsplit]
      by_cases hc : c = separator <;> simp [hc]

/-- A text has a first piece. -/
theorem exists_pieces_eq (separator : Char) (text : List Char) :
    ∃ first more, pieces separator text = first :: more := by
  rw [pieces_eq_splitOn]
  exact List.exists_cons_of_ne_nil (List.splitOn_ne_nil separator text)

/-- A piece of a text has characters of the text. -/
theorem mem_of_mem_pieces {separator c : Char} {piece text : List Char}
    (h : piece ∈ pieces separator text) (hc : c ∈ piece) : c ∈ text := by
  induction text generalizing piece with
  | nil =>
      rw [List.mem_singleton.1 h] at hc
      cases hc
  | cons d rest ih =>
      obtain ⟨first, more, hpieces⟩ := exists_pieces_eq separator rest
      rw [hpieces] at ih
      simp only [pieces, hpieces] at h
      split at h
      · rcases List.mem_cons.1 h with rfl | h
        · cases hc
        · exact List.mem_cons_of_mem d (ih h hc)
      · rcases List.mem_cons.1 h with rfl | h
        · rcases List.mem_cons.1 hc with rfl | hc
          · exact List.mem_cons_self
          · exact List.mem_cons_of_mem d (ih List.mem_cons_self hc)
        · exact List.mem_cons_of_mem d (ih (List.mem_cons_of_mem first h) hc)

/-- The words between the bars of a text. -/
def between (text : List Char) : List (List (List Char)) :=
  (pieces '|' text).map words

theorem between_bar (rest : List Char) : between ('|' :: rest) = [] :: between rest := by
  simp [between, pieces, words]

/-- The text begins within an alternative, with neither a bar nor a blank. -/
def goesOn (text : List Char) : Bool :=
  text.head?.any fun c => c != '|' && !isBlank c

/-- A character that is no bar stands in front of the words up to the first bar. -/
theorem between_cons {c : Char} (hbar : c ≠ '|') (rest : List Char) :
    ∃ first more, between rest = words first :: more ∧
      between (c :: rest) = words (c :: first) :: more ∧
      (first.head?.any fun d => !isBlank d) = goesOn rest := by
  cases rest with
  | nil => exact ⟨[], [], rfl, by simp [between, pieces, hbar], rfl⟩
  | cons d rest =>
      obtain ⟨first, more, hpieces⟩ := exists_pieces_eq '|' rest
      by_cases hd : d = '|'
      · subst hd
        exact ⟨[], between rest, between_bar rest, by simp [between, pieces, hbar], rfl⟩
      · exact ⟨d :: first, more.map words, by simp [between, pieces, hpieces, hd],
          by simp [between, pieces, hpieces, hd, hbar], by simp [goesOn, hd]⟩

theorem between_blank {c : Char} (hc : isBlank c = true) (rest : List Char) :
    between (c :: rest) = between rest := by
  have hbar : c ≠ '|' := by
    rintro rfl
    exact absurd hc (by decide)
  obtain ⟨first, more, hrest, hcons, -⟩ := between_cons hbar rest
  rw [hcons, hrest, words_cons_blank hc]

/-- What stands between the bars of a text depends on its first character, on what stands between
the bars of the others, and on whether these go on with a word. -/
theorem between_cons_congr {c : Char} (hc : isBlank c = false) {rest other : List Char}
    (h : between rest = between other) (hon : goesOn rest = goesOn other) :
    between (c :: rest) = between (c :: other) := by
  by_cases hbar : c = '|'
  · rw [hbar, between_bar, between_bar, h]
  · obtain ⟨first, more, hrest, hcons, hfirst⟩ := between_cons hbar rest
    obtain ⟨first', more', hother, hcons', hfirst'⟩ := between_cons hbar other
    obtain ⟨hwords, rfl⟩ := List.cons.inj (hrest.symm.trans (h.trans hother))
    rw [hcons, hcons', words_cons hc, words_cons hc, hwords, hfirst, hfirst', hon]

/-- Collapsing blanks changes nothing between the bars. -/
theorem between_spaced_words (text : List Char) : between (spaced (words text)) = between text := by
  induction text with
  | nil => rfl
  | cons c rest ih =>
      cases hc : isBlank c with
      | true => rw [words_cons_blank hc, between_blank hc, ih]
      | false =>
          cases rest with
          | nil => rw [spaced_words_cons hc begins_nil]; rfl
          | cons d rest =>
              cases hd : isBlank d with
              | false =>
                  have hbegins : Begins (d :: rest) := by
                    rintro _ ⟨⟩
                    exact hd
                  have hon : goesOn (spaced (words (d :: rest))) = goesOn (d :: rest) := by
                    rw [goesOn, head?_spaced_words hbegins, goesOn]
                  rw [spaced_words_cons hc hbegins]
                  exact between_cons_congr hc ih hon
              | true =>
                  have hspace : isBlank ' ' = true := by decide
                  rcases spaced_words_cons_blank hc hd rest with ⟨hone, hnil⟩ | hmore
                  · rw [hone]
                    rw [hnil] at ih
                    exact between_cons_congr hc ih (by simp [goesOn, hd])
                  · rw [hmore]
                    exact between_cons_congr hc ((between_blank hspace _).trans ih)
                      (by simp [goesOn, hd, hspace])

/-- Two texts with the same words have the same words between bars. -/
theorem between_eq_of_words_eq {text other : List Char} (h : words text = words other) :
    between text = between other := by
  rw [← between_spaced_words text, h, between_spaced_words]

/-- A text of one word is, without the blanks at its ends, this word. -/
theorem Wordy.filter_trim {text : List Char} (h : Wordy text) (hone : (words text).length ≤ 1) :
    [trim text].filter (fun member => !member.isEmpty) = words text := by
  have hspaced := h.spaced_words
  match hwords : words text, hone with
  | [], _ =>
      rw [hwords] at hspaced
      have hstops : Stops ([] ++ trim text) := stops_trim text
      have htrim : trim text = [] := hspaced.trim.blanks_of_nil.eq_nil_of_stops hstops
      simp [htrim]
  | [word], _ =>
      rw [hwords] at hspaced
      have htrim : trim text = word := hspaced.trim.eq_of_word (begins_trim text) (stops_trim text)
      have hne : word ≠ [] := (mem_words (hwords ▸ List.mem_cons_self : word ∈ words text)).1
      simp [htrim, hne]

/-- If the pieces of a text have one word at most, trimming them leaves their words. -/
theorem filter_map_trim {found : List (List Char)}
    (h : ∀ piece ∈ found, Wordy piece ∧ (words piece).length ≤ 1) :
    (found.map trim).filter (fun member => !member.isEmpty) = (found.map words).flatten := by
  induction found with
  | nil => rfl
  | cons piece more ih =>
      obtain ⟨hwordy, hone⟩ := h piece List.mem_cons_self
      have hmore := ih fun other hother => h other (List.mem_cons_of_mem piece hother)
      rw [List.map_cons, List.map_cons, List.flatten_cons, ← hwordy.filter_trim hone, ← hmore,
        ← List.filter_append, List.singleton_append]

/-- If one word at most stands between two bars, the words are the alternatives. -/
theorem unionMembers_of_between {text : List Char} (h : Wordy text)
    (hone : ∀ found ∈ between text, found.length ≤ 1) :
    unionMembers text = (between text).flatten.map String.ofList := by
  have hpieces : ∀ piece ∈ pieces '|' text, Wordy piece ∧ (words piece).length ≤ 1 := by
    intro piece hpiece
    have hwordy : Wordy piece := fun c hc => h c (mem_of_mem_pieces hpiece hc)
    exact ⟨hwordy, hone _ (List.mem_map_of_mem hpiece)⟩
  rw [unionMembers, filter_map_trim hpieces, between]

end Bars

end ModelGraph.Written
