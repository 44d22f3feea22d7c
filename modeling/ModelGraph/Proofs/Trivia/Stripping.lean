import ModelGraph.Proofs.Trivia.Pattern

/-! # What is left of a text without trivia and directives

A text is normalized in three passes: each takes out stretches of the text and leaves one space for
a stretch (`Contracted`), and the last takes the blanks at the ends with it. So what is left are the
characters outside trivia and directives, in order, and two of them are neighbours only where they
were neighbours before (`stripped_normalize`). -/

namespace ModelGraph

open Text Document Written

/-- The characters of a text that stand outside its spans. -/
def outside (pieces : List Piece) : List Char :=
  pieces.filterMap fun
    | .kept c => some c
    | .span _ => none

/-- A text with one space in place of every span. -/
def spacedOut (pieces : List Piece) : List Char :=
  pieces.map fun
    | .kept c => c
    | .span _ => ' '

theorem spacedOut_cut (recognise : Recogniser) (text : List Char) :
    spacedOut (cut recognise text) = blankOut recognise text := rfl

theorem solid_spacedOut (pieces : List Piece) :
    solid (spacedOut pieces) = solid (outside pieces) := by
  induction pieces with
  | nil => rfl
  | cons piece more ih =>
      cases piece with
      | span text => exact ih
      | kept c =>
          change solid (c :: spacedOut more) = solid (c :: outside more)
          cases hc : isBlank c with
          | true => rw [solid_cons_blank hc, solid_cons_blank hc, ih]
          | false => rw [solid_cons hc, solid_cons hc, ih]

section Spacing

/-- Every blank is a space, between two characters that are not blank. -/
def SingleSpaced (text : List Char) : Prop :=
  ∀ before c after, text = before ++ c :: after → isBlank c = true →
    c = ' ' ∧ (∃ d ∈ before.getLast?, isBlank d = false) ∧ ∃ d ∈ after.head?, isBlank d = false

namespace SingleSpaced

variable {c : Char} {text : List Char}

theorem nil : SingleSpaced [] := by
  intro before c after heq
  simp at heq

theorem cons (hc : isBlank c = false) (h : SingleSpaced text) : SingleSpaced (c :: text) := by
  intro before d after heq hd
  cases before with
  | nil =>
      obtain ⟨rfl, -⟩ := List.cons.inj heq
      rw [hc] at hd
      cases hd
  | cons e more =>
      obtain ⟨-, hmore⟩ := List.cons.inj heq
      obtain ⟨hspace, ⟨last, hlast, hblank⟩, hafter⟩ := h more d after hmore hd
      refine ⟨hspace, ⟨last, ?_, hblank⟩, hafter⟩
      rw [List.getLast?_cons, Option.mem_def.1 hlast]
      rfl

theorem cons_space (hc : isBlank c = false) (hne : text ≠ []) (hbegins : Begins text)
    (h : SingleSpaced text) : SingleSpaced (c :: ' ' :: text) := by
  intro before d after heq hd
  match before with
  | [] =>
      obtain ⟨rfl, -⟩ := List.cons.inj heq
      rw [hc] at hd
      cases hd
  | [e] =>
      obtain ⟨rfl, htail⟩ := List.cons.inj heq
      obtain ⟨rfl, rfl⟩ := List.cons.inj htail
      obtain ⟨first, more, rfl⟩ := List.exists_cons_of_ne_nil hne
      exact ⟨rfl, ⟨c, rfl, hc⟩, first, rfl, hbegins first rfl⟩
  | e :: f :: more =>
      obtain ⟨-, htail⟩ := List.cons.inj heq
      obtain ⟨-, hmore⟩ := List.cons.inj htail
      obtain ⟨hspace, ⟨last, hlast, hblank⟩, hafter⟩ := h more d after hmore hd
      refine ⟨hspace, ⟨last, ?_, hblank⟩, hafter⟩
      rw [List.getLast?_cons, List.getLast?_cons, Option.mem_def.1 hlast]
      rfl

end SingleSpaced

/-- A collapsed text has single spaces between its words. -/
theorem singleSpaced_spaced_words (text : List Char) : SingleSpaced (spaced (words text)) := by
  induction text with
  | nil => exact .nil
  | cons c rest ih =>
      cases hc : isBlank c with
      | true =>
          rw [words_cons_blank hc]
          exact ih
      | false =>
          have hstops : Stops (spaced (words (c :: rest))) := stops_spaced fun _ => mem_words
          rcases spaced_words_cons_cases hc rest with ⟨-, heq⟩ | ⟨-, heq⟩ | heq
          · rw [heq]
            exact ih.cons hc
          · rw [heq]
            exact SingleSpaced.nil.cons hc
          · rw [heq] at hstops ⊢
            refine ih.cons_space hc ?_ (begins_spaced_words rest)
            intro hnil
            rw [hnil] at hstops
            exact absurd (hstops ' ' rfl) (by decide)

end Spacing

/-- The first text is the second with a space in place of some of its stretches, none of them
empty. -/
inductive Contracted : List Char → List Char → Prop
  | nil : Contracted [] []
  | keep (c : Char) {left text : List Char} (h : Contracted left text) :
      Contracted (c :: left) (c :: text)
  | stretch {stretch left text : List Char} (hne : stretch ≠ []) (h : Contracted left text) :
      Contracted (' ' :: left) (stretch ++ text)

namespace Contracted

variable {first second third : List Char}

theorem ne_nil (h : Contracted first second) (hne : first ≠ []) : second ≠ [] := by
  cases h with
  | nil => exact hne
  | keep c _ => exact List.cons_ne_nil c _
  | stretch hstretch _ => exact List.append_ne_nil_of_left_ne_nil hstretch _

/-- What two texts become, one after the other, is what each of them becomes. -/
theorem exists_append (h : Contracted (first ++ second) third) :
    ∃ front back, third = front ++ back ∧ Contracted first front ∧ Contracted second back := by
  induction first generalizing third with
  | nil => exact ⟨[], third, rfl, .nil, h⟩
  | cons c more ih =>
      cases h with
      | keep _ h =>
          obtain ⟨front, back, rfl, hfront, hback⟩ := ih h
          exact ⟨c :: front, back, rfl, .keep c hfront, hback⟩
      | @stretch gone _ _ hne h =>
          obtain ⟨front, back, rfl, hfront, hback⟩ := ih h
          exact ⟨gone ++ front, back, (List.append_assoc ..).symm, .stretch hne hfront, hback⟩

theorem trans (h : Contracted first second) (hnext : Contracted second third) :
    Contracted first third := by
  induction h generalizing third with
  | nil => exact hnext
  | keep c _ ih =>
      cases hnext with
      | keep _ hnext => exact .keep c (ih hnext)
      | stretch hne hnext => exact .stretch hne (ih hnext)
  | stretch hne _ ih =>
      obtain ⟨front, back, rfl, hfront, hback⟩ := hnext.exists_append
      exact .stretch (hfront.ne_nil hne) (ih hback)

end Contracted

/-- Blanking out leaves a space for every span. -/
theorem contracted_blankOut (recognise : Recogniser) (text : List Char) :
    Contracted (blankOut recognise text) text := by
  induction text using blankOut_induction recognise with
  | hnil => exact .nil
  | hspan c rest n _ heq ih =>
      have hsplit : c :: rest = (c :: rest.take n) ++ rest.drop n := by
        rw [List.cons_append, List.take_append_drop]
      rw [heq, hsplit]
      exact .stretch (List.cons_ne_nil c _) ih
  | hkept c rest _ heq ih =>
      rw [heq]
      exact .keep c ih

/-- Collapsing leaves a space for every stretch of blanks, and nothing for those at the ends. -/
theorem exists_contracted_spaced_words (text : List Char) :
    ∃ before kept after, text = before ++ (kept ++ after) ∧
      Contracted (spaced (words text)) kept ∧ (before = [] ↔ Begins text) := by
  induction text with
  | nil => exact ⟨[], [], [], rfl, .nil, iff_of_true rfl begins_nil⟩
  | cons c rest ih =>
      obtain ⟨before, kept, after, rfl, hkept, hbefore⟩ := ih
      cases hc : isBlank c with
      | true =>
          refine ⟨c :: before, kept, after, rfl, ?_, iff_of_false (List.cons_ne_nil c _) ?_⟩
          · rwa [words_cons_blank hc]
          · intro hbegins
            rw [hbegins c rfl] at hc
            cases hc
      | false =>
          have hbegins : Begins (c :: (before ++ (kept ++ after))) := by
            rintro _ ⟨⟩
            exact hc
          by_cases hrest : Begins (before ++ (kept ++ after))
          · obtain rfl := hbefore.2 hrest
            refine ⟨[], c :: kept, after, rfl, ?_, iff_of_true rfl hbegins⟩
            rw [spaced_words_cons hc hrest]
            exact .keep c hkept
          · rcases spaced_words_cons_cases hc (before ++ (kept ++ after)) with
              ⟨h, -⟩ | ⟨-, heq⟩ | heq
            · exact absurd h hrest
            · refine ⟨[], [c], _, rfl, ?_, iff_of_true rfl hbegins⟩
              rw [heq]
              exact .keep c .nil
            · refine ⟨[], c :: (before ++ kept), after, by simp, ?_, iff_of_true rfl hbegins⟩
              rw [heq]
              exact .keep c (.stretch (mt hbefore.1 hrest) hkept)

/-- What is left of a text are the characters outside its trivia, and outside the directives of the
text without trivia, with single spaces between words. A space stands for every stretch that is
gone, except at the ends. -/
structure Stripped (text left : List Char) : Prop where
  singleSpaced : SingleSpaced left
  sign : '#' ∉ left
  directive : ∀ c, isIdentStart c = true → ¬ ['@', c] <:+: left
  outside : ∃ trivia directives,
    (∀ pieces, Parted TriviumPattern text pieces ↔ pieces = trivia) ∧
      (∀ pieces, Parted DirectivePattern (spacedOut trivia) pieces ↔ pieces = directives) ∧
        solid left = solid (outside directives) ∧ words left = words (spacedOut directives)
  contracted : ∃ before kept after, text = before ++ (kept ++ after) ∧ Contracted left kept

/-- Normalizing strips a text of trivia and directives, and of nothing else. -/
theorem stripped_normalize (text : String) : Stripped text.toList (normalize text).toList := by
  rw [normalize, String.toList_ofList]
  generalize text.toList = text
  have hnormal := normal_normalForm text
  have hwords : words (normalForm text) = normalWords text := words_spaced fun _ => mem_words
  refine ⟨singleSpaced_spaced_words _, hnormal.sign, hnormal.directive, ?_, ?_⟩
  · refine ⟨cut Trivia.trivium? text, cut Trivia.directive? (blankOut Trivia.trivium? text),
      measures_trivium.parted_iff text, measures_directive.parted_iff _, ?_, hwords⟩
    rw [← solid_spacedOut, normalForm, normalWords, solid_spaced_words, spacedOut_cut]
  · have hblanked : Contracted _ text :=
      (contracted_blankOut Trivia.directive? _).trans (contracted_blankOut Trivia.trivium? text)
    obtain ⟨before, kept, after, heq, hkept, -⟩ := exists_contracted_spaced_words
      (blankOut Trivia.directive? (blankOut Trivia.trivium? text))
    rw [heq] at hblanked
    obtain ⟨front, back, rfl, -, hback⟩ := hblanked.exists_append
    obtain ⟨middle, tail, rfl, hmiddle, -⟩ := hback.exists_append
    exact ⟨front, middle, tail, rfl, hkept.trans hmiddle⟩

-- The quote in the comment opens no string, and a space stands for the string and the directive.
example : normalize "a\"b # c\"d # \"e\n f@g(h: \"i\")j" = "a d f j" := by decide +kernel

end ModelGraph
