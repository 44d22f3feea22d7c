import ModelGraph.Naming
import ModelGraph.Text.Identifier

/-! # Casing of identifiers

In ASCII every character is a cluster, so the words of an identifier are made of its letters and
digits, in order (`flatten_identifierWords`). Writing words together changes nothing but their case.
Hence both conventions keep an identifier up to underscores and case (`folded_pascal`,
`folded_camel`), leave no underscore in it, and decide how it begins by its first letter or digit
(`head?_pascal`, `head?_camel`). -/

namespace ModelGraph.Text

section Identifiers

theorem ne_underscore_of_isAlphanum {c : Char} (h : c.isAlphanum = true) : c ≠ '_' := by
  rintro rfl
  cases h

/-- A letter is no digit. -/
theorem isAlpha_iff_of_isAlphanum {c : Char} (h : c.isAlphanum = true) :
    c.isAlpha = true ↔ ¬ c.isDigit = true := by
  constructor
  · intro halpha hdigit
    have hle : c.toNat ≤ 57 := of_decide_eq_true (Bool.and_eq_true_iff.1 hdigit).2
    have hge : 65 ≤ c.toNat := by
      rcases Bool.or_eq_true_iff.1 halpha with hupper | hlower
      · exact (of_decide_eq_true hupper).1
      · exact Nat.le_trans (by decide) (of_decide_eq_true (Bool.and_eq_true_iff.1 hlower).1)
    omega
  · exact (Bool.or_eq_true_iff.1 h).resolve_right

/-- Of letters and digits, only letters begin an identifier. -/
theorem isIdentStart_iff_of_isAlphanum {c : Char} (h : c.isAlphanum = true) :
    isIdentStart c = true ↔ ¬ c.isDigit = true := by
  rw [← isAlpha_iff_of_isAlphanum h]
  simp [isIdentStart, ne_underscore_of_isAlphanum h]

/-- An identifier goes on as long as letters, digits and underscores follow. -/
theorem isIdentifier_append {front back : List Char} (hfront : isIdentifier front = true)
    (hback : ∀ c ∈ back, isIdentRest c = true) : isIdentifier (front ++ back) = true := by
  cases front with
  | nil => cases hfront
  | cons c more =>
      simp only [isIdentifier, Bool.and_eq_true, List.all_eq_true] at hfront
      simp only [List.cons_append, isIdentifier, Bool.and_eq_true, List.all_eq_true]
      refine ⟨hfront.1, fun d hd => ?_⟩
      rcases List.mem_append.1 hd with hd | hd
      · exact hfront.2 d hd
      · exact hback d hd

theorem isIdentifier_cons_iff {c : Char} {rest : List Char} (h : ∀ d ∈ rest, isIdentRest d = true) :
    isIdentifier (c :: rest) = true ↔ isIdentStart c = true := by
  simp only [isIdentifier, Bool.and_eq_true, List.all_eq_true, and_iff_left_iff_imp]
  exact fun _ => h

end Identifiers

section Clusters

/-- A class of characters that begins behind ASCII has no ASCII character. -/
theorem inRanges_of_ascii {ranges : List (Nat × Nat)}
    (hranges : ranges.all (fun range => 128 ≤ range.1) = true) {c : Char} (hc : c.toNat < 128) :
    inRanges ranges c = false := by
  rw [inRanges, List.any_eq_false]
  rintro ⟨first, last⟩ hmem
  have hfirst : 128 ≤ first := of_decide_eq_true (List.all_eq_true.1 hranges _ hmem)
  simp only [Bool.and_eq_true, decide_eq_true_eq]
  omega

/-- Nothing in ASCII belongs to its neighbour. -/
theorem joins_of_ascii (ending : ClusterEnd) {a b : Char} (ha : a.toNat < 128)
    (hb : b.toNat < 128) : joins ending a b = false := by
  have hmark : isMark b = false := inRanges_of_ascii (by decide +kernel) hb
  have hspacing : isSpacingMark b = false := inRanges_of_ascii (by decide +kernel) hb
  have hprepended : isPrepended a = false := inRanges_of_ascii (by decide +kernel) ha
  have hpicture : isPicture b = false := inRanges_of_ascii (by decide +kernel) hb
  have hjoiner : (b == joiner) = false := by
    refine beq_false_of_ne ?_
    rintro rfl
    exact absurd hb (by decide)
  simp [joins, hmark, hspacing, hprepended, hpicture, hjoiner]

theorem clustersAfter_of_ascii (ending : ClusterEnd) {a : Char} (ha : a.toNat < 128)
    {text : List Char} (h : ∀ c ∈ text, c.toNat < 128) :
    clustersAfter ending a text = ([], text.map fun c => [c]) := by
  induction text generalizing ending a with
  | nil => rfl
  | cons b rest ih =>
      have hb : b.toNat < 128 := h b List.mem_cons_self
      have hrest := fun ending => ih ending hb fun c hc => h c (List.mem_cons_of_mem b hc)
      simp [clustersAfter, joins_of_ascii ending ha hb, hrest]

/-- In ASCII every character is a cluster. -/
theorem clusters_of_ascii {text : List Char} (h : ∀ c ∈ text, c.toNat < 128) :
    clusters text = text.map fun c => [c] := by
  cases text with
  | nil => rfl
  | cons c rest =>
      have hafter := clustersAfter_of_ascii (ClusterEnd.other.next c) (h c List.mem_cons_self)
        fun d hd => h d (List.mem_cons_of_mem c hd)
      simp [clusters, hafter]

end Clusters

section Words

theorem nameWords_ne_nil (name : List Cluster) : nameWords name ≠ [] := by
  cases name with
  | nil => exact List.cons_ne_nil _ _
  | cons a rest =>
      simp only [nameWords]
      repeat' split
      all_goals exact List.cons_ne_nil _ _

/-- A cluster that is no separator goes to the front of the words behind it, into the first of them
or before it. -/
theorem nameWords_cons {a : Cluster} (ha : a.isSeparator = false) (rest : List Cluster) :
    ∃ word others, nameWords rest = word :: others ∧
      (nameWords (a :: rest) = a :: word :: others ∨
        nameWords (a :: rest) = (a ++ word) :: others) := by
  obtain ⟨word, others, hrest⟩ := List.exists_cons_of_ne_nil (nameWords_ne_nil rest)
  refine ⟨word, others, hrest, ?_⟩
  rw [nameWords.eq_def (a :: rest)]
  simp only [ha, hrest, Bool.false_eq_true, if_false]
  cases rest with
  | nil => exact .inr rfl
  | cons b more =>
      dsimp only
      split
      · exact .inl rfl
      · exact .inr rfl

/-- The words of a name have all of it but the separators. -/
theorem flatten_nameWords (name : List Cluster) :
    (nameWords name).flatten = (name.filter fun a => !a.isSeparator).flatten := by
  induction name with
  | nil => rfl
  | cons a rest ih =>
      cases ha : a.isSeparator with
      | true => simpa [nameWords, ha] using ih
      | false =>
          obtain ⟨word, others, hrest, hboth⟩ := nameWords_cons ha rest
          rw [hrest] at ih
          rcases hboth with heq | heq
          · simp [heq, ha, ← ih]
          · simp [heq, ha, ← ih]

end Words

/-- The letters and digits of a name. -/
def lettered (name : List Char) : List Char :=
  name.filter (· != '_')

/-- A name without its underscores, in lower case. -/
def folded (name : List Char) : List Char :=
  (lettered name).map Char.toLower

@[simp] theorem folded_append (first second : List Char) :
    folded (first ++ second) = folded first ++ folded second := by
  simp [folded, lettered]

section Letters

theorem toNat_lt_of_isAlphanum {c : Char} (h : c.isAlphanum = true) : c.toNat < 128 :=
  toNat_lt_of_isIdentRest (by simp [isIdentRest, h])

/-- What holds of the letters and digits of ASCII holds of all letters and digits. -/
@[elab_as_elim]
theorem of_isAlphanum {motive : Char → Prop} (c : Char) (hc : c.isAlphanum = true)
    (h : ∀ n : Fin 128, (Char.ofNat n).isAlphanum = true → motive (Char.ofNat n)) :
    motive c := by
  rw [← Char.ofNat_toNat c] at hc ⊢
  exact h ⟨c.toNat, toNat_lt_of_isAlphanum (by rwa [Char.ofNat_toNat] at hc)⟩ hc

theorem underscore_not_mem_of_alphanum {name : List Char} (h : ∀ c ∈ name, c.isAlphanum = true) :
    '_' ∉ name :=
  fun hmem => ne_underscore_of_isAlphanum (h _ hmem) rfl

/-- What a change of case does to a letter or digit. It stays a letter or a digit, it is not in the
other case, and its lower case stays the same. -/
structure Recases (change : Char → Char) (other : Char → Bool) (c : Char) : Prop where
  isAlphanum : (change c).isAlphanum = true
  isAlpha : (change c).isAlpha = c.isAlpha
  other_eq : other (change c) = false
  toLower : (change c).toLower = c.toLower

instance (change : Char → Char) (other : Char → Bool) (c : Char) :
    Decidable (Recases change other c) :=
  decidable_of_iff
    ((change c).isAlphanum = true ∧ (change c).isAlpha = c.isAlpha ∧ other (change c) = false ∧
      (change c).toLower = c.toLower)
    ⟨fun ⟨halnum, halpha, hother, hlower⟩ => ⟨halnum, halpha, hother, hlower⟩,
      fun ⟨halnum, halpha, hother, hlower⟩ => ⟨halnum, halpha, hother, hlower⟩⟩

theorem recases_toUpper {c : Char} (h : c.isAlphanum = true) :
    Recases Char.toUpper Char.isLower c :=
  of_isAlphanum c h (by decide +kernel)

theorem recases_toLower {c : Char} (h : c.isAlphanum = true) :
    Recases Char.toLower Char.isUpper c :=
  of_isAlphanum c h (by decide +kernel)

/-- Names without underscores are left as they are. -/
theorem lettered_eq_self {name : List Char} (h : '_' ∉ name) : lettered name = name := by
  rw [lettered, List.filter_eq_self]
  intro c hc
  simp only [bne_iff_ne]
  rintro rfl
  exact h hc

theorem isAlphanum_of_isIdentRest {c : Char} (h : isIdentRest c = true) (hc : c ≠ '_') :
    c.isAlphanum = true := by
  simpa [isIdentRest, hc] using h

theorem isAlphanum_of_mem_lettered {name : List Char} (h : ∀ c ∈ name, isIdentRest c = true) :
    ∀ c ∈ lettered name, c.isAlphanum = true := by
  intro c hc
  obtain ⟨hmem, hne⟩ := List.mem_filter.1 hc
  exact isAlphanum_of_isIdentRest (h c hmem) (by simpa using hne)

/-- In an identifier, words are only cut off by underscores. -/
theorem isSeparator_of_isIdentRest {c : Char} (h : isIdentRest c = true) (hc : c ≠ '_') :
    Cluster.isSeparator [c] = false := by
  have hminus : c ≠ '-' := by
    rintro rfl
    cases h
  have hspace : c ≠ ' ' := by
    rintro rfl
    cases h
  simp [Cluster.isSeparator, hc, hminus, hspace]

/-- The letters and digits of an identifier, word by word. -/
theorem flatten_identifierWords {name : List Char} (h : ∀ c ∈ name, isIdentRest c = true) :
    (nameWords (clusters name)).flatten = lettered name := by
  rw [clusters_of_ascii fun c hc => toNat_lt_of_isIdentRest (h c hc), flatten_nameWords]
  induction name with
  | nil => rfl
  | cons c rest ih =>
      have hrest := ih fun d hd => h d (List.mem_cons_of_mem c hd)
      have hc := h c List.mem_cons_self
      by_cases hunderscore : c = '_'
      · subst hunderscore
        exact hrest
      · have hseparator := isSeparator_of_isIdentRest hc hunderscore
        rw [lettered] at hrest ⊢
        simp [hseparator, hunderscore, hrest]

end Letters

section Written

variable {word : List Char} {words : List (List Char)}

theorem lowerText_of_alphanum (h : ∀ c ∈ word, c.isAlphanum = true) :
    lowerText word = word.map Char.toLower :=
  lowerAfter_of_ascii (fun c hc => toNat_lt_of_isAlphanum (h c hc)) []

theorem capitalized_of_alphanum {c : Char} (h : ∀ d ∈ c :: word, d.isAlphanum = true) :
    capitalized (c :: word) = c.toUpper :: word.map Char.toLower := by
  have hc := toNat_lt_of_isAlphanum (h c List.mem_cons_self)
  have hword := lowerText_of_alphanum fun d hd => h d (List.mem_cons_of_mem c hd)
  rw [capitalized, upper_of_ascii hc, hword]
  rfl

theorem map_toLower_map_toLower (h : ∀ c ∈ word, c.isAlphanum = true) :
    (word.map Char.toLower).map Char.toLower = word.map Char.toLower := by
  rw [List.map_map]
  exact List.map_congr_left fun c hc => (recases_toLower (h c hc)).toLower

theorem map_toLower_capitalized (h : ∀ c ∈ word, c.isAlphanum = true) :
    (capitalized word).map Char.toLower = word.map Char.toLower := by
  cases word with
  | nil => rfl
  | cons c rest =>
      rw [capitalized_of_alphanum h, List.map_cons, List.map_cons,
        (recases_toUpper (h c List.mem_cons_self)).toLower,
        map_toLower_map_toLower fun d hd => h d (List.mem_cons_of_mem c hd)]

theorem isAlphanum_of_mem_capitalized (h : ∀ c ∈ word, c.isAlphanum = true) :
    ∀ c ∈ capitalized word, c.isAlphanum = true := by
  cases word with
  | nil => exact fun c hc => nomatch hc
  | cons d rest =>
      rw [capitalized_of_alphanum h]
      rintro c (_ | ⟨_, hc⟩)
      · exact (recases_toUpper (h d List.mem_cons_self)).isAlphanum
      · obtain ⟨e, he, rfl⟩ := List.mem_map.1 hc
        exact (recases_toLower (h e (List.mem_cons_of_mem d he))).isAlphanum

theorem head?_capitalized_append (h : ∀ c ∈ word, c.isAlphanum = true) (hne : word ≠ [])
    (rest : List Char) : (capitalized word ++ rest).head? = word.head?.map Char.toUpper := by
  cases word with
  | nil => exact absurd rfl hne
  | cons c more =>
      rw [capitalized_of_alphanum h]
      rfl

/-- Capitalizing words changes nothing but their case. -/
theorem map_toLower_flatMap_capitalized (h : ∀ word ∈ words, ∀ c ∈ word, c.isAlphanum = true) :
    (words.flatMap capitalized).map Char.toLower = words.flatten.map Char.toLower := by
  induction words with
  | nil => rfl
  | cons word others ih =>
      have hothers := ih fun other hother => h other (List.mem_cons_of_mem word hother)
      have hword := map_toLower_capitalized (h word List.mem_cons_self)
      rw [List.flatMap_cons, List.flatten_cons, List.map_append, List.map_append, hword, hothers]

/-- Capitalized words begin with the first letter or digit in upper case, empty words or not. -/
theorem head?_flatMap_capitalized (h : ∀ word ∈ words, ∀ c ∈ word, c.isAlphanum = true) :
    (words.flatMap capitalized).head? = words.flatten.head?.map Char.toUpper := by
  induction words with
  | nil => rfl
  | cons word others ih =>
      have hothers := ih fun other hother => h other (List.mem_cons_of_mem word hother)
      rw [List.flatMap_cons, List.flatten_cons]
      cases word with
      | nil => exact hothers
      | cons c rest =>
          exact head?_capitalized_append (h _ List.mem_cons_self) (List.cons_ne_nil c rest) _

end Written

section Conventions

variable {name : List Char}

/-- The words of an identifier have letters and digits only. -/
theorem isAlphanum_of_mem_identifierWords (h : ∀ c ∈ name, isIdentRest c = true) :
    ∀ word ∈ nameWords (clusters name), ∀ c ∈ word, c.isAlphanum = true := by
  intro word hword c hc
  refine isAlphanum_of_mem_lettered h c ?_
  rw [← flatten_identifierWords h]
  exact List.mem_flatten.2 ⟨word, hword, hc⟩

theorem isAlphanum_of_mem_pascal (h : ∀ c ∈ name, isIdentRest c = true) :
    ∀ c ∈ pascal name, c.isAlphanum = true := by
  intro c hc
  obtain ⟨word, hword, hmem⟩ := List.mem_flatMap.1 hc
  exact isAlphanum_of_mem_capitalized (isAlphanum_of_mem_identifierWords h word hword) c hmem

/-- A name in the convention of types begins with its first letter or digit in upper case. -/
theorem head?_pascal (h : ∀ c ∈ name, isIdentRest c = true) :
    (pascal name).head? = (lettered name).head?.map Char.toUpper := by
  rw [pascal, head?_flatMap_capitalized (isAlphanum_of_mem_identifierWords h),
    flatten_identifierWords h]

theorem map_toLower_pascal (h : ∀ c ∈ name, isIdentRest c = true) :
    (pascal name).map Char.toLower = folded name := by
  rw [pascal, map_toLower_flatMap_capitalized (isAlphanum_of_mem_identifierWords h),
    flatten_identifierWords h, folded]

/-- A name with its first word in lower case, and all its letters and digits. -/
theorem exists_camel_eq (h : ∀ c ∈ name, isIdentRest c = true) :
    ∃ first others, nameWords (clusters name) = first :: others ∧
      camel name = first.map Char.toLower ++ others.flatMap capitalized := by
  obtain ⟨first, others, hwords⟩ := List.exists_cons_of_ne_nil (nameWords_ne_nil (clusters name))
  have halnum := isAlphanum_of_mem_identifierWords h
  rw [hwords] at halnum
  refine ⟨first, others, hwords, ?_⟩
  rw [camel, hwords, ← lowerText_of_alphanum (halnum first List.mem_cons_self)]

theorem isAlphanum_of_mem_camel (h : ∀ c ∈ name, isIdentRest c = true) :
    ∀ c ∈ camel name, c.isAlphanum = true := by
  obtain ⟨first, others, hwords, hcamel⟩ := exists_camel_eq h
  have halnum := isAlphanum_of_mem_identifierWords h
  rw [hwords] at halnum
  intro c hc
  rw [hcamel] at hc
  rcases List.mem_append.1 hc with hc | hc
  · obtain ⟨d, hd, rfl⟩ := List.mem_map.1 hc
    exact (recases_toLower (halnum first List.mem_cons_self d hd)).isAlphanum
  · obtain ⟨word, hword, hmem⟩ := List.mem_flatMap.1 hc
    exact isAlphanum_of_mem_capitalized (halnum word (List.mem_cons_of_mem first hword)) c hmem

theorem map_toLower_camel (h : ∀ c ∈ name, isIdentRest c = true) :
    (camel name).map Char.toLower = folded name := by
  obtain ⟨first, others, hwords, hcamel⟩ := exists_camel_eq h
  have halnum := isAlphanum_of_mem_identifierWords h
  rw [hwords] at halnum
  have hothers := map_toLower_flatMap_capitalized
    fun word hword => halnum word (List.mem_cons_of_mem first hword)
  calc (camel name).map Char.toLower
      = (first.map Char.toLower ++ others.flatMap capitalized).map Char.toLower := by rw [hcamel]
    _ = first.map Char.toLower ++ others.flatten.map Char.toLower := by
        rw [List.map_append, hothers, map_toLower_map_toLower (halnum first List.mem_cons_self)]
    _ = (nameWords (clusters name)).flatten.map Char.toLower := by simp [hwords]
    _ = folded name := by rw [flatten_identifierWords h, folded]

/-- A name in the convention of fields begins with its first character in lower case, unless that is
an underscore. -/
theorem head?_camel {c : Char} {rest : List Char} (h : ∀ d ∈ c :: rest, isIdentRest d = true)
    (hc : c ≠ '_') : (camel (c :: rest)).head? = some c.toLower := by
  obtain ⟨first, others, hwords, hcamel⟩ := exists_camel_eq h
  have hclusters := clusters_of_ascii fun d hd => toNat_lt_of_isIdentRest (h d hd)
  have hseparator := isSeparator_of_isIdentRest (h c List.mem_cons_self) hc
  obtain ⟨word, more, -, hboth⟩ := nameWords_cons hseparator (rest.map fun d => [d])
  rw [hclusters, List.map_cons] at hwords
  rw [hcamel]
  rcases hboth with heq | heq <;>
  · rw [heq] at hwords
    obtain ⟨rfl, -⟩ := List.cons.inj hwords
    rfl

/-- The convention of types keeps a name up to underscores and case. -/
theorem folded_pascal (h : ∀ c ∈ name, isIdentRest c = true) :
    folded (pascal name) = folded name := by
  have hnone := underscore_not_mem_of_alphanum (isAlphanum_of_mem_pascal h)
  rw [folded, lettered_eq_self hnone, map_toLower_pascal h]

/-- The convention of fields keeps a name up to underscores and case. -/
theorem folded_camel (h : ∀ c ∈ name, isIdentRest c = true) :
    folded (camel name) = folded name := by
  have hnone := underscore_not_mem_of_alphanum (isAlphanum_of_mem_camel h)
  rw [folded, lettered_eq_self hnone, map_toLower_camel h]

end Conventions

end ModelGraph.Text
