import Mathlib.Data.String.Basic
import ModelGraph.Proofs.Text.ByteOrder

/-! # Texts as their bytes

The bytes of a text in UTF-8, each taken as the character of its number: an ASCII character is its
own byte, and no byte of another character is one. So whatever looks for ASCII characters only finds
the same in the bytes as in the text (`takeWhile_octets`, `isPrefix_octets_iff`). -/

namespace ModelGraph.Text

/-- The bytes of a text in UTF-8, each as the character of its number. -/
def octets (text : List Char) : List Char :=
  text.flatMap fun c => (String.utf8EncodeChar c).map Char.ofUInt8

/-- The class does not tell characters beyond ASCII apart. -/
def AsciiClass (p : Char → Bool) : Prop :=
  ∀ c d : Char, 128 ≤ c.toNat → 128 ≤ d.toNat → p c = p d

theorem ne_of_toNat_lt {c d : Char} (hc : 128 ≤ c.toNat) (hd : d.toNat < 128) : c ≠ d := by
  rintro rfl
  omega

theorem asciiClass_of_eq {p : Char → Bool} (value : Bool)
    (h : ∀ c : Char, 128 ≤ c.toNat → p c = value) : AsciiClass p :=
  fun c d hc hd => (h c hc).trans (h d hd).symm

theorem octets_toList (name : String) : octets name.toList = (bytes name).map Char.ofUInt8 := by
  rw [bytes_eq, List.map_flatMap]
  rfl

@[simp] theorem octets_nil : octets [] = [] := rfl

theorem octets_append (first second : List Char) :
    octets (first ++ second) = octets first ++ octets second :=
  List.flatMap_append

theorem octets_cons (c : Char) (rest : List Char) :
    octets (c :: rest) = octets [c] ++ octets rest :=
  octets_append [c] rest

section Singleton

variable {c : Char}

theorem toNat_ofUInt8 (byte : UInt8) : (Char.ofUInt8 byte).toNat = byte.toNat :=
  UInt8.toNat_toUInt32 byte

theorem octets_singleton (h : c.toNat < 128) : octets [c] = [c] := by
  have hone : c.val.toNat ≤ 127 := Nat.le_of_lt_succ h
  have hencoded : String.utf8EncodeChar c = [UInt8.ofNat c.toNat] := by
    rw [String.utf8EncodeChar, if_pos hone]
    rfl
  have hchar : Char.ofUInt8 (UInt8.ofNat c.toNat) = c := by
    apply Char.toNat_inj.1
    rw [toNat_ofUInt8, UInt8.toNat_ofNat']
    omega
  rw [octets, List.flatMap_singleton, hencoded, List.map_singleton, hchar]

theorem octets_cons_ascii (h : c.toNat < 128) (rest : List Char) :
    octets (c :: rest) = c :: octets rest := by
  rw [octets_cons, octets_singleton h, List.singleton_append]

/-- All bytes of a character beyond ASCII are beyond ASCII. -/
theorem le_toNat_of_mem_octets (h : 128 ≤ c.toNat) : ∀ d ∈ octets [c], 128 ≤ d.toNat := by
  have hlarge : 128 ≤ c.val.toNat := h
  have hbytes : ∀ byte ∈ String.utf8EncodeChar c, 128 ≤ byte.toNat := by
    simp only [String.utf8EncodeChar]
    split_ifs
    · omega
    all_goals
      simp [UInt8.toNat_ofNat']
      omega
  intro d hd
  rw [octets, List.flatMap_singleton] at hd
  obtain ⟨byte, hbyte, rfl⟩ := List.mem_map.1 hd
  rw [toNat_ofUInt8]
  exact hbytes byte hbyte

theorem length_octets_singleton (c : Char) : (octets [c]).length = c.utf8Size := by
  rw [octets, List.flatMap_singleton, List.length_map, String.length_utf8EncodeChar]

/-- Behind its first byte a character has none that is an ASCII character. -/
theorem exists_octets_eq (c : Char) :
    ∃ d more, octets [c] = d :: more ∧ (∀ e ∈ more, 128 ≤ e.toNat) ∧
      (c.toNat < 128 → d = c) ∧ (128 ≤ c.toNat → 128 ≤ d.toNat) := by
  by_cases hc : c.toNat < 128
  · exact ⟨c, [], octets_singleton hc, fun _ => (nomatch ·), fun _ => rfl, fun h => h⟩
  · have hne : octets [c] ≠ [] := by
      rw [← List.length_pos_iff, length_octets_singleton]
      exact c.utf8Size_pos
    obtain ⟨d, more, heq⟩ := List.exists_cons_of_ne_nil hne
    have hhigh := le_toNat_of_mem_octets (Nat.le_of_not_lt hc)
    rw [heq] at hhigh
    obtain ⟨hd, hmore⟩ := List.forall_mem_cons.1 hhigh
    exact ⟨d, more, heq, hmore, fun h => absurd h hc, fun _ => hd⟩

end Singleton

section Text

variable {p : Char → Bool}

theorem length_octets (text : List Char) : (octets text).length = String.utf8Len text := by
  induction text with
  | nil => rfl
  | cons c rest ih =>
      rw [octets_cons, List.length_append, length_octets_singleton, ih, String.utf8Len_cons,
        Nat.add_comm]

/-- The byte that the bytes of a text begin with is in a class if the first character is. -/
theorem head?_octets (hp : AsciiClass p) (text : List Char) :
    (octets text).head?.map p = text.head?.map p := by
  cases text with
  | nil => rfl
  | cons c rest =>
      obtain ⟨d, more, heq, -, hsmall, hlarge⟩ := exists_octets_eq c
      rw [octets_cons, heq]
      by_cases hc : c.toNat < 128
      · rw [hsmall hc]
        rfl
      · have hc := Nat.le_of_not_lt hc
        exact congrArg some (hp d c (hlarge hc) hc)

/-- The bytes at the front of a text that are in a class are those of the characters that are. -/
theorem takeWhile_octets (hp : AsciiClass p) (text : List Char) :
    (octets text).takeWhile p = octets (text.takeWhile p) := by
  induction text with
  | nil => rfl
  | cons c rest ih =>
      have hclass : ∀ d ∈ octets [c], p d = p c := by
        intro d hd
        by_cases hc : c.toNat < 128
        · rw [octets_singleton hc, List.mem_singleton] at hd
          rw [hd]
        · have hc := Nat.le_of_not_lt hc
          exact hp d c (le_toNat_of_mem_octets hc d hd) hc
      rw [octets_cons]
      cases hpc : p c with
      | true =>
          rw [List.takeWhile_append_of_pos fun d hd => (hclass d hd).trans hpc, ih,
            List.takeWhile_cons_of_pos hpc, octets_cons c (rest.takeWhile p)]
      | false =>
          obtain ⟨d, more, heq, -⟩ := exists_octets_eq c
          have hd : p d = false := (hclass d (by rw [heq]; exact List.mem_cons_self)).trans hpc
          rw [heq, List.cons_append, List.takeWhile_cons_of_neg (by simp [hd]),
            List.takeWhile_cons_of_neg (by simp [hpc])]
          rfl

/-- ASCII characters are at the front of the bytes of a text if they are at the front of it. -/
theorem isPrefix_octets_iff {front : List Char} (hfront : ∀ c ∈ front, c.toNat < 128)
    (text : List Char) : front <+: octets text ↔ front <+: text := by
  induction front generalizing text with
  | nil => simp
  | cons c front ih =>
      obtain ⟨hc, hfront⟩ := List.forall_mem_cons.1 hfront
      cases text with
      | nil => simp
      | cons d rest =>
          by_cases hd : d.toNat < 128
          · rw [octets_cons_ascii hd, List.cons_prefix_cons, List.cons_prefix_cons, ih hfront]
          · obtain ⟨e, more, heq, -, -, hlarge⟩ := exists_octets_eq d
            have hd := Nat.le_of_not_lt hd
            have hbyte : c ≠ e := (ne_of_toNat_lt (hlarge hd) hc).symm
            have hchar : c ≠ d := (ne_of_toNat_lt hd hc).symm
            rw [octets_cons, heq, List.cons_append, List.cons_prefix_cons, List.cons_prefix_cons]
            simp [hbyte, hchar]

end Text

end ModelGraph.Text
