import Mathlib.Data.List.Basic

/-! # The order of names by their bytes

Names are ordered by code points. The bytes of a name in UTF-8 keep that order, so that entries in
the order of names are in the order of the bytes of their names (`bytes_lt`). -/

namespace ModelGraph.Text

/-- The bytes of a name in UTF-8. -/
def bytes (name : String) : List UInt8 :=
  name.toUTF8.data.toList

theorem bytes_eq (name : String) : bytes name = name.toList.flatMap String.utf8EncodeChar := by
  have hencoded : name.toByteArray = name.toList.utf8Encode := by
    rw [← String.toByteArray_ofList, String.ofList_toList]
  rw [bytes, String.toUTF8, hencoded, List.utf8Encode, List.toList_data_toByteArray]

theorem ofNat_lt_iff {a b : Nat} : UInt8.ofNat a < UInt8.ofNat b ↔ a % 256 < b % 256 := by
  simp [UInt8.lt_iff_toNat_lt, UInt8.toNat_ofNat']

theorem ofNat_eq_iff {a b : Nat} : UInt8.ofNat a = UInt8.ofNat b ↔ a % 256 = b % 256 := by
  simp [← UInt8.toNat_inj, UInt8.toNat_ofNat']

theorem toNat_val_lt (c : Char) : c.val.toNat < 1114112 := by
  rcases c.valid with hlow | hhigh
  · have hsmall : c.val.toNat < 0xd800 := hlow
    omega
  · exact hhigh.2

/-- Of two characters the bytes of the lesser one come first, whatever stands behind them: more
bytes begin with a greater one, and as many have the digits to the base 64 in order. -/
theorem utf8EncodeChar_lt {c d : Char} (h : c < d) (more more' : List UInt8) :
    String.utf8EncodeChar c ++ more < String.utf8EncodeChar d ++ more' := by
  have hlt : c.val.toNat < d.val.toNat := h
  have hbound := toNat_val_lt d
  have hsecond : ∀ n, n / 4096 = n / 64 / 64 := by omega
  have hthird : ∀ n, n / 262144 = n / 64 / 64 / 64 := by omega
  simp only [String.utf8EncodeChar, hsecond, hthird]
  split_ifs <;>
    simp only [List.cons_append, List.nil_append, List.cons_lt_cons_iff, ofNat_lt_iff,
      ofNat_eq_iff] <;>
    omega

theorem flatMap_utf8EncodeChar_lt {first second : List Char} (h : first < second) :
    first.flatMap String.utf8EncodeChar < second.flatMap String.utf8EncodeChar := by
  induction h with
  | @nil c rest =>
      have hne : String.utf8EncodeChar c ≠ [] := by
        rw [← List.length_pos_iff, String.length_utf8EncodeChar]
        exact c.utf8Size_pos
      obtain ⟨byte, more, hbytes⟩ := List.exists_cons_of_ne_nil hne
      rw [List.flatMap_cons, hbytes]
      exact List.nil_lt_cons _ _
  | rel hlt =>
      rw [List.flatMap_cons, List.flatMap_cons]
      exact utf8EncodeChar_lt hlt _ _
  | cons _ ih =>
      rw [List.flatMap_cons, List.flatMap_cons]
      exact List.append_left_lt ih

/-- Names in order have their bytes in order. -/
theorem bytes_lt {name other : String} (h : name < other) : bytes name < bytes other := by
  rw [bytes_eq, bytes_eq]
  exact flatMap_utf8EncodeChar_lt (String.lt_iff.1 h)

/-- The same holds of lists of names. -/
theorem map_bytes_lt {names others : List String} (h : names < others) :
    names.map bytes < others.map bytes := by
  induction h with
  | nil => exact .nil
  | rel hlt => exact .rel (bytes_lt hlt)
  | cons _ ih => exact .cons ih

end ModelGraph.Text
