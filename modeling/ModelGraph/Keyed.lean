/-! # Keyed entries

Entries with a name each, kept in the order of names by `alter`. Names are ordered by code points,
which is also the order of their UTF-8 bytes. -/

namespace ModelGraph

/-- Entries with their names, in the order of names. -/
abbrev Keyed (α : Type) := List (String × α)

namespace Keyed

variable {α : Type}

/-- The entry of a name. -/
def get? (entries : Keyed α) (name : String) : Option α :=
  entries.lookup name

/-- Change the entry of a name, or make one. -/
def alter (name : String) (change : Option α → α) : Keyed α → Keyed α
  | [] => [(name, change none)]
  | (other, value) :: rest =>
      if name = other then (name, change (some value)) :: rest
      else if name < other then (name, change none) :: (other, value) :: rest
      else (other, value) :: alter name change rest

/-- The names of the entries. -/
def names (entries : Keyed α) : List String :=
  entries.map Prod.fst

/-- The names strictly increase. -/
def Ordered (entries : Keyed α) : Prop :=
  entries.names.Pairwise (· < ·)

@[simp] theorem get?_nil (name : String) : get? ([] : Keyed α) name = none := rfl

@[simp] theorem names_nil : names ([] : Keyed α) = [] := rfl

@[simp] theorem names_cons (entry : String × α) (rest : Keyed α) :
    names (entry :: rest) = entry.1 :: names rest := rfl

@[simp] theorem ordered_nil : Ordered ([] : Keyed α) := .nil

/-- After a change the names are those before it and the changed one. -/
theorem mem_names_alter {name other : String} {change : Option α → α} {entries : Keyed α} :
    other ∈ (alter name change entries).names ↔ other = name ∨ other ∈ entries.names := by
  induction entries with
  | nil => simp [alter]
  | cons entry rest ih =>
      obtain ⟨key, value⟩ := entry
      simp only [alter]
      split
      · next h => subst h; simp
      · split
        · simp
        · simp only [names_cons, List.mem_cons, ih]
          exact or_left_comm

/-- A change keeps the order of names. -/
theorem Ordered.alter {name : String} {change : Option α → α} {entries : Keyed α}
    (h : Ordered entries) : Ordered (Keyed.alter name change entries) := by
  induction entries with
  | nil => simp [Keyed.alter, Ordered]
  | cons entry rest ih =>
      obtain ⟨key, value⟩ := entry
      simp only [Ordered, names_cons, List.pairwise_cons] at h
      simp only [Keyed.alter]
      split
      · next hk => subst hk; simpa [Ordered] using h
      · next hk =>
        split
        · next hlt =>
          simp only [Ordered, names_cons, List.pairwise_cons, List.mem_cons]
          refine ⟨?_, h⟩
          rintro other (rfl | hother)
          · exact hlt
          · exact String.lt_trans hlt (h.1 other hother)
        · next hlt =>
          simp only [Ordered, names_cons, List.pairwise_cons]
          refine ⟨fun other hother => ?_, ih h.2⟩
          rcases mem_names_alter.1 hother with rfl | hother
          · exact Decidable.byContradiction fun hgt =>
              hk (String.le_antisymm (String.not_lt.1 hgt) (String.not_lt.1 hlt))
          · exact h.1 other hother

/-- A change of one name leaves the entries of the others. -/
theorem get?_alter_of_ne {name other : String} (h : other ≠ name) (change : Option α → α)
    (entries : Keyed α) : (alter name change entries).get? other = entries.get? other := by
  have hne : (other == name) = false := beq_false_of_ne h
  induction entries with
  | nil => simp [alter, get?, List.lookup_cons, hne]
  | cons entry rest ih =>
      obtain ⟨key, value⟩ := entry
      simp only [alter]
      split
      · next hk => subst hk; simp [get?, List.lookup_cons, hne]
      · split
        · simp [get?, List.lookup_cons, hne]
        · simp only [get?] at ih
          simp only [get?, List.lookup_cons, ih]

/-- A name below all others has no entry. -/
theorem get?_eq_none_of_lt {name : String} {entries : Keyed α}
    (h : ∀ other ∈ entries.names, name < other) : entries.get? name = none := by
  refine List.lookup_eq_none_iff.2 fun entry hentry => ?_
  have hlt : name < entry.1 := h entry.1 (List.mem_map_of_mem hentry)
  rw [bne_iff_ne]
  rintro rfl
  exact String.lt_irrefl _ hlt

/-- After a change the entry of the name is what the change made of the one before. -/
theorem get?_alter_self {name : String} {change : Option α → α} {entries : Keyed α}
    (h : Ordered entries) :
    (Keyed.alter name change entries).get? name = some (change (entries.get? name)) := by
  induction entries with
  | nil => simp [Keyed.alter, get?]
  | cons entry rest ih =>
      obtain ⟨key, value⟩ := entry
      simp only [Ordered, names_cons, List.pairwise_cons] at h
      simp only [Keyed.alter]
      split
      · next hk => subst hk; simp [get?]
      · next hk =>
        split
        · next hlt =>
          -- every name after the key is above it, so the name had no entry
          have hnone : Keyed.get? ((key, value) :: rest) name = none := by
            refine get?_eq_none_of_lt ?_
            simp only [names_cons, List.mem_cons]
            rintro other (rfl | hother)
            · exact hlt
            · exact String.lt_trans hlt (h.1 other hother)
          rw [hnone]
          simp [get?]
        · have hne : (name == key) = false := beq_false_of_ne hk
          have := ih h.2
          simp only [get?] at this
          simp only [get?, List.lookup_cons, hne, this]

/-- The entries are those that are found under their names. -/
theorem Ordered.mem_iff {name : String} {value : α} {entries : Keyed α} (h : Ordered entries) :
    (name, value) ∈ entries ↔ entries.get? name = some value := by
  induction entries with
  | nil => simp
  | cons entry rest ih =>
      obtain ⟨key, first⟩ := entry
      simp only [Ordered, names_cons, List.pairwise_cons] at h
      simp only [get?] at ih
      simp only [get?, List.mem_cons, List.lookup_cons, Prod.mk.injEq]
      by_cases hk : name = key
      · subst hk
        -- the name stands below all others, so it does not come again
        have habsent : (name, value) ∉ rest := fun hmem =>
          String.lt_irrefl _ (h.1 name (List.mem_map_of_mem hmem))
        simp [habsent, eq_comm]
      · have hne : (name == key) = false := beq_false_of_ne hk
        simp [hk, hne, ih h.2]

end Keyed

end ModelGraph
