import ModelGraph.Registry

/-! # The index of a registry

The index gives every registered name its position and knows no other name. Hence names are
pairwise distinct, and looking a name up finds the one entity that has it. -/

namespace ModelGraph.Registry

/-- The index maps exactly the names of the entities to their positions. -/
def Indexed (registry : Registry) : Prop :=
  ∀ name i, registry.position? name = some i ↔ registry.names[i]? = some name

theorem indexed_empty : Indexed empty := by
  intro name i
  simp [position?, empty, names]

section Look

variable {registry : Registry} (h : registry.Indexed)
include h

theorem Indexed.nodup_names : registry.names.Nodup := by
  rw [List.Nodup, List.pairwise_iff_getElem]
  intro i j hi hj hij heq
  have hpi := (h _ _).2 (List.getElem?_eq_getElem hi)
  have hpj := (h _ _).2 (List.getElem?_eq_getElem hj)
  rw [heq, hpj, Option.some.injEq] at hpi
  omega

theorem Indexed.contains_iff {name : String} :
    registry.contains name = true ↔ name ∈ registry.names := by
  rw [contains, Option.isSome_iff_exists, List.mem_iff_getElem?]
  exact exists_congr fun i => h name i

/-- Looking a name up finds the entity that has it. -/
theorem Indexed.get?_eq_some_iff {name : String} {entity : Entity} :
    registry.get? name = some entity ↔ entity ∈ registry.entities ∧ entity.name = name := by
  simp only [get?, Option.bind_eq_some_iff]
  constructor
  · rintro ⟨i, hi, he⟩
    have hn := (h name i).1 hi
    simp only [names, List.getElem?_map, he, Option.map_some, Option.some.injEq] at hn
    exact ⟨List.mem_of_getElem? he, hn⟩
  · rintro ⟨he, rfl⟩
    obtain ⟨i, hi⟩ := List.mem_iff_getElem?.1 he
    exact ⟨i, (h _ i).2 (by simp [names, hi]), hi⟩

/-- Something is found under a name exactly if an entity has it. -/
theorem Indexed.isSome_get?_iff {name : String} :
    (registry.get? name).isSome = true ↔ name ∈ registry.names := by
  simp [Option.isSome_iff_exists, h.get?_eq_some_iff, names]

theorem Indexed.get?_eq_find? (name : String) :
    registry.get? name = registry.entities.find? (·.name == name) := by
  cases hf : registry.entities.find? (·.name == name) with
  | some entity =>
      have hn : entity.name = name := by simpa using List.find?_some hf
      exact h.get?_eq_some_iff.2 ⟨List.mem_of_find?_eq_some hf, hn⟩
  | none =>
      rw [List.find?_eq_none] at hf
      refine Option.eq_none_iff_forall_ne_some.2 fun entity he => ?_
      obtain ⟨hmem, hn⟩ := h.get?_eq_some_iff.1 he
      exact hf entity hmem (by simpa using hn)

/-- A name at two positions is at one. -/
theorem Indexed.position_unique {i j : Nat} {a b : Entity} (hi : registry.entities[i]? = some a)
    (hj : registry.entities[j]? = some b) (hn : a.name = b.name) : i = j := by
  have hpi := (h a.name i).2 (by simp [names, hi])
  have hpj := (h b.name j).2 (by simp [names, hj])
  rw [hn, hpj, Option.some.injEq] at hpi
  exact hpi.symm

/-- What two registries of the same names find under a name is related if entities of one name
are. -/
theorem Indexed.rel_get? {other : Registry} (hother : other.Indexed)
    (hnames : registry.names.Perm other.names) {Related : Entity → Entity → Prop}
    (hrelated : ∀ a ∈ registry.entities, ∀ b ∈ other.entities, a.name = b.name → Related a b)
    (name : String) : Option.Rel Related (registry.get? name) (other.get? name) := by
  have hboth : (registry.get? name).isSome = true ↔ (other.get? name).isSome = true := by
    rw [h.isSome_get?_iff, hother.isSome_get?_iff, hnames.mem_iff]
  cases ha : registry.get? name with
  | none =>
      cases hb : other.get? name with
      | none => exact .none
      | some b => simp [ha, hb] at hboth
  | some a =>
      cases hb : other.get? name with
      | none => simp [ha, hb] at hboth
      | some b =>
          obtain ⟨hmem, hname⟩ := h.get?_eq_some_iff.1 ha
          obtain ⟨hmem', hname'⟩ := hother.get?_eq_some_iff.1 hb
          exact .some (hrelated a hmem b hmem' (hname.trans hname'.symm))

/-- Entities that keep their names keep the index. -/
theorem Indexed.of_names_eq {next : Registry} (hp : next.positions = registry.positions)
    (hn : next.names = registry.names) : next.Indexed := by
  intro name i
  rw [hn, ← h name i, position?, position?, hp]

end Look

section Register

variable {registry next : Registry} {entity : Entity}

/-- An entity is registered exactly if its name is new, and then it comes last. -/
theorem register_eq_ok_iff :
    registry.register entity = .ok next ↔
      registry.contains entity.name = false ∧
        next = { entities := registry.entities ++ [entity]
                 positions := (entity.name, registry.entities.length) :: registry.positions } := by
  rw [register_eq]
  split
  · next hc => simp [hc]
  · next hc =>
    rw [Bool.not_eq_true] at hc
    simp [hc, eq_comm]

/-- The only reason not to register an entity is that its name is taken. -/
theorem register_eq_error_iff {error : ResolutionError} :
    registry.register entity = .error error ↔
      registry.contains entity.name = true ∧ error = .duplicateEntity entity.name := by
  rw [register_eq]
  split
  · next hc => simp [hc, eq_comm]
  · next hc => simp [hc]

theorem names_of_register (hr : registry.register entity = .ok next) :
    next.names = registry.names ++ [entity.name] := by
  rw [names, entities_of_register hr, List.map_append]
  rfl

theorem Indexed.register (h : registry.Indexed) (hr : registry.register entity = .ok next) :
    next.Indexed := by
  have hnew : entity.name ∉ registry.names := by
    rw [← h.contains_iff, (register_eq_ok_iff.1 hr).1]
    exact Bool.false_ne_true
  have hlen : registry.names.length = registry.entities.length := List.length_map _
  intro name i
  rw [names_of_register hr, (register_eq_ok_iff.1 hr).2]
  simp only [position?, List.lookup_cons]
  by_cases hn : name = entity.name
  · -- the new name has one position, the last
    subst hn
    simp only [beq_self_eq_true, Option.some.injEq]
    constructor
    · rintro rfl
      rw [← hlen, List.getElem?_concat_length]
    · intro hi
      rcases Nat.lt_trichotomy i registry.names.length with hlt | heq | hgt
      · rw [List.getElem?_append_left hlt] at hi
        exact absurd (List.mem_of_getElem? hi) hnew
      · rw [← hlen, heq]
      · rw [List.getElem?_eq_none (by simp; omega)] at hi
        cases hi
  · simp only [beq_false_of_ne hn]
    rw [show registry.positions.lookup name = registry.position? name from rfl, h name i]
    rcases Nat.lt_trichotomy i registry.names.length with hlt | heq | hgt
    · rw [List.getElem?_append_left hlt]
    · subst heq
      rw [List.getElem?_concat_length, List.getElem?_eq_none (Nat.le_refl _)]
      simp [Ne.symm hn]
    · rw [List.getElem?_eq_none (by omega), List.getElem?_eq_none (by simp; omega)]

end Register

end ModelGraph.Registry
