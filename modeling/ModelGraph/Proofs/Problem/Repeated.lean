import Mathlib.Data.Finset.Card
import ModelGraph.Problem.MemberName
import ModelGraph.Proofs.Problem.Unresolved

/-! # The report of repeated names

The report of an entity has one message for each field whose name occurred before, in the order of
the fields, and each tells the nearest earlier field of the name (`enumerates_duplicateNames`). So
there are as many messages as fields beyond the distinct names (`length_duplicateNames`). -/

namespace ModelGraph

/-- The field at a position is the last one of its name. -/
def LastAt (fields : List Field) (name : String) (j : Nat) (earlier : Field) : Prop :=
  fields[j]? = some earlier ∧ earlier.name = name ∧
    ∀ i, j < i → ∀ other, fields[i]? = some other → other.name ≠ name

/-- The name of the field at a position occurred before, and the message is about the nearest
earlier field of the name and that field. -/
def RepeatsAt (fields : List Field) (k : Nat) (message : String) : Prop :=
  ∃ field, fields[k]? = some field ∧ ∃ j earlier, LastAt (fields.take k) field.name j earlier ∧
    message = duplicateMessage field.name earlier.ident field.ident

/-- What a scan remembers of the fields it has passed: the last one first. -/
def seenOf (fields : List Field) : List (String × String) :=
  (fields.map fun field => (field.name, field.ident)).reverse

theorem seenOf_append_singleton (before : List Field) (field : Field) :
    seenOf (before ++ [field]) = (field.name, field.ident) :: seenOf before := by
  simp [seenOf]

theorem lastAt_append_singleton_iff {before : List Field} {last earlier : Field} {name : String}
    {j : Nat} :
    LastAt (before ++ [last]) name j earlier ↔
      (last.name = name ∧ j = before.length ∧ earlier = last) ∨
        (last.name ≠ name ∧ LastAt before name j earlier) := by
  have hlast : (before ++ [last])[before.length]? = some last := List.getElem?_concat_length
  constructor
  · rintro ⟨hj, hname, hafter⟩
    have hlt := (List.getElem?_eq_some_iff.1 hj).1
    rw [List.length_append, List.length_singleton, Nat.lt_succ_iff_lt_or_eq] at hlt
    rcases hlt with hlt | rfl
    · right
      refine ⟨hafter _ hlt last hlast, ?_, hname, fun i hi other hother => ?_⟩
      · rwa [List.getElem?_append_left hlt] at hj
      · apply hafter i hi other
        rwa [List.getElem?_append_left (List.getElem?_eq_some_iff.1 hother).1]
    · left
      obtain rfl : last = earlier := Option.some.inj (hlast.symm.trans hj)
      exact ⟨hname, rfl, rfl⟩
  · rintro (⟨hname, rfl, rfl⟩ | ⟨hne, hj, hname, hafter⟩)
    · refine ⟨hlast, hname, fun i hi other hother => ?_⟩
      have hlt := (List.getElem?_eq_some_iff.1 hother).1
      rw [List.length_append, List.length_singleton] at hlt
      omega
    · have hlt := (List.getElem?_eq_some_iff.1 hj).1
      refine ⟨by rwa [List.getElem?_append_left hlt], hname, fun i hi other hother => ?_⟩
      rcases Nat.lt_trichotomy i before.length with hi' | rfl | hi'
      · rw [List.getElem?_append_left hi'] at hother
        exact hafter i hi other hother
      · rw [hlast, Option.some.injEq] at hother
        exact hother ▸ hne
      · rw [List.getElem?_eq_none (by simp; omega)] at hother
        cases hother

/-- A scan finds the last field of a name. -/
theorem lookup_seenOf_eq_some_iff {before : List Field} {name ident : String} :
    (seenOf before).lookup name = some ident ↔
      ∃ j earlier, LastAt before name j earlier ∧ earlier.ident = ident := by
  induction before using List.reverseRecOn with
  | nil => simp [seenOf, LastAt]
  | append_singleton fields last ih =>
      simp only [seenOf_append_singleton, List.lookup_cons, lastAt_append_singleton_iff]
      by_cases hlast : last.name = name
      · simp [hlast]
      · simp [hlast, beq_false_of_ne (Ne.symm hlast), ih]

/-- The first field behind the fields `before` repeats a name if a scan of them has seen it. -/
theorem repeatsAt_length_iff {before rest : List Field} {field : Field} {message : String} :
    RepeatsAt (before ++ field :: rest) before.length message ↔
      ∃ earlier, (seenOf before).lookup field.name = some earlier ∧
        message = duplicateMessage field.name earlier field.ident := by
  have hfield : (before ++ field :: rest)[before.length]? = some field := by simp
  have htake : (before ++ field :: rest).take before.length = before := by simp
  simp only [RepeatsAt, hfield, htake, Option.some.injEq, exists_eq_left',
    lookup_seenOf_eq_some_iff]
  constructor
  · rintro ⟨j, earlier, hlast, rfl⟩
    exact ⟨earlier.ident, ⟨j, earlier, hlast, rfl⟩, rfl⟩
  · rintro ⟨ident, ⟨j, earlier, hlast, rfl⟩, rfl⟩
    exact ⟨j, earlier, hlast, rfl⟩

/-- The message about one field, if there is one, is about its position. -/
theorem enumerates_here (before rest : List Field) (field : Field) :
    ∃ positions, Enumerates (· < ·)
      (fun k message => k = before.length ∧ RepeatsAt (before ++ field :: rest) k message)
      positions (((seenOf before).lookup field.name).map fun earlier =>
        duplicateMessage field.name earlier field.ident).toList := by
  cases hseen : (seenOf before).lookup field.name with
  | none =>
      refine ⟨[], .nil ?_⟩
      rintro k message ⟨rfl, hrepeats⟩
      obtain ⟨earlier, hearlier, -⟩ := repeatsAt_length_iff.1 hrepeats
      rw [hseen] at hearlier
      cases hearlier
  | some earlier =>
      refine ⟨[before.length], .single fun k message => and_congr_right fun hk => ?_⟩
      rw [hk, repeatsAt_length_iff, hseen]
      simp

theorem duplicatesAfter_cons (seen : List (String × String)) (field : Field) (rest : List Field) :
    duplicatesAfter seen (field :: rest) =
      ((seen.lookup field.name).map fun earlier =>
          duplicateMessage field.name earlier field.ident).toList ++
        duplicatesAfter ((field.name, field.ident) :: seen) rest := by
  rw [duplicatesAfter]
  cases seen.lookup field.name <;> rfl

/-- The messages of a scan that has passed the fields `before` are about the fields behind. The
induction is on those, and moves each to the ones that are passed. -/
theorem enumerates_duplicatesAfter (before rest : List Field) :
    ∃ positions, Enumerates (· < ·)
      (fun k message => before.length ≤ k ∧ RepeatsAt (before ++ rest) k message) positions
      (duplicatesAfter (seenOf before) rest) := by
  induction rest generalizing before with
  | nil =>
      refine ⟨[], .nil ?_⟩
      rintro k message ⟨hk, field, hfield, -⟩
      rw [List.append_nil, List.getElem?_eq_none hk] at hfield
      cases hfield
  | cons field rest ih =>
      obtain ⟨behind, hbehind⟩ := ih (before ++ [field])
      rw [List.append_assoc, List.singleton_append, seenOf_append_singleton, List.length_append,
        List.length_singleton] at hbehind
      obtain ⟨here, hhere⟩ := enumerates_here before rest field
      rw [duplicatesAfter_cons]
      refine ⟨here ++ behind, (hhere.append hbehind ?_).imp ?_ ?_⟩
      · rintro _ _ k _ ⟨rfl, -⟩ ⟨hk, -⟩
        exact hk
      · rintro k message (⟨rfl, hrepeats⟩ | ⟨hk, hrepeats⟩)
        · exact ⟨Nat.le_refl _, hrepeats⟩
        · exact ⟨Nat.le_of_succ_le hk, hrepeats⟩
      · rintro k message ⟨hk, hrepeats⟩
        rcases Nat.eq_or_lt_of_le hk with rfl | hlt
        · exact ⟨message, .inl ⟨rfl, hrepeats⟩⟩
        · exact ⟨message, .inr ⟨hlt, hrepeats⟩⟩

/-- The report of an entity has a message for every field whose name occurred before. -/
theorem enumerates_duplicateNames (entity : Entity) :
    ∃ positions, Enumerates (· < ·) (RepeatsAt entity.body.fields) positions
      entity.duplicateNames := by
  obtain ⟨positions, h⟩ := enumerates_duplicatesAfter [] entity.body.fields
  refine ⟨positions, h.imp ?_ ?_⟩
  · rintro k message ⟨-, hrepeats⟩
    exact hrepeats
  · intro k message hrepeats
    exact ⟨message, Nat.zero_le k, hrepeats⟩

/-- A scan reports as many fields as are left over when each new name is taken once. -/
theorem length_duplicatesAfter (seen : List (String × String)) (fields : List Field) :
    (duplicatesAfter seen fields).length +
        (seen.map Prod.fst ++ fields.map Field.name).toFinset.card =
      fields.length + (seen.map Prod.fst).toFinset.card := by
  induction fields generalizing seen with
  | nil => simp [duplicatesAfter]
  | cons field rest ih =>
      have hnext := ih ((field.name, field.ident) :: seen)
      have hsame : (((field.name, field.ident) :: seen).map Prod.fst ++
          rest.map Field.name).toFinset =
            (seen.map Prod.fst ++ (field :: rest).map Field.name).toFinset := by
        ext name
        simp only [List.mem_toFinset, List.mem_append, List.map_cons, List.mem_cons]
        tauto
      have hinsert : (((field.name, field.ident) :: seen).map Prod.fst).toFinset =
          insert field.name (seen.map Prod.fst).toFinset := List.toFinset_cons
      rw [hsame, hinsert] at hnext
      rw [duplicatesAfter_cons, List.length_append, List.length_cons]
      cases hseen : seen.lookup field.name with
      | none =>
          have hnew : field.name ∉ (seen.map Prod.fst).toFinset := by
            rw [List.mem_toFinset, List.mem_map]
            rintro ⟨entry, he, heq⟩
            have hne := List.lookup_eq_none_iff.1 hseen entry he
            rw [heq, bne_self_eq_false] at hne
            cases hne
          rw [Finset.card_insert_of_notMem hnew] at hnext
          simp only [Option.map_none, Option.toList_none, List.length_nil]
          omega
      | some earlier =>
          have hold : field.name ∈ (seen.map Prod.fst).toFinset := by
            obtain ⟨before, after, rfl, -⟩ := List.lookup_eq_some_iff.1 hseen
            simp
          rw [Finset.insert_eq_of_mem hold] at hnext
          simp only [Option.map_some, Option.toList_some, List.length_singleton]
          omega

/-- The report has as many messages as there are fields beyond the distinct names. -/
theorem length_duplicateNames (entity : Entity) :
    entity.duplicateNames.length =
      entity.body.fields.length - (entity.body.fields.map Field.name).dedup.length := by
  have h := length_duplicatesAfter [] entity.body.fields
  simp only [List.map_nil, List.nil_append, List.toFinset_nil, Finset.card_empty, Nat.add_zero,
    List.card_toFinset] at h
  rw [Entity.duplicateNames]
  omega

/-- Nothing is reported exactly if the names are pairwise distinct. -/
theorem duplicateNames_eq_nil_iff {entity : Entity} :
    entity.duplicateNames = [] ↔ (entity.body.fields.map Field.name).Nodup := by
  have hle := (List.dedup_sublist (entity.body.fields.map Field.name)).length_le
  rw [List.length_map] at hle
  rw [← List.length_eq_zero_iff, length_duplicateNames, ← List.dedup_eq_self]
  constructor
  · intro hzero
    apply (List.dedup_sublist _).eq_of_length
    rw [List.length_map]
    omega
  · intro hself
    rw [hself, List.length_map, Nat.sub_self]

end ModelGraph
