import ModelGraph.Capability.Store

/-! # Ledgers of the capability store

What the operations of a capability store do to what it shows under a name: the capabilities
announced to it and how many of them were delivered. No operation on one name changes what is shown
under another. -/

namespace ModelGraph.CapabilityStore

/-- How many of the capabilities announced to a name were delivered. -/
def delivered (store : CapabilityStore) (name : String) : Nat :=
  ((store.ledgers.get? name).map Ledger.delivered).getD 0

/-- Something that was announced to the name was not delivered. -/
def Pending (store : CapabilityStore) (name : String) : Prop :=
  store.delivered name < (store.announced name).length

/-- Ledgers stand in the order of names, and nothing is delivered that was not announced. -/
structure Sound (store : CapabilityStore) : Prop where
  ordered : store.ledgers.Ordered
  delivered_le : ∀ name, store.delivered name ≤ (store.announced name).length

@[simp] theorem announced_empty (name : String) : ({} : CapabilityStore).announced name = [] := rfl

@[simp] theorem delivered_empty (name : String) : ({} : CapabilityStore).delivered name = 0 := rfl

theorem sound_empty : Sound {} where
  ordered := Keyed.ordered_nil
  delivered_le _ := Nat.le_refl 0

section Announce

variable {store : CapabilityStore} (name : String) (capability : Capability)

/-- An announcement goes to the end of the ledger of its name. -/
theorem announced_announce (h : Sound store) (other : String) :
    (store.announce name capability).announced other =
      store.announced other ++ if other = name then [capability] else [] := by
  by_cases hn : other = name
  · subst hn
    simp only [announced, announce, Keyed.get?_alter_self h.ordered, if_true]
    cases store.ledgers.get? other <;> rfl
  · simp [announced, announce, Keyed.get?_alter_of_ne hn, hn]

/-- An announcement delivers nothing. -/
theorem delivered_announce (h : Sound store) (other : String) :
    (store.announce name capability).delivered other = store.delivered other := by
  by_cases hn : other = name
  · subst hn
    simp only [delivered, announce, Keyed.get?_alter_self h.ordered]
    cases store.ledgers.get? other <;> rfl
  · simp [delivered, announce, Keyed.get?_alter_of_ne hn]

theorem Sound.announce (h : Sound store) : Sound (store.announce name capability) where
  ordered := h.ordered.alter
  delivered_le other := by
    rw [delivered_announce name capability h, announced_announce name capability h,
      List.length_append]
    exact Nat.le_add_right_of_le (h.delivered_le other)

end Announce

section Deliver

variable (store : CapabilityStore) (name : String)

/-- A delivery hands out what was announced and not delivered before. -/
theorem deliver_fst :
    (store.deliver name).1 = (store.announced name).drop (store.delivered name) := by
  simp only [deliver, announced, delivered]
  cases store.ledgers.get? name <;> simp [Ledger.pending]

variable {store}

/-- A delivery changes nothing about what was announced. -/
theorem announced_deliver (h : Sound store) (other : String) :
    (store.deliver name).2.announced other = store.announced other := by
  simp only [deliver]
  split
  · rfl
  · next ledger hl =>
    by_cases hn : other = name
    · subst hn
      simp [announced, Keyed.get?_alter_self h.ordered, hl]
    · simp [announced, Keyed.get?_alter_of_ne hn]

/-- After a delivery everything announced to the name is delivered. -/
theorem delivered_deliver (h : Sound store) (other : String) :
    (store.deliver name).2.delivered other =
      if other = name then (store.announced name).length else store.delivered other := by
  simp only [deliver]
  split
  · next hl =>
    split
    · next hn =>
      subst hn
      simp [delivered, announced, hl]
    · rfl
  · next ledger hl =>
    by_cases hn : other = name
    · subst hn
      simp [delivered, announced, Keyed.get?_alter_self h.ordered, hl]
    · simp [delivered, Keyed.get?_alter_of_ne hn, hn]

theorem Sound.deliver (h : Sound store) : Sound (store.deliver name).2 where
  ordered := by
    simp only [CapabilityStore.deliver]
    split
    · exact h.ordered
    · exact h.ordered.alter
  delivered_le other := by
    rw [delivered_deliver name h, announced_deliver name h]
    split
    · next hn => exact hn ▸ Nat.le_refl _
    · exact h.delivered_le other

/-- A delivery leaves what is pending for other names. -/
theorem pending_deliver_iff (h : Sound store) {other : String} :
    (store.deliver name).2.Pending other ↔ other ≠ name ∧ store.Pending other := by
  rw [Pending, announced_deliver name h, delivered_deliver name h]
  split
  · next heq => simp [heq]
  · next hne => simp [hne, Pending]

end Deliver

section Names

variable {store : CapabilityStore} (h : Sound store)
include h

/-- The store lists the names that something is pending for. -/
theorem mem_pendingNames_iff {name : String} :
    name ∈ store.pendingNames ↔ store.Pending name := by
  have hmem : name ∈ store.pendingNames ↔
      ∃ ledger, store.ledgers.get? name = some ledger ∧
        ledger.delivered < ledger.announced.length := by
    simp [pendingNames, undelivered, List.mem_mergeSort, Keyed.names, h.ordered.mem_iff]
  rw [hmem, Pending, delivered, announced]
  cases store.ledgers.get? name <;> simp

/-- A name has one ledger. -/
theorem nodup_undelivered : store.undelivered.Nodup := by
  have hsublist : store.undelivered.Sublist store.ledgers.names := List.filter_sublist.map _
  refine (h.ordered.sublist hsublist).imp fun hlt => ?_
  rintro rfl
  exact String.lt_irrefl _ hlt

/-- The names are listed in order, each once. -/
theorem pairwise_pendingNames : store.pendingNames.Pairwise (· < ·) := by
  have hsorted : store.pendingNames.Pairwise fun name other => !decide (other < name) := by
    refine List.pairwise_mergeSort (fun a b c hab hbc => ?_) (fun a b => ?_) store.undelivered
    · simp only [Bool.not_eq_true', decide_eq_false_iff_not, String.not_lt] at hab hbc ⊢
      exact String.le_trans hab hbc
    · simp only [Bool.or_eq_true, Bool.not_eq_true', decide_eq_false_iff_not, String.not_lt]
      exact String.le_total a b
  have hnodup : store.pendingNames.Nodup :=
    (List.mergeSort_perm _ _).nodup_iff.2 (nodup_undelivered h)
  refine hsorted.imp₂ (fun name other hle hne => ?_) hnodup
  simp only [Bool.not_eq_true', decide_eq_false_iff_not, String.not_lt] at hle
  exact Decidable.byContradiction fun hge => hne (String.le_antisymm hle (String.not_lt.1 hge))

end Names

end ModelGraph.CapabilityStore
