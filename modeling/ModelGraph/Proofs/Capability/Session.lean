import ModelGraph.Proofs.Capability.Ledger

/-! # Sessions of the capability store

A session is a store with the calls that were made of it so far and what it answered. Whatever the
calls, each capability that is announced to a name is delivered to it at most once and in order, and
what was not delivered is what the next delivery hands out (`delivered_once_of_calls`). -/

namespace ModelGraph.CapabilityStore

/-- What may be asked of a store. -/
inductive Call where
  | announce (name : String) (capability : Capability)
  | read (name : String)
  | deliver (name : String)
  | listPending
  deriving DecidableEq, Repr

/-- What a store answers. -/
inductive Reply where
  | done
  | capabilities (found : List Capability)
  | names (found : List String)
  deriving DecidableEq, Repr

/-- The name that a call is about. -/
def Call.name? : Call → Option String
  | announce name _ | read name | deliver name => some name
  | listPending => none

/-- The answer of a store to a call, and the store after it. -/
def answer (store : CapabilityStore) : Call → Reply × CapabilityStore
  | .announce name capability => (.done, store.announce name capability)
  | .read name => (.capabilities (store.announced name), store)
  | .deliver name => (.capabilities (store.deliver name).1, (store.deliver name).2)
  | .listPending => (.names store.pendingNames, store)

/-- What a store shows of a name: all that was announced to it, what the next delivery would hand
out, and whether it is listed as pending. -/
structure View where
  announced : List Capability
  rest : List Capability
  listed : Bool
  deriving DecidableEq, Repr

/-- What the store shows of a name. -/
def view (store : CapabilityStore) (name : String) : View where
  announced := store.announced name
  rest := (store.deliver name).1
  listed := store.pendingNames.contains name

/-- A store, and what it was asked and answered so far. -/
structure Session where
  store : CapabilityStore := {}
  history : List (Call × Reply) := []

namespace Session

/-- Make one more call. -/
def ask (session : Session) (call : Call) : Session where
  store := (session.store.answer call).2
  history := session.history ++ [(call, (session.store.answer call).1)]

/-- Make calls one after the other. -/
def askAll (session : Session) (calls : List Call) : Session :=
  calls.foldl ask session

end Session

/-- What a call announces to a name. -/
def Call.announcedTo? (name : String) : Call → Option Capability
  | announce other capability => if other = name then some capability else none
  | _ => none

/-- What calls announce to a name, in order. -/
def announcedBy (calls : List Call) (name : String) : List Capability :=
  calls.filterMap (Call.announcedTo? name)

/-- What an answered call delivered to a name. -/
def deliveredTo (name : String) : Call × Reply → List Capability
  | (.deliver other, .capabilities found) => if other = name then found else []
  | _ => []

/-- All that was delivered to a name, one delivery after the other. -/
def deliveredIn (history : List (Call × Reply)) (name : String) : List Capability :=
  history.flatMap (deliveredTo name)

section Step

variable {store : CapabilityStore} (h : Sound store) (call : Call)
include h

theorem Sound.answer : Sound (store.answer call).2 := by
  cases call with
  | announce name capability => exact h.announce name capability
  | deliver name => exact h.deliver name
  | read | listPending => exact h

/-- A call adds to what is announced to a name what it announces to it. -/
theorem announced_answer (name : String) :
    (store.answer call).2.announced name =
      store.announced name ++ (call.announcedTo? name).toList := by
  cases call with
  | announce other capability =>
      rw [CapabilityStore.answer, announced_announce other capability h, Call.announcedTo?]
      by_cases hn : other = name
      · simp [hn]
      · simp [hn, Ne.symm hn]
  | deliver other => simp [CapabilityStore.answer, announced_deliver other h, Call.announcedTo?]
  | read | listPending => simp [CapabilityStore.answer, Call.announcedTo?]

/-- The delivered part of what is announced to a name grows by what a call delivers to it. -/
theorem take_delivered_answer (name : String) :
    ((store.answer call).2.announced name).take ((store.answer call).2.delivered name) =
      (store.announced name).take (store.delivered name) ++
        deliveredTo name (call, (store.answer call).1) := by
  cases call with
  | announce other capability =>
      -- what is announced last is not delivered yet
      rw [announced_answer h, CapabilityStore.answer, delivered_announce other capability h,
        List.take_append_of_le_length (h.delivered_le name)]
      simp [deliveredTo]
  | deliver other =>
      rw [announced_answer h, CapabilityStore.answer, delivered_deliver other h,
        store.deliver_fst]
      by_cases hn : other = name
      · subst hn
        simp [deliveredTo, Call.announcedTo?]
      · simp [deliveredTo, Call.announcedTo?, hn, Ne.symm hn]
  | read | listPending => simp [CapabilityStore.answer, deliveredTo]

/-- A name is listed as pending exactly if something is left to deliver to it. -/
theorem mem_pendingNames_iff_deliver (name : String) :
    name ∈ store.pendingNames ↔ (store.deliver name).1 ≠ [] := by
  rw [mem_pendingNames_iff h, Pending, store.deliver_fst, ne_eq, List.drop_eq_nil_iff, Nat.not_le]

/-- A view depends on what was announced and on how much of it was delivered. -/
theorem view_congr {other : CapabilityStore} (hother : Sound other) {name : String}
    (ha : other.announced name = store.announced name)
    (hd : other.delivered name = store.delivered name) : other.view name = store.view name := by
  have hrest : (other.deliver name).1 = (store.deliver name).1 := by
    rw [other.deliver_fst, store.deliver_fst, ha, hd]
  have hlisted : other.pendingNames.contains name = store.pendingNames.contains name := by
    rw [Bool.eq_iff_iff, List.contains_iff_mem, List.contains_iff_mem,
      mem_pendingNames_iff_deliver hother, mem_pendingNames_iff_deliver h, hrest]
  rw [view, view, ha, hrest, hlisted]

/-- A call about another name, or about none, changes nothing that is shown of a name. -/
theorem view_answer_of_ne {name : String} (hne : call.name? ≠ some name) :
    (store.answer call).2.view name = store.view name := by
  have hannounced : call.announcedTo? name = none := by
    cases call with
    | announce other capability => simpa [Call.announcedTo?, Call.name?] using hne
    | _ => rfl
  refine view_congr h (h.answer call) ?_ ?_
  · rw [announced_answer h, hannounced, Option.toList_none, List.append_nil]
  · cases call with
    | announce other capability => exact delivered_announce other capability h name
    | deliver other =>
        have hn : name ≠ other := fun heq => hne (congrArg some heq.symm)
        rw [CapabilityStore.answer, delivered_deliver other h, if_neg hn]
    | read | listPending => rfl

end Step

namespace Session

/-- The store of a session reflects its history: every ledger holds what the calls announced, and
its delivered part is what the answers handed out. -/
structure Faithful (session : Session) : Prop where
  sound : session.store.Sound
  announced : ∀ name,
    session.store.announced name = announcedBy (session.history.map Prod.fst) name
  delivered : ∀ name,
    (session.store.announced name).take (session.store.delivered name) =
      deliveredIn session.history name

theorem faithful_start : Faithful {} where
  sound := sound_empty
  announced _ := rfl
  delivered _ := rfl

theorem Faithful.ask {session : Session} (h : session.Faithful) (call : Call) :
    (session.ask call).Faithful where
  sound := h.sound.answer call
  announced name := by
    rw [Session.ask, announced_answer h.sound, h.announced, announcedBy, announcedBy]
    cases hc : call.announcedTo? name <;> simp [hc]
  delivered name := by
    rw [Session.ask, take_delivered_answer h.sound, h.delivered]
    simp [deliveredIn]

theorem Faithful.askAll {session : Session} (h : session.Faithful) (calls : List Call) :
    (session.askAll calls).Faithful := by
  induction calls generalizing session with
  | nil => exact h
  | cons call more ih => exact ih (h.ask call)

/-- A session remembers its calls in order. -/
theorem calls_askAll (session : Session) (calls : List Call) :
    (session.askAll calls).history.map Prod.fst = session.history.map Prod.fst ++ calls := by
  induction calls generalizing session with
  | nil => simp [Session.askAll]
  | cons call more ih =>
      rw [Session.askAll, List.foldl_cons, ← Session.askAll, ih]
      simp [Session.ask]

/-- What was delivered and what is pending are, together, what was announced. -/
theorem Faithful.deliveredIn_append_rest {session : Session} (h : session.Faithful)
    (name : String) :
    deliveredIn session.history name ++ (session.store.deliver name).1 =
      session.store.announced name := by
  rw [← h.delivered, session.store.deliver_fst, List.take_append_drop]

end Session

/-- After any calls of a new store, and for every name: not more was delivered than announced; the
store shows all that was announced, in order; the deliveries, one after the other, and the next one
are just that; the names with something left are listed in strict order; and no call about another
name changes what is shown of it. -/
theorem delivered_once_of_calls (calls : List Call) (name : String) :
    let session := Session.askAll {} calls
    let store := session.store
    session.history.map Prod.fst = calls ∧
      store.delivered name ≤ (store.announced name).length ∧
      store.announced name = announcedBy calls name ∧
      deliveredIn session.history name ++ (store.deliver name).1 = announcedBy calls name ∧
      (name ∈ store.pendingNames ↔ (store.deliver name).1 ≠ []) ∧
      store.pendingNames.Pairwise (· < ·) ∧
      ∀ call : Call, call.name? ≠ some name →
        (store.answer call).2.view name = store.view name := by
  intro session store
  have h : session.Faithful := Session.faithful_start.askAll calls
  have hcalls : session.history.map Prod.fst = calls := Session.calls_askAll {} calls
  have hannounced : store.announced name = announcedBy calls name := by
    rw [h.announced, hcalls]
  refine ⟨hcalls, h.sound.delivered_le name, hannounced, ?_,
    mem_pendingNames_iff_deliver h.sound name, pairwise_pendingNames h.sound, ?_⟩
  · rw [h.deliveredIn_append_rest, hannounced]
  · exact fun call => view_answer_of_ne h.sound call

end ModelGraph.CapabilityStore
