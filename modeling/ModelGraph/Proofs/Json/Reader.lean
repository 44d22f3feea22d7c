import ModelGraph.Json.Model

/-! # Readers of JSON values

Objects are read by their keys: a member is found wherever it stands, and for one that was left out
another value can be taken. So readers do not tell values apart that say the same, whatever the
order of members is (`Respects`). Optional members are read as they were written. -/

namespace ModelGraph

namespace JsonValue

variable {α : Type}

/-- Two values say the same: they are one text or one flag, or lists that say the same item by item,
or objects that say the same under every key. -/
inductive Same : JsonValue → JsonValue → Prop
  | text (value : String) : Same (text value) (text value)
  | flag (value : Bool) : Same (flag value) (flag value)
  | list {items others : List JsonValue} (hlength : items.length = others.length)
      (hitems : ∀ (i : Nat) (item other : JsonValue), items[i]? = some item →
        others[i]? = some other → Same item other) : Same (list items) (list others)
  | object {members others : List (String × JsonValue)}
      (hkeys : ∀ key, members.lookup key = none ↔ others.lookup key = none)
      (hmembers : ∀ key member other, members.lookup key = some member →
        others.lookup key = some other → Same member other) : Same (object members) (object others)

/-- The member of an object under a key. -/
def get? : JsonValue → String → Option JsonValue
  | object members, key => members.lookup key
  | _, _ => none

/-- The text that a value is. -/
def text? : JsonValue → Option String
  | text value => some value
  | _ => none

/-- The flag that a value is. -/
def flag? : JsonValue → Option Bool
  | flag value => some value
  | _ => none

/-- The list that a value is, with each item read. -/
def listOf? (read : JsonValue → Option α) : JsonValue → Option (List α)
  | list items => items.mapM read
  | _ => none

/-- Read the member under a key, which must be there. -/
def read? (value : JsonValue) (key : String) (read : JsonValue → Option α) : Option α :=
  (value.get? key).bind read

/-- Read the member under a key, or take another value if there is no such member. -/
def readOr? (value : JsonValue) (key : String) (absent : α) (read : JsonValue → Option α) :
    Option α :=
  match value.get? key with
  | some member => read member
  | none => some absent

/-- A member is smaller than the object that it is in. -/
theorem sizeOf_lt_of_get? {value member : JsonValue} {key : String}
    (h : value.get? key = some member) : sizeOf member < sizeOf value := by
  cases value with
  | object members =>
      obtain ⟨before, after, hmembers, -⟩ := List.lookup_eq_some_iff.1 h
      have hmem : (key, member) ∈ members := by simp [hmembers]
      have hlt := List.sizeOf_lt_of_mem hmem
      simp only [Prod.mk.sizeOf_spec] at hlt
      simp only [object.sizeOf_spec]
      omega
  | text | flag | list => cases h

section Members

variable (name key : String)

@[simp] theorem get?_nil : (object []).get? key = none := rfl

@[simp] theorem get?_cons (member : JsonValue) (rest : List (String × JsonValue)) :
    (object ((name, member) :: rest)).get? key =
      if key = name then some member else (object rest).get? key := by
  by_cases h : key = name
  · simp [get?, h]
  · simp [get?, List.lookup_cons, beq_false_of_ne h, h]

@[simp] theorem get?_append (first second : List (String × JsonValue)) :
    (object (first ++ second)).get? key =
      ((object first).get? key).or ((object second).get? key) :=
  List.lookup_append

@[simp] theorem get?_textUnlessEmpty (written : String) :
    (object (textUnlessEmpty name written)).get? key =
      if key = name ∧ written ≠ "" then some (text written) else none := by
  by_cases h : written = "" <;> simp [textUnlessEmpty, h]

@[simp] theorem get?_flagIfSet (written : Bool) :
    (object (flagIfSet name written)).get? key =
      if key = name ∧ written = true then some (flag true) else none := by
  cases written <;> simp [flagIfSet]

@[simp] theorem get?_listUnlessEmpty (items : List JsonValue) :
    (object (listUnlessEmpty name items)).get? key =
      if key = name ∧ items ≠ [] then some (list items) else none := by
  cases items <;> simp [listUnlessEmpty]

@[simp] theorem get?_toList_map (write : α → JsonValue) (written : Option α) :
    (object (written.map fun a => (name, write a)).toList).get? key =
      if key = name then written.map write else none := by
  cases written <;> simp

end Members

section Reading

variable {value : JsonValue} {key : String}

theorem listOf?_map {read : JsonValue → Option α} {write : α → JsonValue}
    (h : ∀ a, read (write a) = some a) (items : List α) :
    listOf? read (list (items.map write)) = some items := by
  have hread : read ∘ write = fun a => pure a := funext h
  rw [listOf?, List.mapM_map, hread, List.mapM_pure, List.map_id']
  rfl

theorem read?_of_get? {read : JsonValue → Option α} {member : JsonValue} {written : α}
    (hread : read member = some written) (h : value.get? key = some member) :
    value.read? key read = some written := by
  rw [read?, h, Option.bind_some, hread]

theorem readOr?_text {written : String}
    (h : value.get? key = if written ≠ "" then some (text written) else none) :
    value.readOr? key "" text? = some written := by
  rw [readOr?, h]
  by_cases hw : written = "" <;> simp [hw, text?]

theorem readOr?_flag {written : Bool}
    (h : value.get? key = if written = true then some (flag true) else none) :
    value.readOr? key false flag? = some written := by
  rw [readOr?, h]
  cases written <;> simp [flag?]

theorem readOr?_list {read : JsonValue → Option α} {write : α → JsonValue} {written : List α}
    (hread : ∀ a, read (write a) = some a)
    (h : value.get? key = if written ≠ [] then some (list (written.map write)) else none) :
    value.readOr? key [] (listOf? read) = some written := by
  rw [readOr?, h]
  cases written with
  | nil => simp
  | cons first rest => simpa using listOf?_map hread (first :: rest)

theorem readOr?_optional {read : JsonValue → Option α} {write : α → JsonValue}
    {written : Option α} (hread : ∀ a, read (write a) = some a)
    (h : value.get? key = written.map write) :
    (value.readOr? key none fun member => (read member).map some) = some written := by
  rw [readOr?, h]
  cases written <;> simp [hread]

end Reading

/-- The reading does not tell values apart that say the same. -/
def Respects (read : JsonValue → Option α) : Prop :=
  ∀ value other, value.Same other → read value = read other

namespace Same

variable {value other : JsonValue} (h : value.Same other)
include h

theorem get?_eq_none_iff (key : String) : value.get? key = none ↔ other.get? key = none := by
  cases h with
  | object hkeys => exact hkeys key
  | text | flag | list => rfl

theorem get? {key : String} {member member' : JsonValue} (hmember : value.get? key = some member)
    (hmember' : other.get? key = some member') : member.Same member' := by
  cases h with
  | object _ hmembers => exact hmembers key member member' hmember hmember'
  | text | flag | list => cases hmember

/-- Either there is a member under a key in both or in none. -/
theorem get?_cases (key : String) :
    (value.get? key = none ∧ other.get? key = none) ∨
      ∃ member member', value.get? key = some member ∧ other.get? key = some member' ∧
        member.Same member' := by
  have hnone := h.get?_eq_none_iff key
  cases hv : value.get? key with
  | none => exact .inl ⟨rfl, hnone.1 hv⟩
  | some member =>
      cases ho : other.get? key with
      | none =>
          rw [hnone.2 ho] at hv
          cases hv
      | some member' => exact .inr ⟨member, member', rfl, rfl, h.get? hv ho⟩

variable {read : JsonValue → Option α} (hread : Respects read)
include hread

theorem read?_eq (key : String) : value.read? key read = other.read? key read := by
  rw [read?, read?]
  rcases h.get?_cases key with ⟨hv, ho⟩ | ⟨member, member', hv, ho, hsame⟩
  · rw [hv, ho]
  · rw [hv, ho, Option.bind_some, Option.bind_some, hread member member' hsame]

theorem readOr?_eq (key : String) (absent : α) :
    value.readOr? key absent read = other.readOr? key absent read := by
  rw [readOr?, readOr?]
  rcases h.get?_cases key with ⟨hv, ho⟩ | ⟨member, member', hv, ho, hsame⟩
  · rw [hv, ho]
  · rw [hv, ho]
    exact hread member member' hsame

end Same

theorem respects_text? : Respects text? := by
  rintro _ _ (_ | _ | _ | _) <;> rfl

theorem respects_flag? : Respects flag? := by
  rintro _ _ (_ | _ | _ | _) <;> rfl

theorem Respects.bind {β : Type} {read : JsonValue → Option α} (hread : Respects read)
    (next : α → Option β) : Respects fun value => (read value).bind next := by
  intro value other h
  simp only [hread value other h]

theorem respects_listOf? {read : JsonValue → Option α} (hread : Respects read) :
    Respects (listOf? read) := by
  intro value other h
  cases h with
  | @list items others hlength hitems =>
      have hmap : items.map read = others.map read := by
        apply List.ext_getElem
        · rw [List.length_map, List.length_map, hlength]
        · intro i hi hi'
          rw [List.length_map] at hi hi'
          rw [List.getElem_map, List.getElem_map]
          apply hread
          exact hitems i _ _ (List.getElem?_eq_getElem hi) (List.getElem?_eq_getElem hi')
      calc
        items.mapM read = (items.map read).mapM id := by rw [List.mapM_map]; rfl
        _ = (others.map read).mapM id := by rw [hmap]
        _ = others.mapM read := by rw [List.mapM_map]; rfl
  | text | flag | object => rfl

/-- A value says the same as itself. -/
theorem Same.refl : ∀ value : JsonValue, value.Same value
  | .text value => .text value
  | .flag value => .flag value
  | .list items => .list rfl fun i item other hitem hother => by
      have hmem : item ∈ items := List.mem_of_getElem? hitem
      obtain rfl : item = other := Option.some.inj (hitem.symm.trans hother)
      exact Same.refl item
  | .object members => .object (fun _ => Iff.rfl) fun key member other hmember hother => by
      have hget : (JsonValue.object members).get? key = some member := hmember
      have hlt := sizeOf_lt_of_get? hget
      obtain rfl : member = other := Option.some.inj (hmember.symm.trans hother)
      exact Same.refl member
termination_by value => sizeOf value
decreasing_by
  · have hlt := List.sizeOf_lt_of_mem hmem
    simp only [list.sizeOf_spec]
    omega
  · exact hlt

end JsonValue

end ModelGraph
