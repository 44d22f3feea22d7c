import Mathlib.Data.List.Forall2
import ModelGraph.Problem.Reference
import ModelGraph.Proofs.Resolution.References

/-! # The report of unresolved references

The report has one entry for every field and union member that was left with a name, in the order of
the entities and of their members. A name is only left where no entity before has it; so a target
that is declared stands behind its owner, or is the owner itself, and any other one is declared
nowhere (`unresolvedReferences_of_resolve`). -/

namespace ModelGraph

/-- The list has, in the order of their positions, exactly the entries that stand at a position,
one for each position. -/
structure Enumerates {ι β : Type} (lt : ι → ι → Prop) (At : ι → β → Prop) (positions : List ι)
    (found : List β) : Prop where
  ordered : positions.Pairwise lt
  complete : ∀ i, i ∈ positions ↔ ∃ b, At i b
  read : List.Forall₂ At positions found

namespace Enumerates

variable {ι κ β : Type} {lt : ι → ι → Prop} {At : ι → β → Prop} {positions : List ι}
  {found : List β}

theorem exists_position (h : Enumerates lt At positions found) {b : β} (hb : b ∈ found) :
    ∃ i, At i b := by
  obtain ⟨k, hk, rfl⟩ := List.mem_iff_getElem.1 hb
  have hposition : k < positions.length := h.read.length_eq ▸ hk
  exact ⟨_, h.read.get hposition hk⟩

theorem nil (h : ∀ i b, ¬ At i b) : Enumerates lt At [] [] where
  ordered := .nil
  complete i := by simp [h i]
  read := .nil

theorem single {i : ι} {b : β} (h : ∀ j c, At j c ↔ j = i ∧ c = b) :
    Enumerates lt At [i] [b] where
  ordered := List.pairwise_singleton lt i
  complete j := by simp [h j]
  read := .cons ((h i b).2 ⟨rfl, rfl⟩) .nil

/-- Entries may be described by less, as long as each position still has some. -/
theorem imp {At' : ι → β → Prop} (h : Enumerates lt At positions found)
    (hread : ∀ i b, At i b → At' i b) (hfound : ∀ i b, At' i b → ∃ c, At i c) :
    Enumerates lt At' positions found where
  ordered := h.ordered
  complete i := by
    rw [h.complete]
    constructor
    · rintro ⟨b, hb⟩
      exact ⟨b, hread i b hb⟩
    · rintro ⟨b, hb⟩
      exact hfound i b hb
  read := h.read.imp hread

/-- Positions may be moved, as long as they stay in order. -/
theorem map (h : Enumerates lt At positions found) (lt' : κ → κ → Prop) (move : ι → κ)
    (hmove : ∀ i j, lt i j → lt' (move i) (move j)) :
    Enumerates lt' (fun k b => ∃ i, move i = k ∧ At i b) (positions.map move) found where
  ordered := h.ordered.map move hmove
  complete k := by
    simp only [List.mem_map, h.complete]
    constructor
    · rintro ⟨i, ⟨b, hb⟩, rfl⟩
      exact ⟨b, i, rfl, hb⟩
    · rintro ⟨b, i, rfl, hb⟩
      exact ⟨i, ⟨b, hb⟩, rfl⟩
  read := by
    rw [List.forall₂_map_left_iff]
    exact h.read.imp fun i b hb => ⟨i, rfl, hb⟩

/-- Entries at positions that all stand before those of others come first. -/
theorem append {At' : ι → β → Prop} {positions' : List ι} {found' : List β}
    (h : Enumerates lt At positions found) (h' : Enumerates lt At' positions' found')
    (hlt : ∀ i b j c, At i b → At' j c → lt i j) :
    Enumerates lt (fun i b => At i b ∨ At' i b) (positions ++ positions') (found ++ found') where
  ordered := by
    rw [List.pairwise_append]
    refine ⟨h.ordered, h'.ordered, fun i hi j hj => ?_⟩
    obtain ⟨b, hb⟩ := (h.complete i).1 hi
    obtain ⟨c, hc⟩ := (h'.complete j).1 hj
    exact hlt i b j c hb hc
  complete i := by
    rw [List.mem_append, h.complete, h'.complete, exists_or]
  read := List.rel_append (h.read.imp fun _ _ => .inl) (h'.read.imp fun _ _ => .inr)

end Enumerates

section Lists

variable {α ι β : Type}

/-- Lists in a row are read one after the other. -/
theorem enumerates_flatMap {lt : ι → ι → Prop} {At : α → ι → β → Prop} {g : α → List β}
    (h : ∀ a, ∃ positions, Enumerates lt (At a) positions (g a)) (l : List α) :
    ∃ places : List (Nat × ι), Enumerates (Prod.Lex (· < ·) lt)
      (fun place b => ∃ a, l[place.1]? = some a ∧ At a place.2 b) places (l.flatMap g) := by
  induction l with
  | nil => exact ⟨[], .nil fun place b => by simp⟩
  | cons first rest ih =>
      obtain ⟨front, hfront⟩ := h first
      obtain ⟨back, hback⟩ := ih
      -- the places in the rest move up by one list, and so behind those in the first
      have hhere := hfront.map (Prod.Lex (· < ·) lt) (fun i => (0, i)) fun _ _ => .right 0
      have hmove : ∀ p q : Nat × ι, Prod.Lex (· < ·) lt p q →
          Prod.Lex (· < ·) lt (p.1 + 1, p.2) (q.1 + 1, q.2) := by
        intro p q hpq
        rw [Prod.lex_def] at hpq ⊢
        simpa using hpq
      have hthere := hback.map _ (fun place => (place.1 + 1, place.2)) hmove
      refine ⟨_, (hhere.append hthere ?_).imp ?_ ?_⟩
      · rintro _ b _ c ⟨i, rfl, -⟩ ⟨place, rfl, -⟩
        exact .left _ _ (Nat.succ_pos _)
      · rintro _ b (⟨i, rfl, hb⟩ | ⟨place, rfl, a, ha, hb⟩)
        · exact ⟨first, rfl, hb⟩
        · exact ⟨a, ha, hb⟩
      · rintro ⟨_ | k, i⟩ b ⟨a, ha, hb⟩
        · obtain rfl : first = a := Option.some.inj ha
          exact ⟨b, .inl ⟨i, rfl, hb⟩⟩
        · exact ⟨b, .inr ⟨(k, i), rfl, a, ha, hb⟩⟩

/-- A filter reads its list from front to back. -/
theorem enumerates_filterMap (f : α → Option β) (l : List α) :
    ∃ positions : List Nat, Enumerates (· < ·) (fun k b => ∃ a, l[k]? = some a ∧ f a = some b)
      positions (l.filterMap f) := by
  have honce : ∀ a, ∃ positions, Enumerates (fun _ _ : Unit => False)
      (fun _ b => f a = some b) positions (f a).toList := by
    intro a
    cases f a with
    | none => exact ⟨[], .nil fun _ b => by simp⟩
    | some found => exact ⟨[()], .single fun _ b => by simp [eq_comm]⟩
  obtain ⟨places, h⟩ := enumerates_flatMap honce l
  have hfst := h.map (· < ·) Prod.fst <| by
    intro p q hpq
    simpa [Prod.lex_def] using hpq
  rw [List.filterMap_eq_flatMap_toList]
  refine ⟨places.map Prod.fst, hfst.imp ?_ ?_⟩
  · rintro _ b ⟨place, rfl, h⟩
    exact h
  · rintro k b h
    exact ⟨b, (k, ()), rfl, h⟩

end Lists

/-- What the members of a body refer to, one by one: the name and type of each field of a record or
input, and of each member of a union. Members of enums refer to nothing. -/
def Body.slots : Body → List (Option (String × TypeRef))
  | .record fields | .input fields =>
      fields.map fun field => field.type.map fun type => (field.name, type)
  | .enum members => members.map fun _ => none
  | .union members => members.map fun member => some (member.ident, member.type)

/-- The member at a position of the entity was left with a name for its type. -/
def Entity.LeavesAt (entity : Entity) (k : Nat) (reference : UnresolvedReference) : Prop :=
  entity.name = reference.owner ∧
    ∃ type, entity.body.slots[k]? = some (some (reference.member, type)) ∧
      type.innermost = .unresolved reference.target

namespace Registry

/-- The member at a place, that is at a position of the entity at a position, was left with a name
for its type. -/
def LeavesAt (registry : Registry) (place : Nat × Nat) (reference : UnresolvedReference) : Prop :=
  ∃ entity, registry.entities[place.1]? = some entity ∧ entity.LeavesAt place.2 reference

/-- The target is declared, and strictly behind the declaration of the owner. -/
def DeclaresBehind (registry : Registry) (owner target : String) : Prop :=
  ∃ i j : Nat, i < j ∧ registry.names[i]? = some owner ∧ registry.names[j]? = some target

end Registry

/-- No name is declared behind itself. -/
theorem Registry.Indexed.not_declaresBehind_self {registry : Registry} (h : registry.Indexed)
    (name : String) : ¬ registry.DeclaresBehind name name := by
  rintro ⟨i, j, hij, hi, hj⟩
  have hposition := (h name i).2 hi
  rw [(h name j).2 hj, Option.some.injEq] at hposition
  omega

theorem TypeRef.unresolvedName?_eq_some_iff {type : TypeRef} {name : String} :
    type.unresolvedName? = some name ↔ type.innermost = .unresolved name := by
  rw [unresolvedName?]
  cases type.innermost <;> simp

theorem Body.references_eq (body : Body) : body.references = body.slots.filterMap id := by
  cases body <;> simp [references, slots]

namespace Registry

variable (registry : Registry)

/-- The references of an entity are reported member by member. -/
theorem enumerates_unresolvedOf (entity : Entity) :
    ∃ positions : List Nat,
      Enumerates (· < ·) entity.LeavesAt positions (registry.unresolvedOf entity) := by
  rw [unresolvedOf, Body.references_eq, List.filterMap_filterMap]
  obtain ⟨positions, h⟩ := enumerates_filterMap _ entity.body.slots
  refine ⟨positions, h.imp ?_ ?_⟩
  · rintro k reference ⟨slot, hslot, hreference⟩
    obtain ⟨⟨member, type⟩, rfl, hentry⟩ := Option.bind_eq_some_iff.1 hreference
    obtain ⟨target, htarget, rfl⟩ := Option.map_eq_some_iff.1 hentry
    exact ⟨rfl, type, hslot, TypeRef.unresolvedName?_eq_some_iff.1 htarget⟩
  · rintro k reference ⟨-, type, hslot, htype⟩
    refine ⟨{ reference with owner := entity.name, status := registry.statusOf reference.target },
      _, hslot, ?_⟩
    simp [TypeRef.unresolvedName?_eq_some_iff.2 htype]

/-- All references are reported entity by entity. -/
theorem enumerates_unresolvedReferences :
    ∃ places, Enumerates (Prod.Lex (· < ·) (· < ·)) registry.LeavesAt places
      registry.unresolvedReferences :=
  enumerates_flatMap registry.enumerates_unresolvedOf registry.entities

variable {registry}

theorem status_eq_of_mem {reference : UnresolvedReference}
    (h : reference ∈ registry.unresolvedReferences) :
    reference.status = registry.statusOf reference.target := by
  obtain ⟨entity, -, hreference⟩ := List.mem_flatMap.1 h
  obtain ⟨⟨member, type⟩, -, hentry⟩ := List.mem_filterMap.1 hreference
  obtain ⟨target, -, rfl⟩ := Option.map_eq_some_iff.1 hentry
  rfl

theorem statusOf_cases (h : registry.Indexed) (target : String) :
    (registry.statusOf target = .dangling ↔ target ∉ registry.names) ∧
      (registry.statusOf target = .forward ↔ target ∈ registry.names) := by
  rw [← h.contains_iff, statusOf]
  cases registry.contains target <;> simp

end Registry

/-- A name that a declaration is left with is no entity's so far. -/
theorem Context.not_mem_names_of_slots {context : Context} (h : context.registry.Indexed)
    {declaration : Declaration} {k : Nat} {member target : String} {type : TypeRef}
    (hslot : (context.bodyOf declaration).slots[k]? = some (some (member, type)))
    (htype : type.innermost = .unresolved target) : target ∉ context.registry.names := by
  have hsupports : context.registry.Supports type := by
    cases declaration with
    | record ident fields | input ident fields =>
        simp only [bodyOf, Body.slots, List.map_map, List.getElem?_map, Option.map_eq_some_iff,
          Function.comp_apply, type_resolveField, Option.map_some] at hslot
        obtain ⟨field, -, heq⟩ := hslot
        cases heq
        exact supports_resolveType h field.type
    | enum ident members => simp [bodyOf, Body.slots] at hslot
    | union ident members =>
        simp only [bodyOf, Body.slots, List.map_map, List.getElem?_map, Option.map_eq_some_iff,
          Function.comp_apply] at hslot
        obtain ⟨name, -, heq⟩ := hslot
        cases heq
        exact supports_resolveEntity h name
  have hnone := hsupports.innermost
  rw [htype] at hnone
  rw [← h.isSome_get?_iff, hnone]
  exact Bool.false_ne_true

/-- A name that a member of a resolved model was left with is not declared before its owner. -/
theorem le_position_of_leavesAt {document : String} {settings : Settings} {registry : Registry}
    (h : resolve document settings = .ok registry) {place : Nat × Nat}
    {reference : UnresolvedReference} (hleaves : registry.LeavesAt place reference) {j : Nat}
    (hj : registry.names[j]? = some reference.target) : place.1 ≤ j := by
  obtain ⟨entity, hentity, -, type, hslot, htype⟩ := hleaves
  obtain ⟨before, declaration, hbody, hindexed, hentities⟩ := exists_before_of_resolve h hentity
  rw [hbody] at hslot
  have hnew := Context.not_mem_names_of_slots hindexed hslot htype
  have hnames : before.registry.names = registry.names.take place.1 := by
    rw [Registry.names_eq_map_bare, hentities, List.map_take, ← Registry.names_eq_map_bare]
  by_contra hlt
  apply hnew
  rw [hnames]
  apply List.mem_of_getElem?
  rw [List.getElem?_take_of_lt (Nat.lt_of_not_le hlt)]
  exact hj

/-- The unresolved references of a resolved model are those fields and union members that were left
with a name, in the order of the entities and of their members, each once and with that name. A
reference dangles exactly if its target is declared nowhere, and is a forward one exactly if its
target is declared strictly behind its owner or is the owner itself. -/
theorem unresolvedReferences_of_resolve {document : String} {settings : Settings}
    {registry : Registry} (h : resolve document settings = .ok registry) :
    (∃ places, Enumerates (Prod.Lex (· < ·) (· < ·)) registry.LeavesAt places
      registry.unresolvedReferences) ∧
    ∀ reference ∈ registry.unresolvedReferences,
      (reference.status = .dangling ↔ reference.target ∉ registry.names) ∧
      (reference.status = .forward ↔ registry.DeclaresBehind reference.owner reference.target ∨
        reference.target = reference.owner) := by
  obtain ⟨places, henumerates⟩ := registry.enumerates_unresolvedReferences
  refine ⟨⟨places, henumerates⟩, fun reference hreference => ?_⟩
  obtain ⟨hdangling, hforward⟩ :=
    Registry.statusOf_cases (indexed_of_resolve h) reference.target
  rw [Registry.status_eq_of_mem hreference]
  refine ⟨hdangling, hforward.trans ?_⟩
  obtain ⟨place, hplace⟩ := henumerates.exists_position hreference
  have howner : registry.names[place.1]? = some reference.owner := by
    obtain ⟨entity, hentity, hname, -⟩ := hplace
    rw [Registry.names, List.getElem?_map, hentity, Option.map_some, hname]
  constructor
  · intro hmem
    obtain ⟨j, hj⟩ := List.mem_iff_getElem?.1 hmem
    rcases Nat.eq_or_lt_of_le (le_position_of_leavesAt h hplace hj) with heq | hlt
    · rw [← heq, howner] at hj
      exact .inr (Option.some.inj hj).symm
    · exact .inl ⟨place.1, j, hlt, howner, hj⟩
  · rintro (⟨i, j, -, -, hj⟩ | hself)
    · exact List.mem_of_getElem? hj
    · rw [hself]
      exact List.mem_of_getElem? howner

/-- Members of a union, one of them declared nowhere, and a record that refers to itself, to a later
record and to nothing. -/
theorem unresolvedReferences_of_resolve_self :
    ∃ registry, resolve
        "union U = B | X\n\ntype A \x7b a: A b: [B!]! c: C \x7d\ntype B \x7b id: ID \x7d" {} =
        .ok registry ∧
      registry.unresolvedReferences =
        [⟨"U", "B", "B", .forward⟩, ⟨"U", "X", "X", .dangling⟩, ⟨"A", "a", "A", .forward⟩,
          ⟨"A", "b", "B", .forward⟩, ⟨"A", "c", "C", .dangling⟩] ∧
      (∃ places, Enumerates (Prod.Lex (· < ·) (· < ·)) registry.LeavesAt places
        registry.unresolvedReferences) ∧
      registry.DeclaresBehind "U" "B" ∧ registry.DeclaresBehind "A" "B" ∧
      ¬ registry.DeclaresBehind "A" "A" ∧ "C" ∉ registry.names := by
  have h : resolve
      "union U = B | X\n\ntype A \x7b a: A b: [B!]! c: C \x7d\ntype B \x7b id: ID \x7d" {} = .ok
        { entities :=
            [ { definition := ⟨"U", "U", ""⟩
                body := .union [⟨"B", .unresolved "B"⟩, ⟨"X", .unresolved "X"⟩] },
              { definition := ⟨"A", "A", ""⟩
                body := .record
                  [ .typed ⟨"a", "a"⟩ (.unresolved "A") false,
                    .typed ⟨"b", "b"⟩ (.list (.unresolved "B")) true,
                    .typed ⟨"c", "c"⟩ (.unresolved "C") false ] },
              { definition := ⟨"B", "B", ""⟩
                capabilities := [⟨"U", ""⟩]
                body := .record [.typed ⟨"id", "id"⟩ (.scalar .id) false] } ]
          positions := [("B", 2), ("A", 1), ("U", 0)] } :=
    resolve_eq_ok_of_toOption (by decide +kernel)
  obtain ⟨henumerates, hstatus⟩ := unresolvedReferences_of_resolve h
  refine ⟨_, h, by decide +kernel, henumerates, ?_, ?_, ?_, ?_⟩
  · have hforward := (hstatus ⟨"U", "B", "B", .forward⟩ (by decide +kernel)).2.1 rfl
    exact hforward.resolve_right (by decide)
  · have hforward := (hstatus ⟨"A", "b", "B", .forward⟩ (by decide +kernel)).2.1 rfl
    exact hforward.resolve_right (by decide)
  · exact (indexed_of_resolve h).not_declaresBehind_self "A"
  · exact (hstatus ⟨"A", "c", "C", .dangling⟩ (by decide +kernel)).1.1 rfl

end ModelGraph
