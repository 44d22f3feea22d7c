import Mathlib.Logic.Relation
import ModelGraph.Proofs.Resolution.Entering

/-! # References to earlier declarations

A reference is resolved against the declarations that stand before it: a scalar by its name, else
the entity of the resolved name if it was declared earlier, else a name. Read against the final
registry, the type of every field and member follows that rule at its position
(`references_of_resolve`). Hence references only point backwards and never form a cycle. -/

namespace ModelGraph

/-- The built-in scalar that the settings put in place of a custom one. -/
def Settings.customScalar? (settings : Settings) (ident : String) : Option Scalar :=
  (settings.scalars.lookup ident).bind Scalar.ofName?

/-- All types that a body mentions: those of its fields, their branches, and its members. -/
def Body.types (body : Body) : List TypeRef :=
  (body.fields.flatMap fun field => field.type.toList ++ field.branches.map UnionMember.type) ++
    (body.unionMembers?.getD []).map UnionMember.type

namespace Registry

/-- The entity of a name among those before a position. -/
def earlier? (registry : Registry) (i : Nat) (name : String) : Option Entity :=
  (registry.entities.take i).find? (·.name == name)

/-- What a union member at a position refers to: the earlier entity of its resolved name, or that
name. -/
def memberTypeAt (registry : Registry) (settings : Settings) (i : Nat) (ident : String) : TypeRef :=
  match registry.earlier? i (settings.naming.typeName ident) with
  | some entity => .entity ⟨settings.naming.typeName ident, entity.kind⟩
  | none => .unresolved (settings.naming.typeName ident)

/-- What a field at a position refers to, inside all lists: a built-in scalar, a custom one, or what
a union member would refer to, with an enum taken for a string if the settings say so. -/
def fieldTypeAt (registry : Registry) (settings : Settings) (i : Nat) (ident : String) : TypeRef :=
  match Scalar.ofName? ident, settings.customScalar? ident with
  | some scalar, _ => .scalar scalar
  | none, some scalar => .scalar scalar
  | none, none =>
      match registry.earlier? i (settings.naming.typeName ident) with
      | some entity =>
          if entity.kind = .enum ∧ settings.enumsAsStrings = true then .scalar .string
          else .entity ⟨settings.naming.typeName ident, entity.kind⟩
      | none => .unresolved (settings.naming.typeName ident)

/-- The body of the entity at a position refers to what its declaration names. -/
def Answers (registry : Registry) (settings : Settings) (i : Nat) : Declaration → Body → Prop
  | .record _ declared, .record fields | .input _ declared, .input fields =>
      fields.map (fun field => field.type.map TypeRef.innermost) =
        declared.map fun field => some (registry.fieldTypeAt settings i field.type.innermost)
  | .enum _ _, .enum _ => True
  | .union _ declared, .union members =>
      members.map UnionMember.type = declared.map (registry.memberTypeAt settings i)
  | _, _ => False

/-- The entity at one position mentions the name of the entity at another. -/
def RefersTo (registry : Registry) (i j : Nat) : Prop :=
  ∃ entity target ref, registry.entities[i]? = some entity ∧
    (∃ type ∈ entity.body.types, type.entity? = some ref) ∧
    registry.entities[j]? = some target ∧ target.name = ref.name

/-- The registry is what a type was resolved against: an entity that the type refers to, inside all
lists, is registered by the name and of the kind that it gives, and a name that is left is not. -/
def Supports (registry : Registry) : TypeRef → Prop
  | .scalar _ => True
  | .entity ref => ∃ entity, registry.get? ref.name = some entity ∧ entity.ref = ref
  | .unresolved name => registry.get? name = none
  | .list inner => registry.Supports inner

theorem Supports.innermost {registry : Registry} {type : TypeRef} (h : registry.Supports type) :
    registry.Supports type.innermost := by
  induction type with
  | list inner ih => exact ih h
  | scalar | entity | unresolved => exact h

/-- An entity found before a position stands there under the name. -/
theorem exists_of_earlier? {registry : Registry} {i : Nat} {name : String} {entity : Entity}
    (h : registry.earlier? i name = some entity) :
    entity.name = name ∧ ∃ j, j < i ∧ registry.entities[j]? = some entity := by
  have hn : entity.name = name := by simpa using List.find?_some h
  obtain ⟨j, hj⟩ := List.mem_iff_getElem?.1 (List.mem_of_find?_eq_some h)
  rw [List.getElem?_take] at hj
  split at hj
  · next hlt => exact ⟨hn, j, hlt, hj⟩
  · cases hj

section Congr

variable {a b : Registry} (h : a.entities.map Entity.bare = b.entities.map Entity.bare)
  (settings : Settings) (i : Nat) (ident : String)
include h

theorem earlier?_congr (name : String) :
    (a.earlier? i name).map Entity.kind = (b.earlier? i name).map Entity.kind := by
  have hfind : ∀ registry : Registry, (registry.earlier? i name).map Entity.kind =
      (((registry.entities.map Entity.bare).take i).find? (·.name == name)).map Entity.kind := by
    intro registry
    rw [earlier?, ← List.map_take, List.find?_map, Option.map_map]
    rfl
  rw [hfind, hfind, h]

theorem memberTypeAt_congr : a.memberTypeAt settings i ident = b.memberTypeAt settings i ident := by
  have hk := earlier?_congr h i (settings.naming.typeName ident)
  simp only [memberTypeAt]
  cases ha : a.earlier? i (settings.naming.typeName ident) <;>
    cases hb : b.earlier? i (settings.naming.typeName ident) <;> simp_all

theorem fieldTypeAt_congr : a.fieldTypeAt settings i ident = b.fieldTypeAt settings i ident := by
  have hk := earlier?_congr h i (settings.naming.typeName ident)
  simp only [fieldTypeAt]
  cases ha : a.earlier? i (settings.naming.typeName ident) <;>
    cases hb : b.earlier? i (settings.naming.typeName ident) <;> simp_all

end Congr

end Registry

namespace Context

theorem lookup_customScalars {entries : List (String × String)} {found : List (String × Scalar)}
    (h : customScalars entries = .ok found) (ident : String) :
    found.lookup ident = (entries.lookup ident).bind Scalar.ofName? := by
  induction entries generalizing found with
  | nil => cases h; rfl
  | cons entry rest ih =>
      obtain ⟨name, target⟩ := entry
      simp only [customScalars] at h
      cases hs : Scalar.ofName? target with
      | none => rw [hs] at h; cases h
      | some scalar =>
          rw [hs] at h
          cases hr : customScalars rest with
          | error error => rw [hr] at h; cases h
          | ok others =>
              rw [hr] at h
              obtain rfl : (name, scalar) :: others = found := by simpa [Except.map] using h
              simp only [List.lookup_cons]
              split
              · exact hs.symm
              · exact ih hr

section Rule

-- a context that knows the entities before a position resolves by the rule of that position

variable {context : Context} {registry : Registry} {settings : Settings} {i : Nat}
  (hsettings : context.settings = settings) (hindexed : context.registry.Indexed)
  (hentities : context.registry.entities = registry.entities.take i)
include hsettings hindexed hentities

theorem resolveEntity_eq (ident : String) :
    context.resolveEntity ident = registry.memberTypeAt settings i ident := by
  simp only [resolveEntity, hindexed.get?_eq_find?, hentities, typeName, hsettings,
    Registry.memberTypeAt]
  rw [← Registry.earlier?]
  cases he : registry.earlier? i (settings.naming.typeName ident) with
  | none => rfl
  | some entity => simp only [Entity.ref, (Registry.exists_of_earlier? he).1]

theorem resolveNamed_eq (hscalars : ∀ ident, context.scalars.lookup ident =
      settings.customScalar? ident) (ident : String) :
    context.resolveNamed ident = registry.fieldTypeAt settings i ident := by
  have hentity := resolveEntity_eq hsettings hindexed hentities ident
  simp only [resolveNamed, scalarOf?, hscalars, hentity, Registry.fieldTypeAt,
    Registry.memberTypeAt]
  cases Scalar.ofName? ident <;> cases settings.customScalar? ident <;>
    cases registry.earlier? i (settings.naming.typeName ident) <;>
    simp [collapseEnum, hsettings]

end Rule

theorem innermost_resolveType (context : Context) (type : TypeExpr) :
    (context.resolveType type).innermost = (context.resolveNamed type.innermost).innermost := by
  induction type with
  | named name => rfl
  | list inner ih => exact ih

/-- A named type is no list. -/
theorem innermost_resolveNamed (context : Context) (ident : String) :
    (context.resolveNamed ident).innermost = context.resolveNamed ident := by
  simp only [resolveNamed, resolveEntity]
  split
  · rfl
  · split <;> simp only [collapseEnum]
    · split <;> rfl
    · rfl

theorem type_resolveField (context : Context) (field : FieldSyntax) :
    (context.resolveField field).type = some (context.resolveType field.type) := by
  simp only [resolveField]
  split <;> rfl

theorem supports_resolveEntity {context : Context} (h : context.registry.Indexed)
    (ident : String) : context.registry.Supports (context.resolveEntity ident) := by
  simp only [resolveEntity]
  cases hg : context.registry.get? (context.typeName ident) with
  | none => exact hg
  | some entity =>
      refine ⟨entity, ?_, rfl⟩
      rw [Entity.ref, (h.get?_eq_some_iff.1 hg).2]
      exact hg

theorem supports_resolveNamed {context : Context} (h : context.registry.Indexed)
    (ident : String) : context.registry.Supports (context.resolveNamed ident) := by
  have hentity := supports_resolveEntity h ident
  simp only [resolveNamed]
  split
  · trivial
  · simp only [collapseEnum]
    split
    · split
      · trivial
      · exact hentity
    · exact hentity

/-- What a type was resolved to is what the entities so far say. -/
theorem supports_resolveType {context : Context} (h : context.registry.Indexed)
    (type : TypeExpr) : context.registry.Supports (context.resolveType type) := by
  induction type with
  | named ident => exact supports_resolveNamed h ident
  | list inner ih => exact ih

/-- How the entities of a context came to be: each from the declaration at its position, in a
context that had the entities before it. -/
structure Placed (start : Context) (entered : List Declaration) (context : Context) : Prop
    extends Entered start entered context where
  placed : ∀ i declaration entity, entered[i]? = some declaration →
    context.registry.entities[i]? = some entity →
      ∃ before : Context, before.settings = start.settings ∧ before.scalars = start.scalars ∧
        before.registry.Indexed ∧
        before.registry.entities = context.registry.entities.take i ∧
        entity.bare = (before.entityOf declaration).bare

theorem Placed.enter {start context next : Context} {entered : List Declaration}
    {declaration : Declaration} (h : Placed start entered context)
    (hn : context.enter declaration = .ok next) :
    Placed start (entered ++ [declaration]) next := by
  have hentered := h.toEntered.enter hn
  obtain ⟨hnew, rfl⟩ := enter_eq_ok_iff.1 hn
  have hentities := Registry.entities_of_register (register_entityOf hnew)
  refine ⟨hentered, ?_⟩
  intro i other entity hd he
  rw [hentities] at he ⊢
  rcases Nat.lt_trichotomy i entered.length with hlt | rfl | hgt
  · -- an earlier position: nothing up to it has changed
    have hle : i ≤ context.registry.entities.length := by
      rw [h.length_eq]
      exact Nat.le_of_lt hlt
    rw [List.getElem?_append_left hlt] at hd
    rw [List.getElem?_append_left (h.length_eq ▸ hlt)] at he
    rw [List.take_append_of_le_length hle]
    exact h.placed i other entity hd he
  · obtain rfl : declaration = other := by simpa using hd
    rw [← h.length_eq, List.getElem?_concat_length, Option.some.injEq] at he
    refine ⟨context, h.settings_eq, h.scalars_eq, h.indexed, ?_, by rw [he]⟩
    rw [← h.length_eq, List.take_left]
  · rw [List.getElem?_eq_none (by simp; omega)] at hd
    cases hd

theorem placed_of_enterAll {settings : Settings} {start last : Context}
    {declarations : List Declaration} (hs : ofSettings settings = .ok start)
    (h : start.enterAll declarations = .ok last) : Placed start declarations last := by
  refine enterAll_induction ?_ (fun _ _ _ _ _ hp hn => hp.enter hn) h
  exact ⟨Entered.start_of_ofSettings hs, by simp⟩

/-- The body at a position was resolved by the rule of the position. -/
theorem Placed.resolved {settings : Settings} {start context : Context}
    {entered : List Declaration} (hs : ofSettings settings = .ok start)
    (h : Placed start entered context) {i : Nat} {declaration : Declaration} {entity : Entity}
    (hd : entered[i]? = some declaration) (he : context.registry.entities[i]? = some entity) :
    ∃ before : Context, entity.body = before.bodyOf declaration ∧ before.registry.Indexed ∧
      before.registry.entities = context.registry.entities.take i ∧
      (∀ ident, before.resolveNamed ident = context.registry.fieldTypeAt settings i ident) ∧
      ∀ ident, before.resolveEntity ident = context.registry.memberTypeAt settings i ident := by
  obtain ⟨scalars, hscalars, rfl⟩ := ofSettings_eq_ok_iff.1 hs
  obtain ⟨before, hsettings, hbefore, hindexed, hentities, hbare⟩ :=
    h.placed i declaration entity hd he
  refine ⟨before, ?_, hindexed, hentities, ?_, resolveEntity_eq hsettings hindexed hentities⟩
  · rw [Entity.body_eq_of_bare_eq hbare, body_entityOf]
  · refine resolveNamed_eq hsettings hindexed hentities fun ident => ?_
    rw [hbefore]
    exact lookup_customScalars hscalars ident

/-- The entity at a position refers to what its declaration names. -/
theorem Placed.answers {settings : Settings} {start context : Context}
    {entered : List Declaration} (hs : ofSettings settings = .ok start)
    (h : Placed start entered context) {i : Nat} {declaration : Declaration} {entity : Entity}
    (hd : entered[i]? = some declaration) (he : context.registry.entities[i]? = some entity) :
    context.registry.Answers settings i declaration entity.body := by
  obtain ⟨before, hbody, -, -, hnamed, hmember⟩ := h.resolved hs hd he
  have hfield (field : FieldSyntax) :
      (before.resolveField field).type.map TypeRef.innermost =
        some (context.registry.fieldTypeAt settings i field.type.innermost) := by
    rw [type_resolveField, Option.map_some, innermost_resolveType, innermost_resolveNamed, hnamed]
  rw [hbody]
  cases declaration with
  | record ident fields | input ident fields =>
      simp [bodyOf, Registry.Answers, Function.comp_def, hfield]
  | enum ident members => trivial
  | union ident members =>
      simp [bodyOf, Registry.Answers, Function.comp_def, resolveMember, hmember]

end Context

namespace TypeRef

theorem entity?_eq_some_iff {type : TypeRef} {ref : EntityRef} :
    type.entity? = some ref ↔ type.innermost = .entity ref := by
  rw [entity?]
  cases type.innermost <;> simp

end TypeRef

namespace Registry

/-- A reference by the rule of a position is to an entity of its kind that stands before. -/
def PointsBefore (registry : Registry) (i : Nat) (ref : EntityRef) : Prop :=
  ∃ j target, j < i ∧ registry.entities[j]? = some target ∧ target.name = ref.name ∧
    target.kind = ref.kind

variable {registry : Registry} {settings : Settings} {i : Nat} {ident : String} {ref : EntityRef}

theorem PointsBefore.mono {j : Nat} (h : registry.PointsBefore i ref) (hij : i ≤ j) :
    registry.PointsBefore j ref := by
  obtain ⟨k, target, hk, htarget⟩ := h
  exact ⟨k, target, Nat.lt_of_lt_of_le hk hij, htarget⟩

/-- A member never is a list. -/
theorem innermost_memberTypeAt : (registry.memberTypeAt settings i ident).innermost =
    registry.memberTypeAt settings i ident := by
  simp only [memberTypeAt]
  split <;> rfl

theorem pointsBefore_of_memberTypeAt
    (h : registry.memberTypeAt settings i ident = .entity ref) : registry.PointsBefore i ref := by
  simp only [memberTypeAt] at h
  split at h
  · next entity he =>
    obtain ⟨hn, j, hj, hentity⟩ := exists_of_earlier? he
    cases h
    exact ⟨j, entity, hj, hentity, hn, rfl⟩
  · cases h

theorem pointsBefore_of_fieldTypeAt
    (h : registry.fieldTypeAt settings i ident = .entity ref) : registry.PointsBefore i ref := by
  suffices hmember : registry.memberTypeAt settings i ident = .entity ref from
    pointsBefore_of_memberTypeAt hmember
  simp only [fieldTypeAt] at h
  simp only [memberTypeAt]
  split at h
  · cases h
  · cases h
  · split at h
    · split at h
      · cases h
      · exact h
    · cases h

end Registry

theorem Body.unionMembers?_eq_some_iff {body : Body} {members : List UnionMember} :
    body.unionMembers? = some members ↔ body = .union members := by
  cases body <;> simp [unionMembers?]

namespace Context

/-- There are branches exactly for a type that is a registered union. -/
theorem branchesOf?_eq_some_iff {context : Context} {type : TypeRef} {branches : List UnionMember} :
    context.branchesOf? type = some branches ↔
      ∃ name union, type.innermost = .entity ⟨name, .union⟩ ∧
        context.registry.get? name = some union ∧ union.body = .union branches := by
  simp only [branchesOf?, Option.bind_eq_bind, Option.bind_eq_some_iff,
    TypeRef.entity?_eq_some_iff]
  constructor
  · rintro ⟨⟨name, kind⟩, htype, h⟩
    split at h
    · next hkind =>
      obtain rfl : kind = .union := hkind
      obtain ⟨union, hunion, hmembers⟩ := Option.bind_eq_some_iff.1 h
      exact ⟨name, union, htype, hunion, Body.unionMembers?_eq_some_iff.1 hmembers⟩
    · cases h
  · rintro ⟨name, union, htype, hunion, hbody⟩
    refine ⟨⟨name, .union⟩, htype, ?_⟩
    rw [if_pos rfl]
    exact Option.bind_eq_some_iff.2 ⟨union, hunion, Body.unionMembers?_eq_some_iff.2 hbody⟩

theorem branches_resolveField (context : Context) (field : FieldSyntax) :
    (context.resolveField field).branches =
      (context.branchesOf? (context.resolveType field.type)).getD [] := by
  simp only [resolveField]
  split
  · next hbranches => rw [hbranches]; rfl
  · next hnone => rw [hnone]; rfl

/-- The branches of a field are the members of a union that is registered. -/
theorem exists_union_of_mem_branches {context : Context} {field : FieldSyntax}
    {member : UnionMember} (h : member ∈ (context.resolveField field).branches) :
    ∃ name union, context.registry.get? name = some union ∧
      member.type ∈ union.body.types := by
  rw [branches_resolveField] at h
  cases hb : context.branchesOf? (context.resolveType field.type) with
  | none => simp [hb] at h
  | some branches =>
      rw [hb, Option.getD_some] at h
      obtain ⟨name, union, -, hunion, hbody⟩ := branchesOf?_eq_some_iff.1 hb
      refine ⟨name, union, hunion, ?_⟩
      rw [hbody]
      exact List.mem_append_right _ (List.mem_map_of_mem h)

/-- The types of a resolved body: the type and the branches of each field, or one for each
member. -/
theorem mem_types_bodyOf {context : Context} {declaration : Declaration} {type : TypeRef}
    (h : type ∈ (context.bodyOf declaration).types) :
    (∃ field : FieldSyntax, type = context.resolveType field.type) ∨
      (∃ field : FieldSyntax, ∃ member ∈ (context.resolveField field).branches,
        member.type = type) ∨
      ∃ ident, (context.resolveMember ident).type = type := by
  cases declaration with
  | record ident fields | input ident fields =>
      simp only [bodyOf, Body.types, Body.fields, Body.unionMembers?, Option.getD_none,
        List.map_nil, List.append_nil, List.mem_flatMap, List.mem_map] at h
      obtain ⟨_, ⟨field, -, rfl⟩, hm⟩ := h
      rcases List.mem_append.1 hm with hm | hm
      · rw [type_resolveField, Option.toList_some, List.mem_singleton] at hm
        exact .inl ⟨field, hm⟩
      · obtain ⟨member, hmember, htype⟩ := List.mem_map.1 hm
        exact .inr (.inl ⟨field, member, hmember, htype⟩)
  | enum ident members =>
      simp [bodyOf, Body.types, Body.fields, Body.unionMembers?, Field.member] at h
  | union ident members =>
      simp only [bodyOf, Body.types, Body.fields, Body.unionMembers?, Option.getD_some,
        List.flatMap_nil, List.nil_append, List.map_map, List.mem_map,
        Function.comp_apply] at h
      obtain ⟨member, -, htype⟩ := h
      exact .inr (.inr ⟨member, htype⟩)

/-- Every reference of an entity points to an entity before it. Branches are the members of an
earlier union, so the proof goes by the position. -/
theorem Placed.pointsBefore {settings : Settings} {start context : Context}
    {entered : List Declaration} (hs : ofSettings settings = .ok start)
    (h : Placed start entered context) (i : Nat) {entity : Entity}
    (he : context.registry.entities[i]? = some entity) {type : TypeRef}
    (ht : type ∈ entity.body.types) {ref : EntityRef} (hr : type.entity? = some ref) :
    context.registry.PointsBefore i ref := by
  induction i using Nat.strongRecOn generalizing entity type with
  | ind i ih =>
      have hlt : i < entered.length := h.length_eq ▸ (List.getElem?_eq_some_iff.1 he).1
      have hd := List.getElem?_eq_getElem hlt
      obtain ⟨before, hbody, hindexed, hentities, hnamed, hmember⟩ := h.resolved hs hd he
      rw [hbody] at ht
      rcases mem_types_bodyOf ht with ⟨field, rfl⟩ | ⟨field, member, hbranch, rfl⟩ | ⟨ident, rfl⟩
      · rw [TypeRef.entity?_eq_some_iff, innermost_resolveType, innermost_resolveNamed,
          hnamed] at hr
        exact Registry.pointsBefore_of_fieldTypeAt hr
      · obtain ⟨name, union, hu, htype⟩ := exists_union_of_mem_branches hbranch
        have hmem := (hindexed.get?_eq_some_iff.1 hu).1
        rw [hentities] at hmem
        obtain ⟨j, hj⟩ := List.mem_iff_getElem?.1 hmem
        rw [List.getElem?_take] at hj
        split at hj
        · next hji => exact (ih j hji hj htype hr).mono (Nat.le_of_lt hji)
        · cases hj
      · simp only [TypeRef.entity?_eq_some_iff, resolveMember, hmember,
          Registry.innermost_memberTypeAt] at hr
        exact Registry.pointsBefore_of_memberTypeAt hr

end Context

namespace Registry

/-- Capabilities do not matter to what a body answers. -/
theorem Answers.congr {a b : Registry} (h : a.entities.map Entity.bare = b.entities.map Entity.bare)
    {settings : Settings} {i : Nat} {declaration : Declaration} {body : Body}
    (ha : a.Answers settings i declaration body) : b.Answers settings i declaration body := by
  have hfield := funext fun ident => fieldTypeAt_congr h settings i ident
  have hmember := funext fun ident => memberTypeAt_congr h settings i ident
  have heq : a.Answers settings i declaration body = b.Answers settings i declaration body := by
    cases declaration <;> cases body <;> simp only [Answers, hfield, hmember]
  exact heq ▸ ha

theorem PointsBefore.congr {a b : Registry}
    (h : a.entities.map Entity.bare = b.entities.map Entity.bare) {i : Nat} {ref : EntityRef}
    (ha : a.PointsBefore i ref) : b.PointsBefore i ref := by
  obtain ⟨j, target, hj, htarget, hname, hkind⟩ := ha
  have hmap := congrArg (·[j]?) h
  simp only [List.getElem?_map, htarget, Option.map_some] at hmap
  obtain ⟨other, hother, hbare⟩ := Option.map_eq_some_iff.1 hmap.symm
  refine ⟨j, other, hj, hother, ?_, ?_⟩
  · rw [Entity.name_eq_of_bare_eq hbare, hname]
  · rw [Entity.kind, Entity.body_eq_of_bare_eq hbare]
    exact hkind

/-- References that all point backwards do not come back to where they start. -/
theorem not_transGen_refersTo {registry : Registry} (hindexed : registry.Indexed)
    (h : ∀ i entity, registry.entities[i]? = some entity → ∀ type ∈ entity.body.types,
      ∀ ref, type.entity? = some ref → registry.PointsBefore i ref) (i : Nat) :
    ¬ Relation.TransGen registry.RefersTo i i := by
  have hback : ∀ a b, registry.RefersTo a b → b < a := by
    rintro a b ⟨entity, target, ref, ha, ⟨type, ht, hr⟩, hb, hname⟩
    obtain ⟨j, other, hj, hother, hsame, -⟩ := h a entity ha type ht ref hr
    rw [hindexed.position_unique hb hother (hname.trans hsame.symm)]
    exact hj
  have hpath : ∀ a b, Relation.TransGen registry.RefersTo a b → b < a := by
    intro a b hab
    induction hab with
    | single hstep => exact hback _ _ hstep
    | tail _ hstep ih => exact Nat.lt_trans (hback _ _ hstep) ih
  exact fun hcycle => Nat.lt_irrefl i (hpath i i hcycle)

end Registry

theorem indexed_of_resolve {document : String} {settings : Settings} {registry : Registry}
    (h : resolve document settings = .ok registry) : registry.Indexed := by
  obtain ⟨start, declarations, last, hs, -, hl, hc⟩ := resolve_eq_ok_iff.1 h
  obtain rfl := Resolver.registry_of_conclude hc
  exact Context.indexed_settle (Context.Entered.of_enterAll hs hl).indexed

/-- The body of every entity of a resolved model was resolved in a context that had the entities
before it. -/
theorem exists_before_of_resolve {document : String} {settings : Settings} {registry : Registry}
    (h : resolve document settings = .ok registry) {i : Nat} {entity : Entity}
    (he : registry.entities[i]? = some entity) :
    ∃ (before : Context) (declaration : Declaration),
      entity.body = before.bodyOf declaration ∧ before.registry.Indexed ∧
      before.registry.entities.map Entity.bare = (registry.entities.map Entity.bare).take i := by
  obtain ⟨start, declarations, last, hs, -, hl, hc⟩ := resolve_eq_ok_iff.1 h
  obtain rfl := Resolver.registry_of_conclude hc
  have hp := Context.placed_of_enterAll hs hl
  obtain ⟨found, hfound, hbare⟩ := Context.exists_before_settle he
  have hlt : i < declarations.length := hp.length_eq ▸ (List.getElem?_eq_some_iff.1 hfound).1
  obtain ⟨before, -, -, hindexed, hentities, hbare'⟩ :=
    hp.placed i _ found (List.getElem?_eq_getElem hlt) hfound
  refine ⟨before, declarations[i], ?_, hindexed, ?_⟩
  · rw [← Entity.body_eq_of_bare_eq hbare, Entity.body_eq_of_bare_eq hbare',
      Context.body_entityOf]
  · rw [hentities, List.map_take, Context.map_bare_settle]

/-- Read against the resolved model, every field and member of the entity at a position refers to
what the declaration of its chunk names there, by the entities before it. All references to entities
point to an earlier position, at an entity of the kind they give, and so form no cycle. -/
theorem references_of_resolve {document : String} {settings : Settings} {registry : Registry}
    (h : resolve document settings = .ok registry) :
    (∃ declarations : List Declaration,
      (settings.chunks document).map Declaration.ofChunk? = declarations.map some ∧
      registry.entities.length = declarations.length ∧
      ∀ (i : Nat) (declaration : Declaration) (entity : Entity),
        declarations[i]? = some declaration → registry.entities[i]? = some entity →
          registry.Answers settings i declaration entity.body) ∧
    (∀ (i : Nat) (entity : Entity), registry.entities[i]? = some entity →
      ∀ type ∈ entity.body.types, ∀ ref : EntityRef, type.entity? = some ref →
        ∃ (j : Nat) (target : Entity), j < i ∧ registry.entities[j]? = some target ∧
          target.name = ref.name ∧ target.kind = ref.kind) ∧
    ∀ i, ¬ Relation.TransGen registry.RefersTo i i := by
  obtain ⟨start, declarations, last, hs, hchunks, hl, hc⟩ := resolve_eq_ok_iff.1 h
  obtain rfl := Resolver.registry_of_conclude hc
  have hp := Context.placed_of_enterAll hs hl
  have hbare := Context.map_bare_settle last
  have hpoints : ∀ i entity, last.settle.registry.entities[i]? = some entity →
      ∀ type ∈ entity.body.types, ∀ ref, type.entity? = some ref →
        last.settle.registry.PointsBefore i ref := by
    intro i entity he type ht ref hr
    obtain ⟨before, hb, heq⟩ := Context.exists_before_settle he
    rw [← Entity.body_eq_of_bare_eq heq] at ht
    exact (hp.pointsBefore hs i hb ht hr).congr hbare.symm
  refine ⟨⟨declarations, hchunks, ?_, ?_⟩, hpoints, ?_⟩
  · rw [← hp.length_eq, ← List.length_map Entity.bare, hbare, List.length_map]
  · intro i declaration entity hd he
    obtain ⟨before, hb, heq⟩ := Context.exists_before_settle he
    rw [← Entity.body_eq_of_bare_eq heq]
    exact (hp.answers hs hd hb).congr hbare.symm
  · exact Registry.not_transGen_refersTo (Context.indexed_settle hp.indexed) hpoints

/-- Two records that name each other are no cycle: the first has only the name of the second, which
points back to it through a union. -/
theorem references_of_resolve_mutual :
    ∃ registry, resolve
        "type A \x7b e: [E!]! b: B on: Date \x7d\nunion U = A | B\ntype B \x7b u: [U] \x7d"
        { scalars := [("Date", "Int")] } = .ok registry ∧
      registry.names = ["A", "U", "B"] ∧ registry.RefersTo 2 1 ∧ registry.RefersTo 1 0 ∧
      ∀ i, ¬ Relation.TransGen registry.RefersTo i i := by
  have h : resolve
      "type A \x7b e: [E!]! b: B on: Date \x7d\nunion U = A | B\ntype B \x7b u: [U] \x7d"
      { scalars := [("Date", "Int")] } = .ok
        { entities :=
            [ { definition := ⟨"A", "A", ""⟩
                capabilities := [⟨"U", ""⟩]
                body := .record
                  [ .typed ⟨"e", "e"⟩ (.list (.unresolved "E")) true,
                    .typed ⟨"b", "b"⟩ (.unresolved "B") false,
                    .typed ⟨"on", "on"⟩ (.scalar .int) false ] },
              { definition := ⟨"U", "U", ""⟩
                body := .union [⟨"A", .entity ⟨"A", .record⟩⟩, ⟨"B", .unresolved "B"⟩] },
              { definition := ⟨"B", "B", ""⟩
                capabilities := [⟨"U", ""⟩]
                body := .record
                  [ (Field.typed ⟨"u", "u"⟩ (.list (.entity ⟨"U", .union⟩)) false).withBranches
                      [⟨"A", .entity ⟨"A", .record⟩⟩, ⟨"B", .unresolved "B"⟩] ] } ]
          positions := [("B", 2), ("U", 1), ("A", 0)] } :=
    resolve_eq_ok_of_toOption (by decide +kernel)
  refine ⟨_, h, rfl, ?_, ?_, (references_of_resolve h).2.2⟩
  · exact ⟨_, _, ⟨"U", .union⟩, rfl, ⟨.list (.entity ⟨"U", .union⟩), .head _, rfl⟩, rfl, rfl⟩
  · exact ⟨_, _, ⟨"A", .record⟩, rfl, ⟨.entity ⟨"A", .record⟩, .head _, rfl⟩, rfl, rfl⟩

end ModelGraph
