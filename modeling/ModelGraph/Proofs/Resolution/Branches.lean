import ModelGraph.Proofs.Resolution.References

/-! # Branches of union-typed fields

A field of a union type carries a copy of the members of the union. The copy is made when the field
is resolved, from the union as it is registered then. Unions only stand before the fields that
resolve to them, and neither later declarations nor deliveries change their members; so the copy is
still right in the final registry (`branches_of_resolve`). -/

namespace ModelGraph

/-- The type of the field is, inside all lists, the union of the given name. -/
def Field.RefersToUnion (field : Field) (union : String) : Prop :=
  ∃ type, field.type = some type ∧ type.innermost = .entity ⟨union, .union⟩

/-- A member of an enum has a name and nothing of what only fields have. -/
structure Field.Untyped (field : Field) : Prop where
  type : field.type = none
  required : field.required = false
  unionTyped : field.unionTyped = false
  branches : field.branches = []

/-- The field is marked exactly if its type is a union, and it carries exactly the members that the
registry has for that union. -/
structure Registry.Branching (registry : Registry) (field : Field) : Prop where
  unionTyped : field.unionTyped = true ↔ ∃ union, field.RefersToUnion union
  members : ∀ name, field.RefersToUnion name →
    ∃ union, registry.get? name = some union ∧ union.body = .union field.branches
  unbranched : field.unionTyped = false → field.branches = []

theorem Body.kind_eq_union_iff {body : Body} :
    body.kind = .union ↔ ∃ members, body = .union members := by
  cases body <;> simp [kind]

theorem Field.untyped_member (ident : String) : (Field.member ident).Untyped :=
  ⟨rfl, rfl, rfl, rfl⟩

namespace Context

variable {context : Context}

theorem unionTyped_resolveField (field : FieldSyntax) :
    (context.resolveField field).unionTyped =
      (context.branchesOf? (context.resolveType field.type)).isSome := by
  simp only [resolveField]
  split
  · next hbranches => rw [hbranches]; rfl
  · next hnone => rw [hnone]; rfl

theorem refersToUnion_resolveField_iff {field : FieldSyntax} {name : String} :
    (context.resolveField field).RefersToUnion name ↔
      (context.resolveType field.type).innermost = .entity ⟨name, .union⟩ := by
  simp [Field.RefersToUnion, type_resolveField]

/-- A type that was resolved to a union has branches, for the union is registered. -/
theorem exists_union_of_innermost (h : context.registry.Indexed) {type : TypeExpr} {name : String}
    (htype : (context.resolveType type).innermost = .entity ⟨name, .union⟩) :
    ∃ union members, context.registry.get? name = some union ∧ union.body = .union members ∧
      context.branchesOf? (context.resolveType type) = some members := by
  have hsupports := (supports_resolveType h type).innermost
  rw [htype] at hsupports
  obtain ⟨union, hunion, href⟩ := hsupports
  have hkind : union.body.kind = .union := congrArg EntityRef.kind href
  obtain ⟨members, hbody⟩ := Body.kind_eq_union_iff.1 hkind
  exact ⟨union, members, hunion, hbody,
    branchesOf?_eq_some_iff.2 ⟨name, union, htype, hunion, hbody⟩⟩

/-- When a field is resolved, it carries the members of the union as they are then. -/
theorem branching_resolveField (h : context.registry.Indexed) (field : FieldSyntax) :
    context.registry.Branching (context.resolveField field) where
  unionTyped := by
    rw [unionTyped_resolveField, Option.isSome_iff_exists]
    constructor
    · rintro ⟨branches, hbranches⟩
      obtain ⟨name, union, htype, -⟩ := branchesOf?_eq_some_iff.1 hbranches
      exact ⟨name, refersToUnion_resolveField_iff.2 htype⟩
    · rintro ⟨name, hname⟩
      obtain ⟨union, members, -, -, hbranches⟩ :=
        exists_union_of_innermost h (refersToUnion_resolveField_iff.1 hname)
      exact ⟨members, hbranches⟩
  members name hname := by
    obtain ⟨union, members, hunion, hbody, hbranches⟩ :=
      exists_union_of_innermost h (refersToUnion_resolveField_iff.1 hname)
    rw [branches_resolveField, hbranches]
    exact ⟨union, hunion, hbody⟩
  unbranched hflag := by
    rw [unionTyped_resolveField, Option.isSome_eq_false_iff, Option.isNone_iff_eq_none] at hflag
    rw [branches_resolveField, hflag]
    rfl

end Context

namespace Registry

variable {before registry : Registry} {i : Nat}

/-- What a registry has under a name is still there, up to capabilities, when more entities stand
behind. -/
theorem Indexed.exists_get?_of_take (hbefore : before.Indexed) (h : registry.Indexed)
    (hentities : before.entities.map Entity.bare = (registry.entities.map Entity.bare).take i)
    {name : String} {entity : Entity} (he : before.get? name = some entity) :
    ∃ found, registry.get? name = some found ∧ found.bare = entity.bare := by
  obtain ⟨hmem, hname⟩ := hbefore.get?_eq_some_iff.1 he
  have hbare : entity.bare ∈ before.entities.map Entity.bare := List.mem_map_of_mem hmem
  rw [hentities] at hbare
  obtain ⟨found, hfound, heq⟩ := List.mem_map.1 (List.mem_of_mem_take hbare)
  refine ⟨found, h.get?_eq_some_iff.2 ⟨hfound, ?_⟩, heq⟩
  rw [Entity.name_eq_of_bare_eq heq, hname]

/-- Branches do not go stale. -/
theorem Branching.of_take (hbefore : before.Indexed) (h : registry.Indexed)
    (hentities : before.entities.map Entity.bare = (registry.entities.map Entity.bare).take i)
    {field : Field} (hfield : before.Branching field) : registry.Branching field where
  unionTyped := hfield.unionTyped
  members name hname := by
    obtain ⟨union, hunion, hbody⟩ := hfield.members name hname
    obtain ⟨found, hfound, hbare⟩ := hbefore.exists_get?_of_take h hentities hunion
    refine ⟨found, hfound, ?_⟩
    rw [Entity.body_eq_of_bare_eq hbare, hbody]
  unbranched := hfield.unbranched

end Registry

/-- In a resolved model a field of a record or input is marked as union-typed exactly if its type
is, inside all lists, a union; it then has the members that the model has for that union, and no
branches otherwise. Members of enums have no type, are not required, and have no branches. -/
theorem branches_of_resolve {document : String} {settings : Settings} {registry : Registry}
    (h : resolve document settings = .ok registry) {entity : Entity}
    (he : entity ∈ registry.entities) :
    (entity.kind = .record ∨ entity.kind = .input →
      ∀ field ∈ entity.body.fields, registry.Branching field) ∧
    (entity.kind = .enum → ∀ member ∈ entity.body.fields, member.Untyped) := by
  obtain ⟨i, hi⟩ := List.mem_iff_getElem?.1 he
  obtain ⟨before, declaration, hbody, hbefore, hentities⟩ := exists_before_of_resolve h hi
  have hresolved : ∀ field, registry.Branching (before.resolveField field) := fun field =>
    (Context.branching_resolveField hbefore field).of_take hbefore (indexed_of_resolve h) hentities
  have hkind : entity.kind = declaration.kind := by
    rw [Entity.kind, hbody, Context.kind_bodyOf]
  rw [hkind, hbody]
  cases declaration with
  | record ident fields | input ident fields =>
      constructor
      · intro _ field hfield
        obtain ⟨declared, -, rfl⟩ := List.mem_map.1 hfield
        exact hresolved declared
      · rintro ⟨⟩
  | enum ident members =>
      constructor
      · rintro (⟨⟨⟩⟩ | ⟨⟨⟩⟩)
      · intro _ member hmember
        obtain ⟨declared, -, rfl⟩ := List.mem_map.1 hmember
        exact Field.untyped_member declared
  | union ident members =>
      constructor
      · rintro (⟨⟨⟩⟩ | ⟨⟨⟩⟩)
      · rintro ⟨⟩

/-- A list of lists of a union whose members stand before and after it, a union that a scalar hides,
and one that comes too late to be seen. -/
theorem branches_of_resolve_nested :
    ∃ registry entity field hidden later, resolve
        ("type A \x7b id: ID \x7d\nunion U = A | B\n\nunion Date = A\n\n" ++
          "input B \x7b u: [[U!]]! on: Date v: V \x7d\nunion V = A")
        { scalars := [("Date", "Int")] } = .ok registry ∧
      entity ∈ registry.entities ∧ entity.body.fields = [field, hidden, later] ∧
      (∃ union, registry.get? "U" = some union ∧ union.body = .union field.branches) ∧
      field.branches = [⟨"A", .entity ⟨"A", .record⟩⟩, ⟨"B", .unresolved "B"⟩] ∧
      hidden.unionTyped = false ∧ later.unionTyped = false ∧
      registry.Branching hidden ∧ registry.Branching later := by
  have h : resolve
      ("type A \x7b id: ID \x7d\nunion U = A | B\n\nunion Date = A\n\n" ++
        "input B \x7b u: [[U!]]! on: Date v: V \x7d\nunion V = A")
      { scalars := [("Date", "Int")] } = .ok
        { entities :=
            [ { definition := ⟨"A", "A", ""⟩
                capabilities := [⟨"U", ""⟩, ⟨"Date", ""⟩, ⟨"V", ""⟩]
                body := .record [.typed ⟨"id", "id"⟩ (.scalar .id) false] },
              { definition := ⟨"U", "U", ""⟩
                body := .union [⟨"A", .entity ⟨"A", .record⟩⟩, ⟨"B", .unresolved "B"⟩] },
              { definition := ⟨"Date", "Date", ""⟩
                body := .union [⟨"A", .entity ⟨"A", .record⟩⟩] },
              { definition := ⟨"B", "B", ""⟩
                capabilities := [⟨"U", ""⟩]
                body := .input
                  [ (Field.typed ⟨"u", "u"⟩ (.list (.list (.entity ⟨"U", .union⟩)))
                      true).withBranches
                        [⟨"A", .entity ⟨"A", .record⟩⟩, ⟨"B", .unresolved "B"⟩],
                    .typed ⟨"on", "on"⟩ (.scalar .int) false,
                    .typed ⟨"v", "v"⟩ (.unresolved "V") false ] },
              { definition := ⟨"V", "V", ""⟩
                body := .union [⟨"A", .entity ⟨"A", .record⟩⟩] } ]
          positions := [("V", 4), ("B", 3), ("Date", 2), ("U", 1), ("A", 0)] } :=
    resolve_eq_ok_of_toOption (by decide +kernel)
  have hfields := (branches_of_resolve h (.tail _ (.tail _ (.tail _ (.head _))))).1 (.inr rfl)
  refine ⟨_, _, _, _, _, h, .tail _ (.tail _ (.tail _ (.head _))), rfl, ?_, rfl, rfl, rfl, ?_, ?_⟩
  · exact (hfields _ (.head _)).members "U" ⟨_, rfl, rfl⟩
  · exact hfields _ (.tail _ (.head _))
  · exact hfields _ (.tail _ (.tail _ (.head _)))

end ModelGraph
