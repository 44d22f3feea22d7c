import ModelGraph.Proofs.Json.Reader

/-! # Reading a written model

The JSON value of a registry is read back into its entities, a member that was left out as empty,
unset or none. What is read is what was written, and it does not depend on the order of members; so
registries that are written alike have the same entities (`readEntities?_toJson`). -/

namespace ModelGraph

open JsonValue

/-- The scalar of a written name. -/
def Scalar.ofTag? (tag : String) : Option Scalar :=
  all.find? (·.tag == tag)

/-- Read a reference to an entity. -/
def EntityRef.ofJson? (value : JsonValue) : Option EntityRef := do
  some
    { name := ← value.read? "name" text?
      kind := ← value.read? "kind" fun kind => kind.text?.bind Kind.ofName? }

/-- Read a type reference that is no list. Its one member tells what it is. -/
def TypeRef.ofLeafJson? (value : JsonValue) : Option TypeRef :=
  ((value.read? "Scalar" fun tag => tag.text?.bind Scalar.ofTag?).map scalar).or
    (((value.read? "Entity" EntityRef.ofJson?).map entity).or
      ((value.read? "Unresolved" text?).map unresolved))

/-- Read a type reference. -/
def TypeRef.ofJson? (value : JsonValue) : Option TypeRef :=
  match _ : value.get? "List" with
  | some inner => (TypeRef.ofJson? inner).map list
  | none => TypeRef.ofLeafJson? value
termination_by sizeOf value
decreasing_by exact sizeOf_lt_of_get? ‹_›

/-- Read a definition. -/
def Definition.ofJson? (value : JsonValue) : Option Definition := do
  some
    { ident := ← value.read? "ident" text?
      name := ← value.read? "name" text?
      package := ← value.readOr? "package" "" text? }

/-- Read a capability. -/
def Capability.ofJson? (value : JsonValue) : Option Capability := do
  some
    { name := ← value.read? "name" text?
      package := ← value.readOr? "package" "" text? }

/-- Read a member of a union. -/
def UnionMember.ofJson? (value : JsonValue) : Option UnionMember := do
  some
    { ident := ← value.read? "ident" text?
      type := ← value.read? "ty" TypeRef.ofJson? }

/-- Read a field or a member of an enum. -/
def Field.ofJson? (value : JsonValue) : Option Field := do
  some
    { ident := ← value.read? "ident" text?
      name := ← value.read? "name" text?
      wireName := ← value.read? "serialized_name" text?
      type := ← value.readOr? "ty" none fun type => (TypeRef.ofJson? type).map some
      required := ← value.readOr? "required" false flag?
      unionTyped := ← value.readOr? "union_typed" false flag?
      branches := ← value.readOr? "union_branches" [] (listOf? UnionMember.ofJson?) }

/-- Read a body. Its kind tells what is in it. -/
def Body.ofJson? (value : JsonValue) : Option Body := do
  match ← value.read? "kind" fun kind => kind.text?.bind Kind.ofName? with
  | .record => (value.read? "fields" (listOf? Field.ofJson?)).map record
  | .input => (value.read? "fields" (listOf? Field.ofJson?)).map input
  | .enum => (value.read? "members" (listOf? Field.ofJson?)).map enum
  | .union => (value.read? "members" (listOf? UnionMember.ofJson?)).map union

/-- Read an entity. -/
def Entity.ofJson? (value : JsonValue) : Option Entity := do
  some
    { definition := ← value.read? "def" Definition.ofJson?
      capabilities := ← value.readOr? "capabilities" [] (listOf? Capability.ofJson?)
      body := ← value.read? "body" Body.ofJson? }

/-- Read the entities of a registry. -/
def Registry.readEntities? : JsonValue → Option (List Entity) :=
  listOf? Entity.ofJson?

theorem Scalar.ofTag?_tag (scalar : Scalar) : ofTag? scalar.tag = some scalar := by
  cases scalar <;> rfl

theorem EntityRef.ofJson?_toJson (ref : EntityRef) : ofJson? ref.toJson = some ref := by
  have hkind : Kind.ofName? ref.kind.name = some ref.kind := Kind.ofName?_eq_some_iff.2 rfl
  simp [ofJson?, toJson, read?, text?, hkind]

namespace TypeRef

theorem ofJson?_of_list {value inner : JsonValue} (h : value.get? "List" = some inner) :
    ofJson? value = (ofJson? inner).map list := by
  rw [ofJson?]
  split <;> simp_all

theorem ofJson?_of_leaf {value : JsonValue} (h : value.get? "List" = none) :
    ofJson? value = ofLeafJson? value := by
  rw [ofJson?]
  split <;> simp_all

theorem ofJson?_toJson (type : TypeRef) : ofJson? type.toJson = some type := by
  induction type with
  | scalar which =>
      rw [ofJson?_of_leaf (by simp [toJson])]
      simp [ofLeafJson?, toJson, read?, text?, Scalar.ofTag?_tag]
  | entity ref =>
      rw [ofJson?_of_leaf (by simp [toJson])]
      simp [ofLeafJson?, toJson, read?, EntityRef.ofJson?_toJson]
  | unresolved name =>
      rw [ofJson?_of_leaf (by simp [toJson])]
      simp [ofLeafJson?, toJson, read?, text?]
  | list inner ih =>
      have hinner : (list inner).toJson.get? "List" = some inner.toJson := by simp [toJson]
      rw [ofJson?_of_list hinner, ih, Option.map_some]

end TypeRef

theorem Definition.ofJson?_toJson (definition : Definition) :
    ofJson? definition.toJson = some definition := by
  have hpackage : definition.toJson.readOr? "package" "" text? = some definition.package :=
    readOr?_text (by simp [toJson])
  rw [ofJson?, hpackage]
  simp [toJson, read?, text?]

theorem Capability.ofJson?_toJson (capability : Capability) :
    ofJson? capability.toJson = some capability := by
  have hpackage : capability.toJson.readOr? "package" "" text? = some capability.package :=
    readOr?_text (by simp [toJson])
  rw [ofJson?, hpackage]
  simp [toJson, read?, text?]

theorem UnionMember.ofJson?_toJson (member : UnionMember) :
    ofJson? member.toJson = some member := by
  simp [ofJson?, toJson, read?, text?, TypeRef.ofJson?_toJson]

theorem Field.ofJson?_toJson (field : Field) : ofJson? field.toJson = some field := by
  have htype : (field.toJson.readOr? "ty" none fun type => (TypeRef.ofJson? type).map some) =
      some field.type :=
    readOr?_optional TypeRef.ofJson?_toJson (by simp [toJson])
  have hrequired : field.toJson.readOr? "required" false flag? = some field.required :=
    readOr?_flag (by simp [toJson])
  have hunion : field.toJson.readOr? "union_typed" false flag? = some field.unionTyped :=
    readOr?_flag (by simp [toJson])
  have hbranches : field.toJson.readOr? "union_branches" [] (listOf? UnionMember.ofJson?) =
      some field.branches :=
    readOr?_list UnionMember.ofJson?_toJson (by simp [toJson])
  rw [ofJson?, htype, hrequired, hunion, hbranches]
  simp [toJson, read?, text?]

theorem Body.ofJson?_toJson (body : Body) : ofJson? body.toJson = some body := by
  have hname : (text body.kind.name).text?.bind Kind.ofName? = some body.kind :=
    Kind.ofName?_eq_some_iff.2 rfl
  have hkind : (body.toJson.read? "kind" fun kind => kind.text?.bind Kind.ofName?) =
      some body.kind :=
    read?_of_get? hname (by simp [toJson])
  have hfields := listOf?_map Field.ofJson?_toJson
  have hmembers := listOf?_map UnionMember.ofJson?_toJson
  rw [ofJson?, hkind]
  cases body <;> simp [toJson, itemsJson, kind, read?, hfields, hmembers]

theorem Entity.ofJson?_toJson (entity : Entity) : ofJson? entity.toJson = some entity := by
  have hcapabilities : entity.toJson.readOr? "capabilities" [] (listOf? Capability.ofJson?) =
      some entity.capabilities :=
    readOr?_list Capability.ofJson?_toJson (by simp [toJson])
  rw [ofJson?, hcapabilities]
  simp [toJson, read?, Definition.ofJson?_toJson, Body.ofJson?_toJson]

theorem EntityRef.respects_ofJson? : Respects ofJson? := by
  intro value other h
  simp only [ofJson?, h.read?_eq respects_text?, h.read?_eq (respects_text?.bind Kind.ofName?)]

namespace TypeRef

theorem respects_ofLeafJson? : Respects ofLeafJson? := by
  intro value other h
  simp only [ofLeafJson?, h.read?_eq respects_text?, h.read?_eq EntityRef.respects_ofJson?,
    h.read?_eq (respects_text?.bind Scalar.ofTag?)]

/-- The induction is on how the values say the same, for lists may stand in lists. -/
theorem respects_ofJson? : Respects ofJson? := by
  intro value other h
  induction h with
  | text | flag => rfl
  | list hlength hitems =>
      rw [ofJson?_of_leaf rfl, ofJson?_of_leaf rfl]
      exact respects_ofLeafJson? _ _ (.list hlength hitems)
  | object hkeys hmembers ih =>
      have hsame := Same.object hkeys hmembers
      rcases hsame.get?_cases "List" with ⟨hv, ho⟩ | ⟨inner, inner', hv, ho, -⟩
      · rw [ofJson?_of_leaf hv, ofJson?_of_leaf ho, respects_ofLeafJson? _ _ hsame]
      · rw [ofJson?_of_list hv, ofJson?_of_list ho, ih "List" inner inner' hv ho]

end TypeRef

theorem Definition.respects_ofJson? : Respects ofJson? := by
  intro value other h
  simp only [ofJson?, h.read?_eq respects_text?, h.readOr?_eq respects_text?]

theorem Capability.respects_ofJson? : Respects ofJson? := by
  intro value other h
  simp only [ofJson?, h.read?_eq respects_text?, h.readOr?_eq respects_text?]

theorem UnionMember.respects_ofJson? : Respects ofJson? := by
  intro value other h
  simp only [ofJson?, h.read?_eq respects_text?, h.read?_eq TypeRef.respects_ofJson?]

theorem Field.respects_ofJson? : Respects ofJson? := by
  have htype : Respects fun type => (TypeRef.ofJson? type).map some := by
    intro value other h
    simp only [TypeRef.respects_ofJson? value other h]
  intro value other h
  simp only [ofJson?, h.read?_eq respects_text?, h.readOr?_eq htype, h.readOr?_eq respects_flag?,
    h.readOr?_eq (respects_listOf? UnionMember.respects_ofJson?)]

theorem Body.respects_ofJson? : Respects ofJson? := by
  intro value other h
  simp only [ofJson?, h.read?_eq (respects_text?.bind Kind.ofName?),
    h.read?_eq (respects_listOf? Field.respects_ofJson?),
    h.read?_eq (respects_listOf? UnionMember.respects_ofJson?)]

theorem Entity.respects_ofJson? : Respects ofJson? := by
  intro value other h
  simp only [ofJson?, h.read?_eq Definition.respects_ofJson?, h.read?_eq Body.respects_ofJson?,
    h.readOr?_eq (respects_listOf? Capability.respects_ofJson?)]

/-- The entities of a registry are read back from its written form. So two registries are written
alike, up to the order of members in objects, exactly if they have the same entities in the same
order. -/
theorem readEntities?_toJson (registry : Registry) :
    Registry.readEntities? registry.toJson = some registry.entities ∧
      ∀ other : Registry,
        registry.toJson.Same other.toJson ↔ registry.entities = other.entities := by
  have hread (written : Registry) :
      Registry.readEntities? written.toJson = some written.entities :=
    listOf?_map Entity.ofJson?_toJson written.entities
  refine ⟨hread registry, fun other => ?_⟩
  constructor
  · intro hsame
    have heq := respects_listOf? Entity.respects_ofJson? _ _ hsame
    apply Option.some.inj
    calc
      some registry.entities = Registry.readEntities? registry.toJson := (hread registry).symm
      _ = Registry.readEntities? other.toJson := heq
      _ = some other.entities := hread other
  · intro hentities
    rw [Registry.toJson, Registry.toJson, hentities]
    exact Same.refl _

end ModelGraph
