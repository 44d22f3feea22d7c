import Mathlib.Data.List.Forall2
import Mathlib.Data.List.Nodup
import Mathlib.Data.List.Perm.Basic
import ModelGraph.Proofs.Resolution.Delivery
import ModelGraph.Proofs.Resolution.References

/-! # The order of declarations

Declarations may stand in any order. A reference to a later declaration stays a name where one to an
earlier declaration is resolved, and an entity gets its capabilities in the order of the unions;
nothing else depends on the order. Documents with the same chunks are resolved or refused together,
and what they declare under a name agrees (`resolve_of_perm`). -/

namespace ModelGraph

/-- The number of lists around a type. -/
def TypeRef.depth : TypeRef → Nat
  | list inner => inner.depth + 1
  | _ => 0

/-- The types are lists of the same depth, and inside of them the same reference, unless one of the
two was not resolved. -/
structure TypeRef.Agrees (a b : TypeRef) : Prop where
  depth_eq : a.depth = b.depth
  innermost_eq : a.isResolved = true → b.isResolved = true → a.innermost = b.innermost

/-- The fields are the same up to their types, which agree. Their branches may differ. -/
structure Field.Agrees (a b : Field) : Prop where
  ident_eq : a.ident = b.ident
  name_eq : a.name = b.name
  wireName_eq : a.wireName = b.wireName
  required_eq : a.required = b.required
  type : Option.Rel TypeRef.Agrees a.type b.type

/-- The members are declared alike, and their types agree. -/
structure UnionMember.Agrees (a b : UnionMember) : Prop where
  ident_eq : a.ident = b.ident
  type : a.type.Agrees b.type

/-- The bodies are of the same kind, and their fields or members agree one by one. -/
inductive Body.Agrees : Body → Body → Prop
  | record {first second : List Field} (h : List.Forall₂ Field.Agrees first second) :
      Body.Agrees (.record first) (.record second)
  | input {first second : List Field} (h : List.Forall₂ Field.Agrees first second) :
      Body.Agrees (.input first) (.input second)
  | enum (members : List Field) : Body.Agrees (.enum members) (.enum members)
  | union {first second : List UnionMember} (h : List.Forall₂ UnionMember.Agrees first second) :
      Body.Agrees (.union first) (.union second)

/-- The entities are called the same, their bodies agree, and they have the same capabilities in
some order. -/
structure Entity.Agrees (a b : Entity) : Prop where
  definition_eq : a.definition = b.definition
  kind_eq : a.kind = b.kind
  body : a.body.Agrees b.body
  mem_capabilities_iff : ∀ capability, capability ∈ a.capabilities ↔ capability ∈ b.capabilities

namespace TypeRef

@[simp] theorem depth_list (inner : TypeRef) : (list inner).depth = inner.depth + 1 := rfl

theorem Agrees.refl (type : TypeRef) : type.Agrees type :=
  ⟨rfl, fun _ _ => rfl⟩

/-- A name that was not resolved agrees with any type that is no list. -/
theorem agrees_unresolved {type : TypeRef} (h : type.depth = 0) (name : String) :
    type.Agrees (unresolved name) :=
  ⟨h, fun _ hb => nomatch hb⟩

theorem Agrees.symm {a b : TypeRef} (h : a.Agrees b) : b.Agrees a :=
  ⟨h.depth_eq.symm, fun hb ha => (h.innermost_eq ha hb).symm⟩

theorem Agrees.list {a b : TypeRef} (h : a.Agrees b) : (list a).Agrees (list b) :=
  ⟨congrArg (· + 1) h.depth_eq, h.innermost_eq⟩

end TypeRef

namespace Context

theorem depth_resolveEntity (context : Context) (ident : String) :
    (context.resolveEntity ident).depth = 0 := by
  simp only [resolveEntity]
  split <;> rfl

theorem depth_collapseEnum (context : Context) (type : TypeRef) :
    (context.collapseEnum type).depth = type.depth := by
  cases type with
  | entity ref =>
      simp only [collapseEnum]
      split <;> rfl
  | scalar | unresolved | list => rfl

/-- The contexts belong to one resolution, up to the declarations entered so far: what both know
under a name is of one kind. -/
structure Consistent (a b : Context) : Prop where
  settings_eq : a.settings = b.settings
  scalars_eq : a.scalars = b.scalars
  ref_eq : ∀ name x y, a.registry.get? name = some x → b.registry.get? name = some y →
    x.ref = y.ref

namespace Consistent

variable {a b : Context} (h : Consistent a b)
include h

/-- The contexts answer a reference alike, or one of them does not resolve it. -/
theorem resolveEntity_cases (ident : String) :
    a.resolveEntity ident = b.resolveEntity ident ∨
      (∃ name, a.resolveEntity ident = .unresolved name) ∨
      ∃ name, b.resolveEntity ident = .unresolved name := by
  simp only [resolveEntity, typeName, h.settings_eq]
  cases ha : a.registry.get? (b.settings.naming.typeName ident) with
  | none => exact .inr (.inl ⟨_, rfl⟩)
  | some x =>
      cases hb : b.registry.get? (b.settings.naming.typeName ident) with
      | none => exact .inr (.inr ⟨_, rfl⟩)
      | some y => exact .inl (congrArg TypeRef.entity (h.ref_eq _ x y ha hb))

theorem resolveEntity_agrees (ident : String) :
    (a.resolveEntity ident).Agrees (b.resolveEntity ident) := by
  rcases h.resolveEntity_cases ident with heq | ⟨name, ha⟩ | ⟨name, hb⟩
  · exact heq ▸ .refl _
  · exact ha ▸ (TypeRef.agrees_unresolved (b.depth_resolveEntity ident) name).symm
  · exact hb ▸ TypeRef.agrees_unresolved (a.depth_resolveEntity ident) name

/-- Scalars do not depend on what is declared, and an enum that one context takes for a string is
unresolved in the other or taken for a string there, too. -/
theorem resolveNamed_agrees (ident : String) :
    (a.resolveNamed ident).Agrees (b.resolveNamed ident) := by
  have hscalar : a.scalarOf? ident = b.scalarOf? ident := by
    simp only [scalarOf?, h.scalars_eq]
  have hcollapse : a.collapseEnum = b.collapseEnum := by
    funext type
    simp only [collapseEnum, h.settings_eq]
  have hdepth (context : Context) : (b.collapseEnum (context.resolveEntity ident)).depth = 0 := by
    rw [depth_collapseEnum, depth_resolveEntity]
  simp only [resolveNamed, hscalar, hcollapse]
  cases b.scalarOf? ident with
  | some scalar => exact .refl _
  | none =>
      rcases h.resolveEntity_cases ident with heq | ⟨name, ha⟩ | ⟨name, hb⟩
      · exact heq ▸ .refl _
      · rw [ha]
        exact (TypeRef.agrees_unresolved (hdepth b) name).symm
      · rw [hb]
        exact TypeRef.agrees_unresolved (hdepth a) name

theorem resolveType_agrees (type : TypeExpr) :
    (a.resolveType type).Agrees (b.resolveType type) := by
  induction type with
  | named ident => exact h.resolveNamed_agrees ident
  | list inner ih => exact ih.list

theorem resolveField_agrees (field : FieldSyntax) :
    (a.resolveField field).Agrees (b.resolveField field) := by
  have htype := h.resolveType_agrees field.type
  rw [resolveField, resolveField, h.settings_eq]
  cases a.branchesOf? (a.resolveType field.type) <;>
    cases b.branchesOf? (b.resolveType field.type) <;>
    exact ⟨rfl, rfl, rfl, rfl, .some htype⟩

theorem bodyOf_agrees (declaration : Declaration) :
    (a.bodyOf declaration).Agrees (b.bodyOf declaration) := by
  have hfields : ∀ fields : List FieldSyntax, List.Forall₂ Field.Agrees
      (fields.map a.resolveField) (fields.map b.resolveField) := by
    intro fields
    rw [List.forall₂_map_left_iff, List.forall₂_map_right_iff, List.forall₂_same]
    exact fun field _ => h.resolveField_agrees field
  cases declaration with
  | record ident fields => exact .record (hfields fields)
  | input ident fields => exact .input (hfields fields)
  | enum ident members => exact .enum _
  | union ident members =>
      refine .union ?_
      rw [List.forall₂_map_left_iff, List.forall₂_map_right_iff, List.forall₂_same]
      exact fun member _ => ⟨rfl, h.resolveEntity_agrees member⟩

end Consistent

/-- Declarations are entered exactly if their resolved names are pairwise distinct. -/
theorem exists_enterAll_iff {settings : Settings} {start : Context}
    (hs : ofSettings settings = .ok start) {declarations : List Declaration} :
    (∃ last, start.enterAll declarations = .ok last) ↔
      (declarations.map fun declaration => start.typeName declaration.ident).Nodup := by
  constructor
  · rintro ⟨last, hl⟩
    have hentered := Entered.of_enterAll hs hl
    exact hentered.names_eq ▸ hentered.indexed.nodup_names
  · intro hnodup
    induction declarations using List.reverseRecOn with
    | nil => exact ⟨start, rfl⟩
    | append_singleton entered declaration ih =>
        rw [List.map_append, List.map_singleton, List.nodup_append] at hnodup
        obtain ⟨hentered, -, hnew⟩ := hnodup
        obtain ⟨context, hc⟩ := ih hentered
        have hknown := Entered.of_enterAll hs hc
        have hname : context.typeName declaration.ident = start.typeName declaration.ident := by
          simp only [typeName, hknown.settings_eq]
        have hfresh : context.registry.contains (context.typeName declaration.ident) = false := by
          rw [← Bool.not_eq_true, hknown.indexed.contains_iff, hknown.names_eq, hname]
          exact fun hmem => hnew _ hmem _ (List.mem_singleton_self _) rfl
        refine ⟨context.withDeclaration declaration, ?_⟩
        rw [enterAll_append, hc]
        simp [Except.bind, enterAll, enter_eq_ok_iff.2 ⟨hfresh, rfl⟩]

/-- Every entity was entered by the declaration at its position, which gave it its name and kind. -/
theorem Entered.exists_declaration {start context : Context} {entered : List Declaration}
    (h : Entered start entered context) {i : Nat} {entity : Entity}
    (he : context.registry.entities[i]? = some entity) :
    ∃ declaration, entered[i]? = some declaration ∧
      entity.definition = start.define declaration.ident ∧ entity.kind = declaration.kind := by
  have hsignature := congrArg (·[i]?) h.signatures
  simp only [List.getElem?_map, he, Option.map_some] at hsignature
  obtain ⟨declaration, hd, heq⟩ := Option.map_eq_some_iff.1 hsignature.symm
  obtain ⟨hdefinition, hkind⟩ := Prod.mk.inj heq
  exact ⟨declaration, hd, hdefinition.symm, hkind.symm⟩

section Runs

variable {settings : Settings} {start last other : Context}
  {declarations reordered : List Declaration} (hs : ofSettings settings = .ok start)
  (hperm : declarations.Perm reordered) (hl : start.enterAll declarations = .ok last)
  (ho : start.enterAll reordered = .ok other)
include hs hperm hl ho

/-- Entities of one name that two orders of the same declarations lead to come from one of them. -/
theorem exists_common_declaration {i j : Nat} {x y : Entity}
    (hx : last.registry.entities[i]? = some x) (hy : other.registry.entities[j]? = some y)
    (hname : x.name = y.name) :
    ∃ declaration, declarations[i]? = some declaration ∧ reordered[j]? = some declaration ∧
      x.definition = y.definition ∧ x.kind = y.kind := by
  obtain ⟨first, hfirst, hxd, hxk⟩ := (Entered.of_enterAll hs hl).exists_declaration hx
  obtain ⟨second, hsecond, hyd, hyk⟩ := (Entered.of_enterAll hs ho).exists_declaration hy
  have hsame : first = second := by
    refine List.inj_on_of_nodup_map ((exists_enterAll_iff hs).1 ⟨last, hl⟩)
      (List.mem_of_getElem? hfirst) (hperm.mem_iff.2 (List.mem_of_getElem? hsecond)) ?_
    rw [Entity.name, Entity.name, hxd, hyd] at hname
    exact hname
  subst hsame
  exact ⟨first, hfirst, hsecond, hxd.trans hyd.symm, hxk.trans hyk.symm⟩

/-- Contexts that two orders of the same declarations lead through are consistent. -/
theorem consistent_of_perm {before before' : Context} {i j : Nat}
    (hsettings : before.settings = start.settings) (hsettings' : before'.settings = start.settings)
    (hscalars : before.scalars = start.scalars) (hscalars' : before'.scalars = start.scalars)
    (hindexed : before.registry.Indexed) (hindexed' : before'.registry.Indexed)
    (hentities : before.registry.entities = last.registry.entities.take i)
    (hentities' : before'.registry.entities = other.registry.entities.take j) :
    Consistent before before' := by
  refine ⟨hsettings.trans hsettings'.symm, hscalars.trans hscalars'.symm, ?_⟩
  intro name x y hx hy
  obtain ⟨hxmem, hxname⟩ := hindexed.get?_eq_some_iff.1 hx
  obtain ⟨hymem, hyname⟩ := hindexed'.get?_eq_some_iff.1 hy
  rw [hentities] at hxmem
  rw [hentities'] at hymem
  obtain ⟨k, hk⟩ := List.mem_iff_getElem?.1 (List.mem_of_mem_take hxmem)
  obtain ⟨m, hm⟩ := List.mem_iff_getElem?.1 (List.mem_of_mem_take hymem)
  have hname := hxname.trans hyname.symm
  obtain ⟨-, -, -, -, hkind⟩ := exists_common_declaration hs hperm hl ho hk hm hname
  rw [Entity.ref, Entity.ref, hname, hkind]

/-- Entities of one name agree in their bodies, whatever the order of declarations. -/
theorem bodies_agree_of_perm {i j : Nat} {x y : Entity}
    (hx : last.registry.entities[i]? = some x) (hy : other.registry.entities[j]? = some y)
    (hname : x.name = y.name) : x.body.Agrees y.body := by
  obtain ⟨declaration, hd, hd', -, -⟩ := exists_common_declaration hs hperm hl ho hx hy hname
  obtain ⟨before, hsettings, hscalars, hindexed, hentities, hbare⟩ :=
    (placed_of_enterAll hs hl).placed i declaration x hd hx
  obtain ⟨before', hsettings', hscalars', hindexed', hentities', hbare'⟩ :=
    (placed_of_enterAll hs ho).placed j declaration y hd' hy
  have hconsistent := consistent_of_perm hs hperm hl ho hsettings hsettings' hscalars hscalars'
    hindexed hindexed' hentities hentities'
  rw [Entity.body_eq_of_bare_eq hbare, Entity.body_eq_of_bare_eq hbare', body_entityOf,
    body_entityOf]
  exact hconsistent.bodyOf_agrees declaration

end Runs

/-- Whatever the order of declarations, what is declared under one name agrees in the end. -/
theorem agrees_of_perm {settings : Settings} {start last other : Context}
    {declarations reordered : List Declaration} (hs : ofSettings settings = .ok start)
    (hperm : declarations.Perm reordered) (hl : start.enterAll declarations = .ok last)
    (ho : start.enterAll reordered = .ok other) {x y : Entity}
    (hx : x ∈ last.settle.registry.entities) (hy : y ∈ other.settle.registry.entities)
    (hname : x.name = y.name) : x.Agrees y := by
  obtain ⟨i, hi⟩ := List.mem_iff_getElem?.1 hx
  obtain ⟨j, hj⟩ := List.mem_iff_getElem?.1 hy
  obtain ⟨x', hx', hxbare⟩ := exists_before_settle hi
  obtain ⟨y', hy', hybare⟩ := exists_before_settle hj
  have hname' : x'.name = y'.name := by
    rw [Entity.name_eq_of_bare_eq hxbare, Entity.name_eq_of_bare_eq hybare, hname]
  obtain ⟨-, -, -, hdefinition, hkind⟩ :=
    exists_common_declaration hs hperm hl ho hx' hy' hname'
  have hbody := bodies_agree_of_perm hs hperm hl ho hx' hy' hname'
  rw [Entity.body_eq_of_bare_eq hxbare, Entity.body_eq_of_bare_eq hybare] at hbody
  have hkind' : x.kind = y.kind := by
    rw [Entity.kind, Entity.kind, ← Entity.body_eq_of_bare_eq hxbare,
      ← Entity.body_eq_of_bare_eq hybare]
    exact hkind
  have haccepts : x.body.acceptsCapabilities = y.body.acceptsCapabilities := by
    rw [Bool.eq_iff_iff, Body.acceptsCapabilities_iff, Body.acceptsCapabilities_iff]
    rw [Entity.kind, Entity.kind] at hkind'
    rw [hkind']
  refine ⟨?_, hkind', hbody, ?_⟩
  · have hx := congrArg Entity.definition hxbare
    have hy := congrArg Entity.definition hybare
    exact hx.symm.trans (hdefinition.trans hy)
  · intro capability
    rw [mem_capabilities_settle hs hl hx, mem_capabilities_settle hs ho hy, haccepts, hname]
    simp only [hperm.mem_iff]

end Context

/-- The chunks of another order of the same chunks declare the same in that order. -/
theorem exists_perm_of_ofChunk? {chunks reordered : List String} {declarations : List Declaration}
    (hperm : chunks.Perm reordered)
    (hd : chunks.map Declaration.ofChunk? = declarations.map some) :
    ∃ others, declarations.Perm others ∧
      reordered.map Declaration.ofChunk? = others.map some := by
  have hone : ∀ {chunks : List String} {declarations : List Declaration},
      chunks.map Declaration.ofChunk? = declarations.map some ↔
        List.Forall₂ (fun chunk declaration => Declaration.ofChunk? chunk = some declaration)
          chunks declarations := by
    intro chunks declarations
    rw [← List.forall₂_eq_eq_eq, List.forall₂_map_left_iff, List.forall₂_map_right_iff]
  obtain ⟨others, hothers, hother⟩ := List.perm_comp_forall₂ hperm.symm (hone.1 hd)
  exact ⟨others, hother.symm, hone.2 hothers⟩

/-- A document with the same chunks in another order is resolved if the first one is. -/
theorem exists_resolve_of_perm {document reordered : String} {settings : Settings}
    (hlax : settings.strictReferences = false)
    (hperm : (settings.chunks document).Perm (settings.chunks reordered)) {registry : Registry}
    (h : resolve document settings = .ok registry) :
    ∃ start declarations others last other, Context.ofSettings settings = .ok start ∧
      declarations.Perm others ∧ start.enterAll declarations = .ok last ∧
      start.enterAll others = .ok other ∧ last.settle.registry = registry ∧
      resolve reordered settings = .ok other.settle.registry := by
  obtain ⟨start, declarations, last, hs, hd, hl, hr⟩ := (resolve_eq_ok_iff_of_lax hlax).1 h
  obtain ⟨others, hothers, ho⟩ := exists_perm_of_ofChunk? hperm hd
  have hnodup := (Context.exists_enterAll_iff hs).1 ⟨last, hl⟩
  obtain ⟨other, hother⟩ :=
    (Context.exists_enterAll_iff hs).2 ((hothers.map _).nodup_iff.1 hnodup)
  exact ⟨start, declarations, others, last, other, hs, hothers, hl, hother, hr,
    (resolve_eq_ok_iff_of_lax hlax).2 ⟨start, others, other, hs, ho, hother, rfl⟩⟩

/-- Where references may stay unresolved, documents with the same chunks in different orders are
resolved together. The models have the same names, and what they have under a name is called the
same, is of the same kind, has the same fields or members in the same order up to what was not
resolved in one of the two, and has the same capabilities. -/
theorem resolve_of_perm {document reordered : String} {settings : Settings}
    (hlax : settings.strictReferences = false)
    (hperm : (settings.chunks document).Perm (settings.chunks reordered)) :
    ((∃ registry, resolve document settings = .ok registry) ↔
      ∃ registry, resolve reordered settings = .ok registry) ∧
    ∀ first second, resolve document settings = .ok first →
      resolve reordered settings = .ok second →
        first.names.Perm second.names ∧
          ∀ name, Option.Rel Entity.Agrees (first.get? name) (second.get? name) := by
  constructor
  · constructor
    · rintro ⟨registry, h⟩
      obtain ⟨-, -, -, -, other, -, -, -, -, -, hr⟩ := exists_resolve_of_perm hlax hperm h
      exact ⟨_, hr⟩
    · rintro ⟨registry, h⟩
      obtain ⟨-, -, -, -, other, -, -, -, -, -, hr⟩ := exists_resolve_of_perm hlax hperm.symm h
      exact ⟨_, hr⟩
  · intro first second hfirst hsecond
    obtain ⟨start, declarations, others, last, other, hs, hothers, hl, ho, rfl, hr⟩ :=
      exists_resolve_of_perm hlax hperm hfirst
    obtain rfl : other.settle.registry = second := Except.ok.inj (hr.symm.trans hsecond)
    have hentered := Context.Entered.of_enterAll hs hl
    have hentered' := Context.Entered.of_enterAll hs ho
    have hindexed := Context.indexed_settle hentered.indexed
    have hindexed' := Context.indexed_settle hentered'.indexed
    have hnames : last.settle.registry.names.Perm other.settle.registry.names := by
      rw [Context.names_settle, Context.names_settle, hentered.names_eq, hentered'.names_eq]
      exact hothers.map _
    refine ⟨hnames, hindexed.rel_get? hindexed' hnames ?_⟩
    intro x hx y hy hname
    exact Context.agrees_of_perm hs hothers hl ho hx hy hname

/-- A record refers to an enum that stands before it in one document and after it in the other. -/
theorem resolve_of_perm_enum :
    ∃ first second,
      resolve "union U = A\n\nenum E \x7b X \x7d type A \x7b e: [E!]! u: U \x7d" {} = .ok first ∧
      resolve "type A \x7b e: [E!]! u: U \x7d union U = A\n\nenum E \x7b X \x7d" {} = .ok second ∧
      first.entities[2]? = some
        { definition := ⟨"A", "A", ""⟩
          capabilities := [⟨"U", ""⟩]
          body := .record
            [ .typed ⟨"e", "e"⟩ (.list (.entity ⟨"E", .enum⟩)) true,
              (Field.typed ⟨"u", "u"⟩ (.entity ⟨"U", .union⟩) false).withBranches
                [⟨"A", .unresolved "A"⟩] ] } ∧
      second.entities[0]? = some
        { definition := ⟨"A", "A", ""⟩
          capabilities := [⟨"U", ""⟩]
          body := .record
            [ .typed ⟨"e", "e"⟩ (.list (.unresolved "E")) true,
              .typed ⟨"u", "u"⟩ (.unresolved "U") false ] } ∧
      ∀ name, Option.Rel Entity.Agrees (first.get? name) (second.get? name) := by
  have hperm : (Settings.chunks {}
        "union U = A\n\nenum E \x7b X \x7d type A \x7b e: [E!]! u: U \x7d").Perm
      (Settings.chunks {}
        "type A \x7b e: [E!]! u: U \x7d union U = A\n\nenum E \x7b X \x7d") := by
    decide +kernel
  have hfirst : resolve
      "union U = A\n\nenum E \x7b X \x7d type A \x7b e: [E!]! u: U \x7d" {} = .ok
        { entities :=
            [ { definition := ⟨"U", "U", ""⟩
                body := .union [⟨"A", .unresolved "A"⟩] },
              { definition := ⟨"E", "E", ""⟩
                body := .enum [.member "X"] },
              { definition := ⟨"A", "A", ""⟩
                capabilities := [⟨"U", ""⟩]
                body := .record
                  [ .typed ⟨"e", "e"⟩ (.list (.entity ⟨"E", .enum⟩)) true,
                    (Field.typed ⟨"u", "u"⟩ (.entity ⟨"U", .union⟩) false).withBranches
                      [⟨"A", .unresolved "A"⟩] ] } ]
          positions := [("A", 2), ("E", 1), ("U", 0)] } :=
    resolve_eq_ok_of_toOption (by decide +kernel)
  have hsecond : resolve
      "type A \x7b e: [E!]! u: U \x7d union U = A\n\nenum E \x7b X \x7d" {} = .ok
        { entities :=
            [ { definition := ⟨"A", "A", ""⟩
                capabilities := [⟨"U", ""⟩]
                body := .record
                  [ .typed ⟨"e", "e"⟩ (.list (.unresolved "E")) true,
                    .typed ⟨"u", "u"⟩ (.unresolved "U") false ] },
              { definition := ⟨"U", "U", ""⟩
                body := .union [⟨"A", .entity ⟨"A", .record⟩⟩] },
              { definition := ⟨"E", "E", ""⟩
                body := .enum [.member "X"] } ]
          positions := [("E", 2), ("U", 1), ("A", 0)] } :=
    resolve_eq_ok_of_toOption (by decide +kernel)
  exact ⟨_, _, hfirst, hsecond, rfl, rfl, ((resolve_of_perm rfl hperm).2 _ _ hfirst hsecond).2⟩

end ModelGraph
