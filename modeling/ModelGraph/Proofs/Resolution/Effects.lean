import ModelGraph.Proofs.Capability.Session
import ModelGraph.Proofs.Resolution.NeverAttached

/-! # What a parser does to a context

A context is reached from settings by any calls. There no two of the parsers of all kinds accept the
same text, a parser succeeds on what it accepts and on nothing else, and apart from the ledgers of
the names that the declaration is about it leaves the context as it is (`parse_of_reachable`). -/

namespace ModelGraph

/-- Keywords begin with different characters. -/
theorem Kind.eq_of_head?_keyword {a b : Kind}
    (h : a.keyword.toList.head? = b.keyword.toList.head?) : a = b := by
  revert h
  cases a <;> cases b <;> decide

namespace Declaration

/-- What has a heading begins with the keyword. -/
theorem head?_of_heading? {kind : Kind} {text : List Char} {heading : String × List Char}
    (h : heading? kind.keyword text = some heading) :
    text.head? = kind.keyword.toList.head? := by
  have hne : kind.keyword.toList ≠ [] := by cases kind <;> decide
  simp only [heading?] at h
  split at h
  · next hword =>
    have htake := of_decide_eq_true (Bool.and_eq_true_iff.1 hword).1
    rw [← htake, List.head?_take, if_neg (by simpa using hne)]
  · cases h

/-- No text is read as declarations of two kinds. -/
theorem kind_unique {a b : Kind} {text : String} (ha : (read? a text).isSome = true)
    (hb : (read? b text).isSome = true) : a = b := by
  have hhead : ∀ {kind : Kind}, (read? kind text).isSome = true →
      (normalForm text.toList).head? = kind.keyword.toList.head? := by
    intro kind h
    obtain ⟨declaration, hread⟩ := Option.isSome_iff_exists.1 h
    obtain ⟨heading, hheading, -⟩ := Option.bind_eq_some_iff.1 hread
    exact head?_of_heading? hheading
  exact Kind.eq_of_head?_keyword ((hhead ha).symm.trans (hhead hb))

end Declaration

namespace Parser

theorem exists_kind_of_mem_builtin {parser : Parser} (h : parser ∈ builtin) :
    ∃ kind, parser = ofKind kind := by
  simp only [builtin, List.mem_cons, List.not_mem_nil, or_false] at h
  rcases h with rfl | rfl | rfl | rfl <;> exact ⟨_, rfl⟩

/-- No two of the parsers of all kinds accept the same text. -/
theorem pairwise_builtin (text : String) :
    builtin.Pairwise fun first second =>
      ¬ (first.accepts text = true ∧ second.accepts text = true) := by
  have hkinds : [Kind.record, .input, .enum, .union].Pairwise (· ≠ ·) := by decide
  have hbuiltin : builtin = [Kind.record, .input, .enum, .union].map ofKind := rfl
  rw [hbuiltin, List.pairwise_map]
  exact hkinds.imp fun hne h => hne (Declaration.kind_unique h.1 h.2)

end Parser

namespace Context

/-- The contexts that calls lead to. A call parses a text, attaches or registers an entity, asks
something of the store, or settles the context. -/
inductive Reachable : Context → Prop
  | start {settings : Settings} {context : Context} (h : ofSettings settings = .ok context) :
      Reachable context
  | parse {context : Context} (h : Reachable context) (kind : Kind) (text : String) :
      Reachable ((Parser.ofKind kind).parse text context).2
  | attach {context : Context} (h : Reachable context) (entity : Entity) :
      Reachable (context.attachPending entity).2
  | register {context next : Context} (h : Reachable context) {entity : Entity}
      (hr : context.register entity = .ok next) : Reachable next
  | ask {context : Context} (h : Reachable context) (call : CapabilityStore.Call) :
      Reachable { context with store := (context.store.answer call).2 }
  | settle {context : Context} (h : Reachable context) : Reachable context.settle

/-- The store of a context that calls lead to is sound. The induction is on the calls. -/
theorem Reachable.sound {context : Context} (h : context.Reachable) : context.store.Sound := by
  induction h with
  | start h =>
      obtain ⟨scalars, -, rfl⟩ := ofSettings_eq_ok_iff.1 h
      exact CapabilityStore.sound_empty
  | @parse context _ kind text ih =>
      cases hread : Declaration.read? kind text with
      | none =>
          rw [context.parse_of_read?_eq_none hread]
          exact ih
      | some declaration =>
          rw [context.parse_of_read?_eq_some hread]
          exact (storeAfter_spec ih declaration "").1
  | attach _ entity ih => exact ih.deliver entity.name
  | @register context next _ entity hr ih =>
      rw [Context.register] at hr
      cases hregistry : context.registry.register entity with
      | error error => rw [hregistry] at hr; cases hr
      | ok registry => rw [hregistry] at hr; cases hr; exact ih
  | ask _ call ih => exact ih.answer call
  | settle _ ih => exact sound_settle ih

/-- What an entity that was parsed did to the store. A record or input took all that is pending for
its own name, an enum did nothing, and a union announced itself once for each of its members, to the
name that the member resolves to. -/
def Affects (context : Context) (entity : Entity) (after : CapabilityStore) : Prop :=
  match entity.body with
  | .record _ | .input _ =>
      after = (context.store.deliver entity.name).2 ∧
        ∀ name, after.announced name = context.store.announced name ∧
          after.delivered name =
            if name = entity.name then (context.store.announced name).length
            else context.store.delivered name
  | .enum _ => after = context.store
  | .union members =>
      let capability : Capability := ⟨entity.name, context.settings.package⟩
      after = members.foldl
          (fun store member => store.announce (context.typeName member.ident) capability)
          context.store ∧
        ∀ name, after.announced name = context.store.announced name ++
            (members.filter fun member => context.typeName member.ident == name).map
              (fun _ => capability) ∧
          after.delivered name = context.store.delivered name

theorem affects_storeAfter {context : Context} (h : context.store.Sound)
    (declaration : Declaration) :
    context.Affects (context.entityOf declaration) (context.storeAfter declaration) := by
  have hspec := storeAfter_spec h declaration
  rw [Affects, body_entityOf, name_entityOf]
  cases declaration with
  | record ident fields | input ident fields =>
      refine ⟨rfl, fun name => ?_⟩
      obtain ⟨-, hannounced, hdelivered⟩ := hspec name
      refine ⟨by simpa [Declaration.announcements] using hannounced, ?_⟩
      simpa [bodyOf, Body.acceptsCapabilities] using hdelivered
  | enum ident members => rfl
  | union ident members =>
      refine ⟨by rw [List.foldl_map]; rfl, fun name => ?_⟩
      obtain ⟨-, hannounced, hdelivered⟩ := hspec name
      refine ⟨?_, by simpa [bodyOf, Body.acceptsCapabilities] using hdelivered⟩
      rw [hannounced, List.filter_map, List.map_map]
      rfl

end Context

/-- In a context that calls lead to, no two of the parsers of all kinds accept a text. Each gives an
entity, of its own kind, exactly for the texts that it accepts. If it refuses, the error names its
kind and the text as given, and the context is as before; if not, all that changes is the store. -/
theorem parse_of_reachable {context : Context} (h : context.Reachable) (text : String) :
    (Parser.builtin.Pairwise fun first second =>
      ¬ (first.accepts text = true ∧ second.accepts text = true)) ∧
    ∀ parser ∈ Parser.builtin,
      ((∃ entity next, parser.parse text context = (.ok entity, next)) ↔
        parser.accepts text = true) ∧
      (∀ error next, parser.parse text context = (.error error, next) →
        error = .unsupportedEntity parser.kind text ∧ next = context) ∧
      ∀ entity next, parser.parse text context = (.ok entity, next) →
        entity.kind = parser.kind ∧ next = { context with store := next.store } ∧
          context.Affects entity next.store := by
  refine ⟨Parser.pairwise_builtin text, fun parser hparser => ?_⟩
  obtain ⟨kind, rfl⟩ := Parser.exists_kind_of_mem_builtin hparser
  have haccepts : (Parser.ofKind kind).accepts text = (Declaration.read? kind text).isSome := rfl
  cases hread : Declaration.read? kind text with
  | none =>
      rw [context.parse_of_read?_eq_none hread, haccepts, hread]
      refine ⟨by simp, ?_, by simp⟩
      rintro error next ⟨⟩
      exact ⟨rfl, rfl⟩
  | some declaration =>
      rw [context.parse_of_read?_eq_some hread, haccepts, hread]
      refine ⟨by simp, by simp, ?_⟩
      rintro entity next ⟨⟩
      refine ⟨?_, rfl, Context.affects_storeAfter h.sound declaration⟩
      rw [Entity.kind, context.body_entityOf, context.kind_bodyOf,
        Declaration.kind_of_read? hread]
      rfl

/-- A record takes the capability that a union gave it twice. -/
theorem parse_of_reachable_listed :
    ∃ context : Context, context.Reachable ∧
      context.store.announced "A" = [⟨"U", ""⟩, ⟨"U", ""⟩] ∧
      ∃ entity next, (Parser.ofKind .record).parse "type a \x7b id: ID \x7d" context =
          (.ok entity, next) ∧
        entity.kind = .record ∧ next = { context with store := next.store } ∧
          context.Affects entity next.store := by
  have h : Context.Reachable
      ((Parser.ofKind .union).parse "union U = A | a" { settings := {} }).2 :=
    .parse (@Context.Reachable.start {} _ rfl) .union "union U = A | a"
  obtain ⟨haccepts, -, hok⟩ :=
    (parse_of_reachable h "type a \x7b id: ID \x7d").2 (.ofKind .record) (.head _)
  obtain ⟨entity, next, hparse⟩ := haccepts.2 (by decide +kernel)
  exact ⟨_, h, by decide +kernel, entity, next, hparse, hok entity next hparse⟩

end ModelGraph
