import ModelGraph.Json.Value
import ModelGraph.Registry

/-! # The written form of a model

How entities, fields and type references become JSON values. A member whose value says nothing, such
as an empty list, is left out. -/

namespace ModelGraph

open JsonValue

namespace JsonValue

/-- A member with a text, unless the text is empty. -/
def textUnlessEmpty (key value : String) : List (String × JsonValue) :=
  if value = "" then [] else [(key, text value)]

/-- A member with a list, unless the list is empty. -/
def listUnlessEmpty (key : String) (items : List JsonValue) : List (String × JsonValue) :=
  if items.isEmpty then [] else [(key, list items)]

/-- A member with the flag, if it is set. -/
def flagIfSet (key : String) (value : Bool) : List (String × JsonValue) :=
  if value then [(key, flag true)] else []

end JsonValue

/-- The written form of a reference to an entity. -/
def EntityRef.toJson (ref : EntityRef) : JsonValue :=
  object [("name", text ref.name), ("kind", text ref.kind.name)]

/-- The written form of a type reference. -/
def TypeRef.toJson : TypeRef → JsonValue
  | scalar which => object [("Scalar", text which.tag)]
  | entity ref => object [("Entity", ref.toJson)]
  | unresolved name => object [("Unresolved", text name)]
  | list inner => object [("List", inner.toJson)]

/-- The written form of a definition. -/
def Definition.toJson (definition : Definition) : JsonValue :=
  object
    ([("ident", text definition.ident), ("name", text definition.name)] ++
      textUnlessEmpty "package" definition.package)

/-- The written form of a capability. -/
def Capability.toJson (capability : Capability) : JsonValue :=
  object ([("name", text capability.name)] ++ textUnlessEmpty "package" capability.package)

/-- The written form of a member of a union. -/
def UnionMember.toJson (member : UnionMember) : JsonValue :=
  object [("ident", text member.ident), ("ty", member.type.toJson)]

/-- The written form of a field or of a member of an enum. -/
def Field.toJson (field : Field) : JsonValue :=
  object
    ([("ident", text field.ident), ("name", text field.name),
        ("serialized_name", text field.wireName)] ++
      (field.type.map fun type => ("ty", type.toJson)).toList ++
      flagIfSet "required" field.required ++
      flagIfSet "union_typed" field.unionTyped ++
      listUnlessEmpty "union_branches" (field.branches.map UnionMember.toJson))

/-- What the members of a body are called and how they are written. -/
def Body.itemsJson : Body → String × List JsonValue
  | record fields | input fields => ("fields", fields.map Field.toJson)
  | enum members => ("members", members.map Field.toJson)
  | union members => ("members", members.map UnionMember.toJson)

/-- The written form of a body, its kind first. -/
def Body.toJson (body : Body) : JsonValue :=
  object [("kind", text body.kind.name), (body.itemsJson.1, list body.itemsJson.2)]

/-- The written form of an entity. -/
def Entity.toJson (entity : Entity) : JsonValue :=
  object
    ([("def", entity.definition.toJson)] ++
      listUnlessEmpty "capabilities" (entity.capabilities.map Capability.toJson) ++
      [("body", entity.body.toJson)])

/-- The written form of a registry: its entities in order. -/
def Registry.toJson (registry : Registry) : JsonValue :=
  list (registry.entities.map Entity.toJson)

end ModelGraph
