import ModelGraph.Settings
import ModelGraph.Text.Casing

/-! # Naming policy

Every declared name becomes a resolved name by the same rules, where it is declared as well as where
it is referred to. Type names are converted if they are not already in the convention, and then get
the affixes. Field names are converted if they have separate words; the name on the wire is always
the declared one. -/

namespace ModelGraph

open Text

/-- The resolved name of a field and its name on the wire. -/
structure FieldName where
  name : String
  wireName : String
  deriving DecidableEq, Repr

/-- The rules by which declared names are resolved. -/
structure NamingPolicy where
  affixBefore : String := ""
  affixAfter : String := ""
  convertCase : Bool := true
  deriving DecidableEq, Repr

/-- The naming policy that the settings ask for. -/
def Settings.naming (settings : Settings) : NamingPolicy where
  affixBefore := settings.affixBefore
  affixAfter := settings.affixAfter
  convertCase := settings.convertCase

namespace NamingPolicy

/-- A type name is outside the convention if it has an underscore or begins in lower case. Others
are left alone, so that acronyms survive. -/
def outsideConvention (name : List Char) : Bool :=
  name.contains '_' || (name.head?.map Char.isLower).getD false

/-- A type name before the affixes. -/
def baseName (policy : NamingPolicy) (declared : List Char) : List Char :=
  if policy.convertCase && outsideConvention declared then pascal declared else declared

/-- The resolved name of a type. -/
def typeName (policy : NamingPolicy) (declared : String) : String :=
  policy.affixBefore ++ String.ofList (policy.baseName declared.toList) ++ policy.affixAfter

/-- The resolved name of a field, without its name on the wire. Leading underscores stay. -/
def memberName (policy : NamingPolicy) (declared : List Char) : List Char :=
  let rest := declared.dropWhile (· == '_')
  if policy.convertCase && rest.contains '_' then
    declared.takeWhile (· == '_') ++ camel rest
  else declared

/-- The resolved name of a field. -/
def fieldName (policy : NamingPolicy) (declared : String) : FieldName where
  name := String.ofList (policy.memberName declared.toList)
  wireName := declared

@[simp] theorem wireName_fieldName (policy : NamingPolicy) (declared : String) :
    (policy.fieldName declared).wireName = declared := rfl

end NamingPolicy

end ModelGraph
