import ModelGraph.Keyed
import ModelGraph.Settings
import ModelGraph.Toml.Statement

/-! # Settings files

A settings file gives some of the settings; the others keep their defaults. No key is given twice,
none is unknown, and each has a value of the form of its setting. -/

namespace ModelGraph

open Toml

/-- How far the table of custom scalars has been given. -/
inductive TableState where
  /-- Not at all. -/
  | absent
  /-- By members of its key, which may go on. -/
  | begun
  /-- As a whole, or under a heading. -/
  | closed
  deriving DecidableEq, Repr

/-- What has been read of a settings file. -/
structure SettingsDraft where
  settings : Settings := {}
  /-- The keys given so far. -/
  given : List String := []
  /-- The custom scalars given so far. -/
  scalars : Keyed String := []
  table : TableState := .absent
  /-- Keys now belong to the table of custom scalars. -/
  inTable : Bool := false
  deriving Repr

namespace SettingsDraft

/-- Add a custom scalar, unless one of the name is given. -/
def addScalar? (draft : SettingsDraft) (name target : String) : Option SettingsDraft :=
  match draft.scalars.get? name with
  | some _ => none
  | none => some { draft with scalars := draft.scalars.alter name fun _ => target }

/-- Change the setting of a key to a value of its form. -/
def change? (settings : Settings) (key : String) (value : Value) : Option Settings :=
  match key, value with
  | "package", .text text => some { settings with package := text }
  | "prefix", .text text => some { settings with affixBefore := text }
  | "postfix", .text text => some { settings with affixAfter := text }
  | "convert_case", .flag flag => some { settings with convertCase := flag }
  | "enums_as_strings", .flag flag => some { settings with enumsAsStrings := flag }
  | "strict_references", .flag flag => some { settings with strictReferences := flag }
  | "root_operations", .texts names => some { settings with rootOperations := names }
  | _, _ => none

/-- Give the setting of a key, unless it is given. -/
def give? (draft : SettingsDraft) (key : String) (value : Value) : Option SettingsDraft :=
  if draft.given.contains key then none
  else
    (change? draft.settings key value).map fun settings =>
      { draft with settings := settings, given := key :: draft.given }

/-- Take one statement into account. -/
def step? (draft : SettingsDraft) : Statement → Option SettingsDraft
  | .heading "scalars" =>
      if draft.table = .absent then some { draft with table := .closed, inTable := true } else none
  | .heading _ => none
  | .assign key member value =>
      if draft.inTable then
        match member, value with
        | none, .text target => draft.addScalar? key target
        | _, _ => none
      else
        match key, member, value with
        | "scalars", none, .table members =>
            if draft.table = .absent then
              members.foldlM (fun draft (name, target) => draft.addScalar? name target)
                { draft with table := .closed }
            else none
        | "scalars", some name, .text target =>
            if draft.table = .closed then none
            else { draft with table := .begun }.addScalar? name target
        | _, none, _ => draft.give? key value
        | _, some _, _ => none

end SettingsDraft

/-- The settings that a file gives, if it can be read as such. -/
def Settings.ofFile? (file : String) : Option Settings := do
  let statements ← statements? file.toList
  let draft ← statements.foldlM SettingsDraft.step? {}
  some { draft.settings with scalars := draft.scalars }

end ModelGraph
