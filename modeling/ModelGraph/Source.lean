import ModelGraph.Resolution.Run
import ModelGraph.Settings.File

/-! # Sources

Schemas and settings that come from files, and what may be wrong with a file before its text is
looked at. -/

namespace ModelGraph

/-- Why a file cannot be read or written. -/
inductive FileFault where
  /-- There is no such file, or no directory to hold it. -/
  | missing
  /-- The bytes are no text in UTF-8. -/
  | notText
  /-- Something else, as the system puts it. -/
  | other (description : String)
  deriving DecidableEq, Repr

/-- What the system says about a fault. -/
def FileFault.message : FileFault → String
  | missing => "No such file or directory (os error 2)"
  | notText => "stream did not contain valid UTF-8"
  | other description => description

/-- The text of a file, as far as it can be had. -/
abbrev FileText := Except FileFault String

/-- The text that bytes are in UTF-8. -/
def FileText.ofBytes (bytes : ByteArray) : FileText :=
  match String.fromUTF8? bytes with
  | some text => .ok text
  | none => .error .notText

/-- Why a schema could not be resolved from files. -/
inductive SourceError where
  | schemaUnreadable (path : String) (fault : FileFault)
  | settingsUnreadable (path : String) (fault : FileFault)
  | settingsMalformed
  | resolution (error : ResolutionError)
  deriving Repr

/-- The message to the user. The cause of malformed settings is not told. -/
def SourceError.message : SourceError → String
  | schemaUnreadable path fault => "failed to read schema '" ++ path ++ "': " ++ fault.message
  | settingsUnreadable path fault => "failed to read config '" ++ path ++ "': " ++ fault.message
  | settingsMalformed => "invalid config:"
  | resolution error => error.message

/-- The settings of a file. -/
def Settings.ofFileText (path : String) (file : FileText) : Except SourceError Settings :=
  match file with
  | .error fault => .error (.settingsUnreadable path fault)
  | .ok text =>
      match Settings.ofFile? text with
      | some settings => .ok settings
      | none => .error .settingsMalformed

/-- A run whose schema comes from a file. -/
structure SourceRun where
  events : List Event
  outcome : Except SourceError Registry

/-- Resolve the schema of a file. -/
def runFile (settings : Settings) (path : String) (file : FileText) : SourceRun :=
  match file with
  | .error fault => ⟨[], .error (.schemaUnreadable path fault)⟩
  | .ok document =>
      let run := (Resolver.ofSettings settings).run document
      ⟨run.events, run.outcome.mapError .resolution⟩

/-- Resolve the schema of a file with the settings of another, or with the defaults. The settings
are read first. -/
def resolveFiles (settingsFile : Option (String × FileText)) (schemaPath : String)
    (schemaFile : FileText) : Except SourceError Registry := do
  let settings ←
    match settingsFile with
    | some (path, file) => Settings.ofFileText path file
    | none => .ok {}
  (runFile settings schemaPath schemaFile).outcome

end ModelGraph
