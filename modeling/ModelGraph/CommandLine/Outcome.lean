import ModelGraph.CommandLine.Arguments
import ModelGraph.CommandLine.Log
import ModelGraph.Json.Model

/-! # Outcome of a command

What a command prints, logs and writes, given the texts of the files that it reads. -/

namespace ModelGraph.CommandLine

/-- A file that a command writes, and how many entities are in it. -/
structure OutputFile where
  path : String
  text : String
  entities : Nat
  deriving Repr

/-- What a command does. -/
structure Outcome where
  exitCode : Nat
  log : List LogLine := []
  printed : String := ""
  output : Option OutputFile := none
  deriving Repr

/-- A text without the blanks at its end. -/
def withoutEnd (text : String) : String :=
  String.ofList (Text.trimEnd text.toList)

/-- What a stop does. Nothing but the version is promised about what is printed. -/
def Outcome.ofStop : Stop → Outcome
  | .usage => { exitCode := 2 }
  | .help =>
      { exitCode := 0
        printed := "Usage: gqlmodel [-v] resolve|check <SCHEMA> [OPTIONS]\n" }
  | .version =>
      { exitCode := 0
        printed := "gqlmodel 0.4.0\n" }

/-- The line about a resolved schema. -/
def resolvedLine (path : String) (registry : Registry) : LogLine :=
  ⟨.info, "resolved schema path=" ++ path ++ " entities=" ++ toString registry.size⟩

/-- Write the model, as the request asks. -/
def writeModel (request : Request) (log : List LogLine) (registry : Registry) : Outcome :=
  let text :=
    if request.has .compact then registry.toJson.compact else registry.toJson.indented
  match request.value? .output with
  | some path =>
      { exitCode := 0
        log := log
        output := some ⟨path, text, registry.size⟩ }
  | none =>
      { exitCode := 0
        log := log
        printed := text ++ "\n" }

/-- The line about an unresolved reference. -/
def referenceLine (reference : UnresolvedReference) : LogLine :=
  .say .warn
    (reference.status.name ++ " reference " ++ reference.owner ++ "." ++ reference.member ++
      " -> " ++ reference.target)

/-- Report what is wrong with the model. -/
def reportModel (log : List LogLine) (registry : Registry) : Outcome :=
  let references := registry.unresolvedReferences.map referenceLine
  match registry.check with
  | .ok () =>
      { exitCode := 0
        log := log ++ references ++
          [.say .info (toString registry.size ++ " entities resolved, no problems found")] }
  | .error problems =>
      { exitCode := 1
        log := log ++ references ++
          [.say .error
            (toString problems.count ++ " problem(s) found:\n" ++ withoutEnd problems.text)] }

/-- Do what a request asks, given the texts of its settings file and its schema file. The settings
are looked at first. -/
def Request.outcome (request : Request) (settingsText : Option FileText) (schemaText : FileText) :
    Outcome :=
  let base :=
    match request.settingsFile, settingsText with
    | some path, some text => Settings.ofFileText path text
    | _, _ => .ok {}
  match base with
  | .error error =>
      { exitCode := 2
        log := [.say .error ("Invalid configuration: " ++ error.message)] }
  | .ok base =>
      let run := runFile (request.settings base) request.schema schemaText
      let log := eventLines request.verbosity run.events
      match run.outcome with
      | .error error =>
          { exitCode := 1
            log := log ++ [.say .error (withoutEnd error.message)] }
      | .ok registry =>
          let log := log ++ [resolvedLine request.schema registry]
          match request.command with
          | .resolve => writeModel request log registry
          | .check => reportModel log registry

/-- The outcome once its file was written, or could not be. -/
def Outcome.afterWriting (outcome : Outcome) (file : OutputFile)
    (result : Except FileFault Unit) : Outcome :=
  match result with
  | .ok () =>
      { outcome with
        log := outcome.log ++
          [.say .info ("Wrote " ++ toString file.entities ++ " entities to " ++ file.path)] }
  | .error fault =>
      { outcome with
        exitCode := 1
        log := outcome.log ++
          [.say .error ("Failed to write " ++ file.path ++ ": " ++ fault.message)] }

end ModelGraph.CommandLine
