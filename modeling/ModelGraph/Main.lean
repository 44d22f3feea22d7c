import ModelGraph.CommandLine.Outcome

/-! # The program

Reads the files that the command line names, and prints, logs and writes what the command makes of
them. -/

namespace ModelGraph.CommandLine

/-- The fault behind an error of the system. -/
def faultOf : IO.Error → FileFault
  | .noFileOrDirectory _ _ _ => .missing
  | error => .other (toString error)

/-- Read a file as text. -/
def readText (path : String) : IO FileText := do
  match ← (IO.FS.readBinFile path).toBaseIO with
  | .ok bytes => return FileText.ofBytes bytes
  | .error error => return .error (faultOf error)

/-- Write a file. -/
def writeText (file : OutputFile) : IO (Except FileFault Unit) := do
  match ← (IO.FS.writeFile file.path file.text).toBaseIO with
  | .ok () => return .ok ()
  | .error error => return .error (faultOf error)

/-- Read the files of a request and do what it asks. -/
def perform (request : Request) : IO Outcome := do
  let settingsText ← request.settingsFile.mapM readText
  let outcome := request.outcome settingsText (← readText request.schema)
  match outcome.output with
  | some file => return outcome.afterWriting file (← writeText file)
  | none => return outcome

end ModelGraph.CommandLine

open ModelGraph.CommandLine in
def main (arguments : List String) : IO UInt32 := do
  let environment ← IO.getEnv "GQLMODEL_CONFIG"
  let outcome ←
    match readRequest environment 0 arguments with
    | .ok request => perform request
    | .error stop => pure (Outcome.ofStop stop)
  for line in outcome.log do
    IO.eprintln (line.level.name ++ " " ++ line.text)
  IO.print outcome.printed
  return outcome.exitCode.toUInt32
