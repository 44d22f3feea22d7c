import ModelGraph.Source
import ModelGraph.Text.Quoted

/-! # Log lines

What a command tells about its work, line by line, and how much of it is shown. That is asked for on
the command line; filters of the environment, and what stands around the level and the text of a
line, are not described. -/

namespace ModelGraph.CommandLine

open Text

/-- How much a line matters. -/
inductive Level where
  | error
  | warn
  | info
  | debug
  | trace
  deriving DecidableEq, Repr

namespace Level

/-- The name of the level. -/
def name : Level → String
  | error => "ERROR"
  | warn => "WARN"
  | info => "INFO"
  | debug => "DEBUG"
  | trace => "TRACE"

/-- How often more lines have to be asked for before lines of the level are shown. -/
def threshold : Level → Nat
  | error | warn | info => 0
  | debug => 1
  | trace => 2

end Level

/-- One line of the log. -/
structure LogLine where
  level : Level
  text : String
  deriving DecidableEq, Repr

/-- A message as the log shows it: characters that steer a terminal are escaped. -/
def shownMessage (message : String) : String :=
  String.ofList (message.toList.flatMap fun c =>
    if c = '\x1b' then ['\\', 'x', '1', 'b']
    else if c = '\x07' then ['\\', 'x', '0', '7']
    else if c = '\x08' then ['\\', 'x', '0', '8']
    else if c = '\x0c' then ['\\', 'x', '0', 'c']
    else if c = '\x7f' then ['\\', 'x', '7', 'f']
    else if 0x80 ≤ c.toNat && c.toNat ≤ 0x9F then
      '\\' :: 'u' :: '\x7b' :: (hexDigits c.toNat ++ ['\x7d'])
    else [c])

/-- A line with a message. -/
def LogLine.say (level : Level) (message : String) : LogLine :=
  ⟨level, shownMessage message⟩

/-- The line of an event. -/
def LogLine.ofEvent : Event → LogLine
  | .dropped (.nonEntity keyword name) =>
      ⟨.trace, "dropping non-entity declaration keyword=" ++ quoted keyword ++ " name=" ++
        quoted name⟩
  | .dropped (.rootOperation name) =>
      ⟨.trace, "dropping root operation declaration name=" ++ quoted name⟩
  | .resolved kind name capabilities =>
      ⟨.debug, "resolved declaration kind=" ++ kind.name ++ " name=" ++ quoted name ++
        " capabilities=" ++ toString capabilities⟩
  | .neverAttached name =>
      ⟨.warn, "capabilities never attached; target is not a record or input name=" ++ quoted name⟩

/-- The lines of events, as far as they are shown. When more lines are asked for, each tells that it
belongs to a resolution. -/
def eventLines (verbosity : Nat) (events : List Event) : List LogLine :=
  ((events.map LogLine.ofEvent).filter fun line => line.level.threshold ≤ verbosity).map
    fun line => if verbosity = 0 then line else { line with text := "resolve: " ++ line.text }

end ModelGraph.CommandLine
