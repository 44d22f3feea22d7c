import ModelGraph.Settings

/-! # Command line arguments

Two commands take a schema file and options. Long options have their value after an equals sign or
as the next argument; short ones may be written together, the last with its value. Every option but
the one for more log lines is given at most once. -/

namespace ModelGraph.CommandLine

/-- What to do with a schema. -/
inductive Command where
  /-- Write the model as JSON. -/
  | resolve
  /-- Report what is wrong with the model. -/
  | check
  deriving DecidableEq, Repr

/-- The command of a word. -/
def Command.ofWord? : String → Option Command
  | "resolve" => some .resolve
  | "check" => some .check
  | _ => none

/-- Options that take a value. -/
inductive ValueOption where
  | settingsFile
  | package
  | affixBefore
  | affixAfter
  | output
  deriving DecidableEq, Repr

/-- Options that are given or not. -/
inductive Switch where
  | keepNames
  | enumsAsStrings
  | strict
  | compact
  deriving DecidableEq, Repr

/-- The option with a value of a long name. -/
def ValueOption.ofName? (command : Command) : String → Option ValueOption
  | "config" => some .settingsFile
  | "package" => some .package
  | "prefix" => some .affixBefore
  | "postfix" => some .affixAfter
  | "output" => if command = .resolve then some .output else none
  | _ => none

/-- The option with a value of a short name. -/
def ValueOption.ofLetter? (command : Command) : Char → Option ValueOption
  | 'c' => some .settingsFile
  | 'o' => if command = .resolve then some .output else none
  | _ => none

/-- Paths of files must not be empty. -/
def ValueOption.isPath : ValueOption → Bool
  | settingsFile | output => true
  | package | affixBefore | affixAfter => false

/-- The switch of a long name. -/
def Switch.ofName? (command : Command) : String → Option Switch
  | "no-convert-case" => some .keepNames
  | "enums-as-strings" => some .enumsAsStrings
  | "strict" => some .strict
  | "compact" => if command = .resolve then some .compact else none
  | _ => none

/-- The arguments of a command that were given. -/
structure Arguments where
  schema : Option String := none
  values : List (ValueOption × String) := []
  switches : List Switch := []
  verbosity : Nat := 0
  deriving Repr

/-- Why no command is run. -/
inductive Stop where
  /-- The arguments fit no command. -/
  | usage
  /-- Help was asked for. -/
  | help
  /-- The version was asked for. -/
  | version
  deriving DecidableEq, Repr

namespace Arguments

/-- Give a value. -/
def give (arguments : Arguments) (option : ValueOption) (value : String) :
    Except Stop Arguments :=
  if (arguments.values.lookup option).isSome || (option.isPath && value = "") then .error .usage
  else .ok { arguments with values := (option, value) :: arguments.values }

/-- Give a switch. -/
def turnOn (arguments : Arguments) (switch : Switch) : Except Stop Arguments :=
  if arguments.switches.contains switch then .error .usage
  else .ok { arguments with switches := switch :: arguments.switches }

/-- Give the schema file. -/
def position (arguments : Arguments) (path : String) : Except Stop Arguments :=
  if arguments.schema.isSome || path = "" then .error .usage
  else .ok { arguments with schema := some path }

/-- Ask for more log lines. -/
def moreLines (arguments : Arguments) : Arguments :=
  { arguments with verbosity := arguments.verbosity + 1 }

end Arguments

/-- The argument cannot be the value of the option before it. -/
def looksLikeOption (argument : String) : Bool :=
  match argument.toList with
  | '-' :: _ :: _ => true
  | _ => false

/-- The name of a long option, and the value after an equals sign. -/
def nameAndValue (option : List Char) : String × Option String :=
  let name := String.ofList (option.takeWhile (· ≠ '='))
  match option.dropWhile (· ≠ '=') with
  | _ :: value => (name, some (String.ofList value))
  | [] => (name, none)

/-- Read short options written together. The last may still wait for its value. -/
def readLetters (command : Command) (arguments : Arguments) :
    List Char → Except Stop (Arguments × Option ValueOption)
  | [] => .ok (arguments, none)
  | 'v' :: rest => readLetters command arguments.moreLines rest
  | 'h' :: _ => .error .help
  | letter :: rest =>
      match ValueOption.ofLetter? command letter, rest with
      | none, _ => .error .usage
      | some option, [] => .ok (arguments, some option)
      | some option, '=' :: value =>
          (arguments.give option (String.ofList value)).map fun given => (given, none)
      | some option, value =>
          (arguments.give option (String.ofList value)).map fun given => (given, none)

/-- Read a long option. It may still wait for its value. -/
def readLong (command : Command) (arguments : Arguments) (option : List Char) :
    Except Stop (Arguments × Option ValueOption) :=
  match nameAndValue option with
  | ("help", none) => .error .help
  | ("verbose", none) => .ok (arguments.moreLines, none)
  | (name, none) =>
      match Switch.ofName? command name, ValueOption.ofName? command name with
      | some switch, _ => (arguments.turnOn switch).map fun given => (given, none)
      | none, some option => .ok (arguments, some option)
      | none, none => .error .usage
  | (name, some value) =>
      match ValueOption.ofName? command name with
      | some option => (arguments.give option value).map fun given => (given, none)
      | none => .error .usage

/-- Read the arguments of a command. After two hyphens there are no more options. -/
def readArguments (command : Command) (arguments : Arguments) :
    List String → Except Stop Arguments
  | [] => .ok arguments
  | argument :: rest =>
      let read? : Option (Except Stop (Arguments × Option ValueOption)) :=
        match argument.toList with
        | ['-', '-'] => none
        | '-' :: '-' :: option => some (readLong command arguments option)
        | '-' :: letter :: letters => some (readLetters command arguments (letter :: letters))
        | _ => some ((arguments.position argument).map fun given => (given, none))
      match read?, rest with
      | none, paths => paths.foldlM Arguments.position arguments
      | some (.error stop), _ => .error stop
      | some (.ok (given, none)), rest => readArguments command given rest
      | some (.ok (_, some _)), [] => .error .usage
      | some (.ok (given, some option)), value :: more =>
          if looksLikeOption value then .error .usage
          else
            match given.give option value with
            | .ok given => readArguments command given more
            | .error stop => .error stop

/-- A command with all that it needs. -/
structure Request where
  command : Command
  schema : String
  settingsFile : Option String
  values : List (ValueOption × String)
  switches : List Switch
  verbosity : Nat
  deriving Repr

/-- Complete the arguments of a command. Without an option for it, the settings file is the one that
the environment names, and the number of log lines is as asked for before the command. -/
def Arguments.complete (arguments : Arguments) (command : Command) (verbosity : Nat)
    (environment : Option String) : Except Stop Request :=
  let settingsFile := (arguments.values.lookup .settingsFile).or environment
  match arguments.schema with
  | none => .error .usage
  | some schema =>
      if settingsFile = some "" then .error .usage
      else
        .ok
          { command := command
            schema := schema
            settingsFile := settingsFile
            values := arguments.values
            switches := arguments.switches
            verbosity := if arguments.verbosity = 0 then verbosity else arguments.verbosity }

/-- Read the letters of options before the command. All of them ask for more log lines, or one stops
the program. -/
def readTopLetters : List Char → Except Stop Nat
  | [] => .ok 0
  | 'v' :: rest => (readTopLetters rest).map (· + 1)
  | 'h' :: _ => .error .help
  | 'V' :: _ => .error .version
  | _ :: _ => .error .usage

/-- What help may be asked about: the program, one of its commands, or help itself. -/
def isHelpTopic : List String → Bool
  | [] => true
  | [word] => word == "help" || (Command.ofWord? word).isSome
  | _ => false

/-- Read all arguments of the program, after `verbosity` requests for more log lines. -/
def readRequest (environment : Option String) (verbosity : Nat) :
    List String → Except Stop Request
  | [] => .error .usage
  | argument :: rest =>
      match argument.toList with
      | ['-', '-'] => .error .usage
      | '-' :: '-' :: option =>
          match nameAndValue option with
          | ("help", none) => .error .help
          | ("version", none) => .error .version
          | ("verbose", none) => readRequest environment (verbosity + 1) rest
          | _ => .error .usage
      | '-' :: letter :: letters =>
          match readTopLetters (letter :: letters) with
          | .ok more => readRequest environment (verbosity + more) rest
          | .error stop => .error stop
      | _ =>
          match Command.ofWord? argument with
          | some command =>
              match readArguments command {} rest with
              | .ok arguments => arguments.complete command verbosity environment
              | .error stop => .error stop
          | none =>
              if argument = "help" && isHelpTopic rest then .error .help else .error .usage

namespace Request

/-- The value of an option. -/
def value? (request : Request) (option : ValueOption) : Option String :=
  request.values.lookup option

/-- The switch is given. -/
def has (request : Request) (switch : Switch) : Bool :=
  request.switches.contains switch

/-- The settings of the request: those of its file, changed by its options. -/
def settings (request : Request) (base : Settings) : Settings :=
  { base with
    package := (request.value? .package).getD base.package
    affixBefore := (request.value? .affixBefore).getD base.affixBefore
    affixAfter := (request.value? .affixAfter).getD base.affixAfter
    convertCase := base.convertCase && !request.has .keepNames
    enumsAsStrings := base.enumsAsStrings || request.has .enumsAsStrings
    strictReferences := base.strictReferences || request.has .strict }

end Request

end ModelGraph.CommandLine
