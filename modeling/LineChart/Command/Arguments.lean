import LineChart.Command.Options

/-!
# Arguments of the command line

The first argument names a command and the others are its options. A value stands behind its option
or is attached to it by an equals sign.

* `CommandName` : the commands by name, with the options that each one knows.
* `Arguments.Reading` : what has been read of the options so far.
* `Command.ofArguments` : the command that some arguments ask for.
-/

namespace LineChart

inductive CommandName where
  | bandwidth
  | requestTime
  | render
deriving DecidableEq

namespace CommandName

def all : List CommandName := [bandwidth, requestTime, render]

def name : CommandName → String
  | bandwidth => "bandwidth"
  | requestTime => "request-time"
  | render => "render"

def ofName? (name : String) : Option CommandName := all.find? fun c => c.name = name

/-- The options of a command. -/
def options : CommandName → List CommandOption
  | bandwidth => [.input, .output, .sets, .dpi, .title, .noShow]
  | requestTime => [.input, .output, .label, .byQueue, .queueWeights, .dpi, .title, .noShow]
  | render => [.figure, .input, .output, .dpi, .title, .noShow]

/-- The option of a command by its name. -/
def option? (c : CommandName) (name : String) : Option CommandOption :=
  c.options.find? fun option => option.name = name

end CommandName

namespace Arguments

/-- What an argument is by its first characters. -/
inductive Shape where
  /-- Two hyphens alone: no options follow. -/
  | endOfOptions
  /-- A name behind two hyphens, perhaps with a value behind an equals sign. -/
  | long (name : String) (value : Option String)
  /-- A letter behind one hyphen. -/
  | short (letter : Char)
  | plain

/-- The name in front of the first equals sign, and the value behind it. -/
def splitValue : List Char → List Char × Option (List Char)
  | [] => ([], none)
  | c :: rest =>
    if c = '=' then ([], some rest)
    else
      let (name, value) := splitValue rest
      (c :: name, value)

/-- The shape of an argument. A hyphen alone is plain. -/
def shape (argument : String) : Shape :=
  match argument.toList with
  | ['-', '-'] => .endOfOptions
  | '-' :: '-' :: rest =>
    let (name, value) := splitValue rest
    .long (.ofList name) (value.map .ofList)
  | '-' :: letter :: _ => .short letter
  | _ => .plain

/-- The long names and the letters that ask for help and for the version. -/
def helpName : String := "help"
def helpLetter : Char := 'h'
def versionName : String := "version"
def versionLetter : Char := 'V'

/-- What has been read of the options. The value of the last option is set only when the next one
begins, so that an error in an argument behind it comes first. -/
structure Reading where
  settings : Settings
  /-- The last option, if it takes a value from the arguments, and that value. -/
  pending : Option (CommandOption × Option String)

namespace Reading

def start : Reading := ⟨{}, none⟩

/-- The settings with the last option. -/
def settle (r : Reading) : Except UsageError Settings :=
  match r.pending with
  | none => .ok r.settings
  | some (_, none) => .error .missingValue
  | some (option, some value) => r.settings.set option value

/-- A question that is answered instead of running a command. An error in front of it comes
first. -/
def ask (r : Reading) (question : UsageError) : UsageError :=
  match r.settle with
  | .error e => e
  | .ok _ => question

/-- One option by its name. -/
def stepLong (c : CommandName) (r : Reading) (name : String) (value : Option String) :
    Except UsageError Reading :=
  match c.option? name with
  | some option =>
    if option.isSwitch then
      match value with
      | some _ => .error .surplusValue
      | none => (r.settle.bind fun s => s.turnOn option).map fun s => ⟨s, none⟩
    else
      match value with
      | some value => (r.settle.bind fun s => s.set option value).map fun s => ⟨s, none⟩
      | none => r.settle.map fun s => ⟨s, some (option, none)⟩
  | none =>
    if name ≠ helpName then .error .unknownArgument
    else if value.isSome then .error .surplusValue
    else .error (r.ask .help)

/-- One argument that is no option: the value that the last option waits for. -/
def stepPlain (r : Reading) (argument : String) : Except UsageError Reading :=
  match r.pending with
  | some (option, none) => .ok { r with pending := some (option, some argument) }
  | _ => .error .unknownArgument

/-- The options of a command. -/
def run (c : CommandName) : Reading → List String → Except UsageError Settings
  | r, [] => r.settle
  | r, argument :: rest =>
    match shape argument with
    | .endOfOptions => if rest = [] then r.settle else .error .unknownArgument
    | .short letter =>
      if letter = helpLetter then .error (r.ask .help) else .error .unknownArgument
    | .long name value =>
      match r.stepLong c name value with
      | .error e => .error e
      | .ok r => run c r rest
    | .plain =>
      match r.stepPlain argument with
      | .error e => .error e
      | .ok r => run c r rest

end Reading

/-- The command with some settings. -/
def command (c : CommandName) (s : Settings) : Except UsageError Command :=
  let common : CommonSettings := ⟨s.dpi, s.title, s.noShow⟩
  match c with
  | .bandwidth =>
    .ok (.bandwidth (s.input.getD Presets.bandwidthInput) (s.output.getD Presets.bandwidthOutput)
      (if s.sets = [] then Presets.defaultSets else s.sets) common)
  | .requestTime =>
    if s.label.isSome ∧ (s.byQueue ∨ s.weights ≠ []) then .error .conflict
    else
      .ok (.requestTime (s.input.getD Presets.requestTimeInput)
        (s.output.getD Presets.requestTimeOutput) (s.label.getD "TO") s.byQueue s.weights common)
  | .render =>
    match s.figure with
    | none => .error .missingOption
    | some description => .ok (.render description s.input s.output common)

/-- The answer to a request for help, with the names behind it: help on a command or on help
itself. -/
def helpOn : List String → UsageError
  | [] => .help
  | [name] => if name = helpName ∨ (CommandName.ofName? name).isSome then .help else .unknownCommand
  | _ => .unknownCommand

/-- What is wrong with a first argument that names no command. -/
def withoutCommand (argument : String) (rest : List String) : UsageError :=
  match shape argument with
  | .endOfOptions =>
    match rest with
    | [] => .nothingGiven
    | next :: _ =>
      if next = helpName ∨ (CommandName.ofName? next).isSome then .unknownArgument
      else .unknownCommand
  | .short letter =>
    if letter = helpLetter then .help
    else if letter = versionLetter then .version else .unknownArgument
  | .long name value =>
    if name ≠ helpName ∧ name ≠ versionName then .unknownArgument
    else if value.isSome then .surplusValue
    else if name = helpName then .help else .version
  | .plain => .unknownCommand

end Arguments

/-- The command that some arguments ask for. -/
def Command.ofArguments : List String → Except UsageError Command
  | [] => .error .nothingGiven
  | argument :: rest =>
    match CommandName.ofName? argument with
    | some c =>
      match Arguments.Reading.run c .start rest with
      | .error e => .error e
      | .ok settings => Arguments.command c settings
    | none =>
      if argument = Arguments.helpName then .error (Arguments.helpOn rest)
      else .error (Arguments.withoutCommand argument rest)

end LineChart
