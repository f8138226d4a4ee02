import LineChart.Command.Basic
import LineChart.Number.Numeral

/-!
# Options

The options of the commands, and what is set by them. An option is given once, except that lists
grow; a list's values are separated by commas.

* `CommandOption` : the options.
* `Settings.set` : the settings with one more option given.
-/

namespace LineChart

/-- What can be wrong with the arguments of a command, and the two questions that are answered
instead of running one. -/
inductive UsageError where
  | help
  | version
  /-- No command is given at all. -/
  | nothingGiven
  | unknownCommand
  | unknownArgument
  /-- An option that takes a value has none, or an empty one that has to name something. -/
  | missingValue
  /-- A value that cannot be read. -/
  | badValue
  /-- A value given to an option that takes none. -/
  | surplusValue
  /-- Options that exclude each other, or one option given twice. -/
  | conflict
  /-- An option that is required is not given. -/
  | missingOption
deriving DecidableEq

namespace UsageError

def message : UsageError → String
  | help | version | nothingGiven => ""
  | unknownCommand => "there is no such command"
  | unknownArgument => "there is an argument that the command does not know"
  | missingValue => "an option is given without a value"
  | badValue => "the value of an option cannot be read"
  | surplusValue => "a switch is given a value"
  | conflict => "options are given that exclude each other"
  | missingOption => "an option that is required is not given"

end UsageError

inductive CommandOption where
  | input
  | output
  | sets
  | label
  | byQueue
  | queueWeights
  | figure
  | dpi
  | title
  | noShow
deriving DecidableEq

namespace CommandOption

/-- The name that stands behind two hyphens. -/
def name : CommandOption → String
  | input => "input"
  | output => "output"
  | sets => "sets"
  | label => "label"
  | byQueue => "by-queue"
  | queueWeights => "queue-weights"
  | figure => "figure"
  | dpi => "dpi"
  | title => "title"
  | noShow => "no-show"

/-- The option is a switch, without a value. -/
def isSwitch : CommandOption → Bool
  | byQueue | noShow => true
  | _ => false

end CommandOption

/-! ### Values -/

/-- A natural number below `bound` among integers of sixty-four bits, with a sign or without. -/
def readWord? (bound : Nat) (text : List Char) : Option Nat :=
  match readInt64? text with
  | some n => if 0 ≤ n.toInt ∧ n.toInt < bound then some n.toInt.toNat else none
  | none => none

/-- A natural number of thirty-two bits. -/
def readUInt32? (text : List Char) : Option UInt32 := (readWord? UInt32.size text).map .ofNat

/-- A natural number of sixty-four bits; a plus sign may stand in front. -/
def readUInt64? (text : List Char) : Option UInt64 :=
  match text with
  | '-' :: _ => none
  | _ =>
    match readInteger? text with
    | some n => if n < UInt64.size then some (.ofNat n.toNat) else none
    | none => none

/-- The values of a list, if all of them can be read. -/
def readList? {α : Type} (read : List Char → Option α) (text : String) : Option (List α) :=
  readAllTexts (splitAt ',' text.toList)
where
  readAllTexts : List (List Char) → Option (List α)
    | [] => some []
    | text :: rest =>
      match read text, readAllTexts rest with
      | some a, some as => some (a :: as)
      | _, _ => none

/-- A path, which is not empty. -/
def readPath (text : String) : Except UsageError Path :=
  if text = "" then .error .missingValue else .ok ⟨text⟩

/-- A value that was read, or not. -/
def valueRead {α : Type} : Option α → Except UsageError α
  | some a => .ok a
  | none => .error .badValue

/-! ### Settings -/

/-- What the options of a command set. -/
structure Settings where
  input : Option Path := none
  output : Option Path := none
  sets : List UInt32 := []
  label : Option String := none
  byQueue : Bool := false
  weights : List UInt64 := []
  figure : Option Path := none
  dpi : Option UInt32 := none
  title : Option String := none
  noShow : Bool := false
deriving DecidableEq

/-- The value of an option that is given once; it is read only then. -/
def setOnce {α : Type} (old : Option α) (read : Except UsageError α) :
    Except UsageError (Option α) :=
  match old with
  | some _ => .error .conflict
  | none => read.map some

namespace Settings

/-- Turns a switch on. -/
def turnOn (s : Settings) : CommandOption → Except UsageError Settings
  | .byQueue => if s.byQueue then .error .conflict else .ok { s with byQueue := true }
  | .noShow => if s.noShow then .error .conflict else .ok { s with noShow := true }
  | _ => .ok s

/-- Gives an option a value. -/
def set (s : Settings) (option : CommandOption) (value : String) : Except UsageError Settings :=
  match option with
  | .input => (setOnce s.input (readPath value)).map fun v => { s with input := v }
  | .output => (setOnce s.output (readPath value)).map fun v => { s with output := v }
  | .figure => (setOnce s.figure (readPath value)).map fun v => { s with figure := v }
  | .label => (setOnce s.label (.ok value)).map fun v => { s with label := v }
  | .title => (setOnce s.title (.ok value)).map fun v => { s with title := v }
  | .dpi =>
    (setOnce s.dpi (valueRead (readUInt32? value.toList))).map fun v => { s with dpi := v }
  | .sets =>
    (valueRead (readList? readUInt32? value)).map fun vs => { s with sets := s.sets ++ vs }
  | .queueWeights =>
    (valueRead (readList? readUInt64? value)).map fun vs => { s with weights := s.weights ++ vs }
  | .byQueue | .noShow => .error .surplusValue

end Settings

end LineChart
