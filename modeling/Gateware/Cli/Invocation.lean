import Gateware.Cli.Arguments
import Gateware.Number.Reading
import Gateware.Operation

/-!
# Invocations

What a command line asks for.  Some switches may stand before the command or after it; where a value
is given in both places, the one after the command counts.
-/

namespace Gateware.Cli

/-- The form of a listing. -/
inductive Format where
  | text
  | json
deriving Repr, DecidableEq

/-- Options of every command. -/
structure Options where
  /-- Print results and errors only. -/
  quiet : Bool := false
  /-- Print more than usual. -/
  verbose : Bool := false
  /-- The path of the request. -/
  config : Option String := none
deriving Repr, DecidableEq

/-- What to do. -/
inductive Command where
  /-- List the supported devices. -/
  | devices (format : Format)
  /-- Price an operation on a device. -/
  | cost (device : String) (operation : Operation)
  /-- Show the memory settings of the request. -/
  | memory (device : Option String) (format : Format)
  /-- Compile a program. -/
  | build (program : String) (outputDir : Option String)
deriving Repr, DecidableEq

/-- What a command line asks for. -/
inductive Invocation where
  | version
  | help
  | run (options : Options) (command : Command)
deriving Repr, DecidableEq

/-! ## Values -/

/-- Whether a path is not empty. -/
def isPath (value : String) : Bool := !value.isEmpty

/-- The format with a name. -/
def formatNamed (value : String) : Option Format :=
  if value == "text" then some .text else if value == "json" then some .json else none

/-- A number of 32 bits without a sign, with an optional sign in front of it. -/
def readWidth (value : String) : Option Nat :=
  let (negative, digits) := splitSign value.toList
  (readDigits digits).bind fun n =>
    if n ≤ maxWord && (!negative || n == 0) then some n else none

/-- The operator with a name. -/
def operatorNamed (value : String) : Option Operator := (Operator.parse value).toOption

/-! ## Switches -/

/-- The switches that may stand anywhere. -/
def commonSwitches : List Switch :=
  [⟨"quiet", some 'q', .flag⟩, ⟨"verbose", some 'v', .flag⟩, ⟨"config", none, .valued isPath⟩,
   ⟨"help", some 'h', .help⟩]

/-- The switches before the command. -/
def leadingSwitches : List Switch := commonSwitches ++ [⟨"version", some 'V', .version⟩]

/-- The switch for the format of a listing. -/
def formatSwitch : Switch := ⟨"format", some 'f', .valued fun v => (formatNamed v).isSome⟩

/-- The switch for a device. -/
def deviceSwitch : Switch := ⟨"device", some 'd', .valued fun _ => true⟩

/-- The commands, with the switches of each. -/
def commands : List (String × List Switch) :=
  [("devices", [formatSwitch]),
   ("cost", [deviceSwitch, ⟨"op", none, .valued fun v => (operatorNamed v).isSome⟩,
      ⟨"width", some 'w', .valued fun v => (readWidth v).isSome⟩, ⟨"signed", some 's', .flag⟩]),
   ("memory", [deviceSwitch, formatSwitch]),
   ("build", [⟨"program", some 'p', .valued isPath⟩, ⟨"output-dir", some 'o', .valued isPath⟩])]

/-! ## Command lines -/

/-- The value of a switch that has to be there. -/
def required (given : Given) (name : String) : Except UsageError String :=
  match given.lookup name with
  | some value => .ok value
  | none => .error (.missingSwitch name)

/-- The value of a switch in the form that it has been checked for. -/
def checked {α : Type} (given : Given) (name : String) (read : String → Option α) :
    Except UsageError α := do
  let value ← required given name
  match read value with
  | some a => pure a
  | none => .error (.invalidValue name value)

/-- The format of a listing, which is text unless something else is asked for. -/
def formatOf (given : Given) : Format := ((given.lookup "format").bind formatNamed).getD .text

/-- The command with a name. -/
def commandOf (name : String) (given : Given) : Except UsageError Command :=
  match name with
  | "devices" => .ok (.devices (formatOf given))
  | "cost" => do
    let device ← required given "device"
    let operator ← checked given "op" operatorNamed
    let width ← checked given "width" readWidth
    pure (.cost device ⟨operator, width, (given.lookup "signed").isSome⟩)
  | "memory" => .ok (.memory (given.lookup "device") (formatOf given))
  | "build" => do
    let program ← required given "program"
    pure (.build program (given.lookup "output-dir"))
  | _ => .error .missingCommand

/-- The options from the switches before and after the command. -/
def optionsOf (leading trailing : Given) : Options where
  quiet := (leading.lookup "quiet").isSome || (trailing.lookup "quiet").isSome
  verbose := (leading.lookup "verbose").isSome || (trailing.lookup "verbose").isSome
  config := (trailing.lookup "config").or (leading.lookup "config")

/-- The words after `help` name the command that help is wanted for, if any. -/
def parseHelp : List String → Except UsageError Invocation
  | [] => .ok .help
  | name :: rest =>
    if name != "help" && (commands.lookup name).isNone then .error (.unknownWord name)
    else match rest with
      | [] => .ok .help
      | word :: _ => .error (.unknownWord word)

/-- What the words on a command line ask for. -/
def parse (words : List String) : Except UsageError Invocation := do
  match ← scan leadingSwitches ("help" :: commands.map (·.1)) [] words with
  | .version => pure .version
  | .help => pure .help
  | .finished _ => .error .missingCommand
  | .command name leading rest =>
    match commands.lookup name with
    | none => parseHelp rest
    | some switches =>
      match ← scan (switches ++ commonSwitches) [] [] rest with
      | .version => pure .version
      | .help => pure .help
      | .command .. => .error .missingCommand
      | .finished trailing =>
        let command ← commandOf name trailing
        pure (.run (optionsOf leading trailing) command)

end Gateware.Cli
