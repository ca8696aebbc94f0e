/-!
# Command arguments

The words on a command line are scanned from left to right.  A switch has a long name after two
dashes and may have a short one after a single dash; some take a value.

* `--name value` and `--name=value`, `-n value`, `-nvalue` and `-n=value` all give a value.  A word
  that starts with a dash is taken as a value only if it is attached, or a single dash.
* Short switches may be clustered; the first that takes a value takes the rest of the cluster.
* Two dashes alone end the switches, and nothing may follow them.

A switch may be given once.  Scanning stops at the name of a command, and at once when the version
or help is asked for.
-/

namespace Gateware.Cli

/-- What a switch does. -/
inductive SwitchKind where
  /-- Turns something on. -/
  | flag
  /-- Takes a value, if it has the right form. -/
  | valued (accepts : String → Bool)
  /-- Asks for the version. -/
  | version
  /-- Asks for help. -/
  | help

/-- A switch. -/
structure Switch where
  /-- The long name, which also identifies the switch. -/
  name : String
  short : Option Char
  kind : SwitchKind

/-- Why a command line makes no sense. -/
inductive UsageError where
  | unknownWord (word : String)
  | unexpectedValue (switch : String)
  | missingValue (switch : String)
  | invalidValue (switch value : String)
  | repeated (switch : String)
  | missingSwitch (switch : String)
  | missingCommand
deriving Repr, DecidableEq

/-- The message of a usage error. -/
def UsageError.message : UsageError → String
  | unknownWord word => s!"unexpected argument '{word}'"
  | unexpectedValue switch => s!"unexpected value for '--{switch}'"
  | missingValue switch => s!"a value is required for '--{switch}'"
  | invalidValue switch value => s!"invalid value '{value}' for '--{switch}'"
  | repeated switch => s!"'--{switch}' cannot be used multiple times"
  | missingSwitch switch => s!"'--{switch}' is required"
  | missingCommand => "a command is required"

/-- The switches that were given, with their values. -/
abbrev Given := List (String × String)

/-- How scanning ended. -/
inductive ScanEnd where
  | finished (given : Given)
  /-- At the name of a command; the words after it are left. -/
  | command (name : String) (given : Given) (rest : List String)
  | version
  | help

/-- Records a switch, which must not have been given before. -/
def record (given : Given) (name value : String) : Except UsageError Given :=
  if (given.lookup name).isSome then .error (.repeated name) else .ok (given ++ [(name, value)])

/-- Records a switch with a value. -/
def recordValue (given : Given) (name : String) (accepts : String → Bool) (value : String) :
    Except UsageError Given :=
  if accepts value then record given name value else .error (.invalidValue name value)

/-- Whether a word looks like a switch. -/
def isSwitchLike (word : String) : Bool := word.startsWith "-" && word != "-"

/-! ## Single words -/

/-- What a word with switches amounts to. -/
inductive WordEnd where
  | done (given : Given)
  /-- The last switch takes the next word as its value. -/
  | expects (name : String) (accepts : String → Bool) (given : Given)
  | version
  | help

/-- A long switch with the value attached to it, if there is one. -/
def scanLong (switches : List Switch) (given : Given) (name : String) (attached : Option String) :
    Except UsageError WordEnd :=
  match switches.find? (·.name == name), attached with
  | none, _ => .error (.unknownWord ("--" ++ name))
  | some ⟨_, _, .valued accepts⟩, some value => (recordValue given name accepts value).map .done
  | some ⟨_, _, .valued accepts⟩, none => .ok (.expects name accepts given)
  | some _, some _ => .error (.unexpectedValue name)
  | some ⟨_, _, .flag⟩, none => (record given name "").map .done
  | some ⟨_, _, .version⟩, none => .ok .version
  | some ⟨_, _, .help⟩, none => .ok .help

/-- A value attached to a short switch, without the equals sign in front of it. -/
def attachedValue : List Char → String
  | '=' :: cs => String.ofList cs
  | cs => String.ofList cs

/-- A cluster of short switches. -/
def scanCluster (switches : List Switch) (given : Given) : List Char → Except UsageError WordEnd
  | [] => .ok (.done given)
  | c :: cs =>
    match switches.find? (·.short == some c) with
    | none => .error (.unknownWord ("-" ++ c.toString))
    | some ⟨name, _, .valued accepts⟩ =>
      if cs.isEmpty then .ok (.expects name accepts given)
      else (recordValue given name accepts (attachedValue cs)).map .done
    | some ⟨name, _, .flag⟩ =>
      match record given name "" with
      | .ok given => scanCluster switches given cs
      | .error e => .error e
    | some ⟨_, _, .version⟩ => .ok .version
    | some ⟨_, _, .help⟩ => .ok .help

/-- A long switch split at the equals sign. -/
def splitAttached (cs : List Char) : String × Option String :=
  let name := String.ofList (cs.takeWhile (· != '='))
  match cs.dropWhile (· != '=') with
  | _ :: value => (name, some (String.ofList value))
  | [] => (name, none)

/-- A word that starts with a dash. -/
def scanWord (switches : List Switch) (given : Given) (word : String) : Except UsageError WordEnd :=
  match word.toList with
  | '-' :: '-' :: cs =>
    let (name, attached) := splitAttached cs
    scanLong switches given name attached
  | '-' :: cs => if cs.isEmpty then .error (.unknownWord word) else scanCluster switches given cs
  | _ => .error (.unknownWord word)

/-! ## Command lines -/

/-- Scans words, given the switches so far. -/
def scan (switches : List Switch) (commands : List String) (given : Given) :
    List String → Except UsageError ScanEnd
  | [] => .ok (.finished given)
  | word :: rest =>
    if commands.contains word then .ok (.command word given rest)
    else if word == "--" then
      match rest with
      | [] => .ok (.finished given)
      | next :: _ => .error (.unknownWord next)
    else match scanWord switches given word with
      | .error e => .error e
      | .ok .version => .ok .version
      | .ok .help => .ok .help
      | .ok (.done given) => scan switches commands given rest
      | .ok (.expects name accepts given) =>
        match rest with
        | [] => .error (.missingValue name)
        | value :: rest =>
          if isSwitchLike value then .error (.missingValue name)
          else match recordValue given name accepts value with
            | .ok given => scan switches commands given rest
            | .error e => .error e

end Gateware.Cli
