import MidiPatch.CommandLine.Options
import MidiPatch.Text.Similarity
import MidiPatch.Text.Style

/-!
# What the program says about its options

The help text, the version, and the messages about arguments that are not taken.
-/

namespace MidiPatch.CommandLine

open Text

def programName : String := "midi-bridge"

def programVersion : String := "0.3.0"

namespace Opt

def dashed (o : Opt) : String := "--" ++ o.name

/-- What stands for the value of an option. -/
def valueText (o : Opt) : String := (o.valueName?.map fun v => " <" ++ v ++ ">").getD ""

def form (o : Opt) : String := o.dashed ++ o.valueText

def describe (o : Opt) : String :=
  match o with
  | .config => "Path to configuration file"
  | .logLevel => "Log level (error, warn, info, debug, trace)"
  | .listPorts => "List available MIDI ports"
  | .monitor => "Print every message received on any port"
  | .help => "Print help"
  | .version => "Print version"

end Opt

/-! ### Usage -/

/-- The options of the program as alternatives. -/
def ownOptions : String :=
  "<" ++ String.intercalate "|" ((Opt.all.filter Opt.isOwn).map Opt.form) ++ ">"

/--
What to write behind the program's name where options were given: the program's own options if one
of them was taken, and each other option in question.
-/
def usageOptions (color : Bool) (taken : List Opt) (more : Option Opt) : List String :=
  let group := taken.any Opt.isOwn
  let named := (taken ++ more.toList).eraseDups.filter fun o => !(group && o.isOwn)
  named.map (fun o => paint color .bold o.dashed ++ o.valueText) ++ if group then [ownOptions] else []

def usage (color : Bool) (taken : List Opt) (more : Option Opt) : String :=
  let options :=
    match usageOptions color taken more with
    | [] => ["[OPTIONS]"]
    | forms => forms
  paint color .boldUnderlined "Usage:" ++ " " ++
    String.intercalate " " (paint color .bold programName :: options)

/-! ### Mistakes -/

/-- A tip about the known option that a name is similar to. -/
def tip (color : Bool) (similar : Opt) : String :=
  "  " ++ paint color .green "tip:" ++ " a similar argument exists: '" ++
    paint color .green similar.dashed ++ "'\n\n"

/-- The known option that an unknown name is similar to. -/
def similarOption? (name : String) : Option Opt :=
  (mostSimilar? name (Opt.all.map Opt.name)).bind Opt.ofName?

def mistake (color : Bool) (stop : Stop) : String × String :=
  let wrong (s : String) := "'" ++ paint color .yellow s ++ "'"
  let plainUsage := usage color [] none ++ "\n\n"
  match stop with
  | .help => ("", "")
  | .version => ("", "")
  | .missingValue o => ("a value is required for " ++ wrong o.form ++ " but none was supplied", "")
  | .repeated o => ("the argument " ++ wrong o.form ++ " cannot be used multiple times", plainUsage)
  | .unneededValue o value given =>
    ("unexpected value " ++ wrong value ++ " for '" ++ paint color .bold o.form ++
        "' found; no more were expected",
      usage color given (some o) ++ "\n\n")
  | .unknownName name given =>
    let found := "unexpected argument " ++ wrong ("--" ++ name) ++ " found"
    match similarOption? name with
    | none => (found, usage color given none ++ "\n\n")
    | some o => (found, tip color o ++ usage color (given ++ [o]) none ++ "\n\n")
  | .unknown s => ("unexpected argument " ++ wrong s ++ " found", plainUsage)

def mistakeText (color : Bool) (stop : Stop) : String :=
  let (wrong, hints) := mistake color stop
  paint color .boldRed "error:" ++ " " ++ wrong ++ "\n\n" ++ hints ++
    "For more information, try '" ++ paint color .bold "--help" ++ "'.\n"

/-! ### Help -/

/-- The letter and name of an option, plain or in style. -/
def optionColumn (color : Bool) (o : Opt) : String :=
  let letter :=
    match o.letter? with
    | some c => paint color .bold (String.ofList ['-', c]) ++ ", "
    | none => "    "
  "  " ++ letter ++ paint color .bold o.dashed ++ o.valueText

/-- What the help text says about where the value of an option comes from if it is not given. -/
def defaultText (logLevel : String) : Opt → String
  | .config => " [default: bridge.yaml]"
  | .logLevel => s!" [env: LOG_LEVEL={logLevel}] [default: info]"
  | _ => ""

def columnWidth : Nat :=
  (Opt.all.map fun o => (optionColumn false o).length).foldl max 0 + 2

def helpLine (color : Bool) (logLevel : String) (o : Opt) : String :=
  let filling := List.replicate (columnWidth - (optionColumn false o).length) ' '
  optionColumn color o ++ String.ofList filling ++ o.describe ++ defaultText logLevel o ++ "\n"

def helpText (color : Bool) (logLevel : String) : String :=
  "MIDI framing, merge and multi-port bridge between USB and UART style byte transports\n\n" ++
    usage color [] none ++ "\n\n" ++ paint color .boldUnderlined "Options:" ++ "\n" ++
    String.join (Opt.all.map (helpLine color logLevel))

def versionText : String := programName ++ " " ++ programVersion ++ "\n"

end MidiPatch.CommandLine
