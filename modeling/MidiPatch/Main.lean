import MidiPatch.CommandLine.Run

/-!
# The program

Reads what `CommandLine.run` needs, and prints what it says.
-/

namespace MidiPatch

/-- Why a file could not be read, by the number of the failure. -/
def fileError : IO.Error → Folder.Error
  | .permissionDenied .. => .denied
  | .inappropriateType _ code _ => if code = 20 then .notFolder else .isFolder
  | .invalidArgument _ code _ => if code = 36 then .nameTooLong else .missing
  | .resourceExhausted _ code _ => if code = 36 then .nameTooLong else .missing
  | _ => .missing

def readFile (path : String) : IO (Except Folder.Error String) := do
  try
    return Folder.textOf (← IO.FS.readBinFile path).toList
  catch e =>
    return .error (fileError e)

def words (text : String) : List String :=
  (text.splitToList fun c => !(c.isAlphanum || c = '_')).filter (!·.isEmpty)

/-- The variables of the process that are asked for or that a file mentions. -/
def readEnvironment (file : Except Folder.Error String) : IO Environment := do
  let known := ["RUST_LOG", "LOG_LEVEL", "NO_COLOR", "CLICOLOR", "CLICOLOR_FORCE"]
  let mentioned :=
    match file with
    | .ok text => words text
    | .error _ => []
  let values ← (known ++ mentioned).eraseDups.mapM fun name => do
    return (← IO.getEnv name).map fun v => (name, v)
  return values.filterMap id

def setupPath (args : List String) : String :=
  match CommandLine.Arguments.ofList args with
  | .ok a => a.config
  | .error _ => ""

def seconds (ms : Nat) : String :=
  let part := (toString (ms % 1000)).toList.leftpad 3 '0'
  toString (ms / 1000) ++ "." ++ String.ofList part ++ "s"

end MidiPatch

open MidiPatch in
/-- Runs the program; log lines begin with the time since the computer was started. -/
def main (args : List String) : IO UInt32 := do
  let output ← IO.getStdout
  let errors ← IO.getStderr
  let envFile ← readFile CommandLine.environmentFile
  let path := setupPath args
  let setup ← readFile path
  let outcome := CommandLine.run
    { args
      environment := ← readEnvironment envFile
      contents := fun p =>
        if p = CommandLine.environmentFile then envFile
        else if p = path then setup
        else .error .missing
      time := seconds (← IO.monoMsNow)
      terminal := ← output.isTty }
  output.putStr outcome.output
  errors.putStr outcome.errors
  return outcome.code.toUInt32
