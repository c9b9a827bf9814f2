import Swimlane.CommandLine.Run

/-!
# The program

Runs the command line on the files of the disk and the variables of the environment.
-/

namespace Swimlane.Main

/-- The number of an error, which may be held as the negative of it. -/
def errorNumber (code : UInt32) : Nat := (min code (0 - code)).toNat

/-- The fault of an error of the operating system. -/
def faultOf (path : String) : IO.Error → FileFault
  | .noFileOrDirectory .. => .missing path
  | .inappropriateType _ code _ =>
    if errorNumber code = 20 then .notFolder path else .isFolder path
  | .invalidArgument _ code reason =>
    if errorNumber code = 36 then .longName path else ⟨errorNumber code, reason, path⟩
  | .permissionDenied .. => ⟨13, "Permission denied", path⟩
  | .otherError code reason => ⟨errorNumber code, reason, path⟩
  | e => ⟨5, toString e, path⟩

/-- The files of the disk. -/
def disk : Files IO where
  read path := do
    try
      let bytes ← IO.FS.readBinFile path
      return .ok (bytes.toList.map (·.toNat))
    catch e => return .error (faultOf path e)
  write path bytes := do
    try
      IO.FS.writeBinFile path ⟨(bytes.map fun b => UInt8.ofNat b).toArray⟩
      return .ok ()
    catch e => return .error (faultOf path e)

/-- The variables of the environment that matter. -/
def environment : IO Settings.Environment := do
  let pairs ← Settings.variableNames.filterMapM fun name => do
    return (← IO.getEnv name).map (name, ·)
  return fun name => pairs.lookup name

/-- Prints to the standard error and gives the exit code. -/
def complain (code : UInt32) (text : String) : IO UInt32 := do
  (← IO.getStderr).putStr text
  return code

/-- Tells an outcome and gives the exit code. -/
def conclude : Outcome → IO UInt32
  | .done output => do
    (← IO.getStdout).putStr output
    return 0
  | .failed message => complain 1 (Outcome.errorText message)
  | .usage .help => return 0
  | .usage (.misuse message) => complain 2 (message ++ "\n")
  | .setting fault => complain 1 (Outcome.errorText fault.message)
  | .misfit m => complain 1 (Outcome.errorText m.text)
  | .badPath => complain 1 (Outcome.errorText "a path cannot hold a null character")
  | .service _ => complain 1 (Outcome.errorText "the service needs a host for its requests")

end Swimlane.Main

/-- Runs the program. -/
def main (arguments : List String) : IO UInt32 := do
  let outcome ← Swimlane.Command.run Swimlane.Main.disk (← Swimlane.Main.environment) arguments
  Swimlane.Main.conclude outcome
