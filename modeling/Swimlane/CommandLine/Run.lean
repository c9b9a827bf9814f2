import Swimlane.CommandLine.Command
import Swimlane.CommandLine.Files
import Swimlane.Text.Lines

/-!
# Runs

One run of the program: its arguments are read, then the settings in its environment, then the
file it is to work on; what it makes goes to a file or to the standard output.
-/

namespace Swimlane

/-- How a run ends. -/
inductive Outcome where
  /-- What was asked for is done; the text is the standard output. -/
  | done (output : String)
  /-- The input was refused; the text is the message. -/
  | failed (message : String)
  /-- The arguments were not taken. -/
  | usage (exit : Arguments.Exit)
  /-- The environment was not taken. -/
  | setting (fault : SettingFault)
  /-- A value in the input did not fit its use. -/
  | misfit (misfit : Misfit)
  /-- A path holds a character that no path can. -/
  | badPath
  /-- The service is to be run. -/
  | service (settings : Settings)

namespace Outcome

/-- What the program prints to the standard error for a message. -/
def errorText (message : String) : String := s!"error: {message}\n"

/-- The outcome of a failure. -/
def ofFailure : Failure → Outcome
  | .misfit m => .misfit m
  | .story e => .failed e.report.message
  | .graph f => .failed f.report.message
  | .layout f => .failed f.report.message
  | .bundle f => .failed f.report.message

end Outcome

namespace Command

/-- The text in the bytes of a file. -/
def textOf (bytes : List Nat) : Except Outcome String :=
  match Text.Utf8.decode bytes with
  | .ok cs => .ok (String.ofList (Text.unifyLineEnds cs))
  | .error e => .error (.failed e.message)

/-- A story in a format. -/
def compiled (format : Format) (settings : Settings) (story : String) : Except Outcome String :=
  ((Graph.ofStory story).bind fun g => format.render g settings).mapError Outcome.ofFailure

/-- The BPMN document of a script document. -/
def exported (settings : Settings) (script : String) : Except Outcome String :=
  ((Graph.ofText script).bind fun g => Bpmn.document g settings).mapError Outcome.ofFailure

variable {m : Type → Type} [Monad m]

/-- The text in the file at a path. -/
def readText (files : Files m) (path : String) : ExceptT Outcome m String := do
  if path.contains '\x00' then throw .badPath
  match ← files.read (Path.normalize path) with
  | .ok bytes => textOf bytes
  | .error fault => throw (.failed fault.message)

/-- Puts a text into the file at a path.  Without a path it is for the standard output. -/
def writeText (files : Files m) (output : Option String) (text : String) :
    ExceptT Outcome m String := do
  match output with
  | none => return text
  | some "" => return text
  | some path =>
    if path.contains '\x00' then throw .badPath
    match ← files.write (Path.normalize path) (Text.Utf8.encode text) with
    | .ok () => return ""
    | .error fault => throw (.failed fault.message)

/-- Carries out a command; the result is the standard output. -/
def perform (files : Files m) (settings : Settings) : Command → ExceptT Outcome m String
  | compile input output format => do
    let source ← readText files input
    let text ← compiled format settings source
    writeText files output text
  | exportBpmn input output => do
    let source ← readText files input
    let text ← exported settings source
    writeText files output text
  | serve => throw (.service settings)

/-- A run of the program. -/
def run (files : Files m) (env : Settings.Environment) (arguments : List String) : m Outcome :=
  match ofArguments arguments with
  | .error exit => return .usage exit
  | .ok command =>
    match Settings.ofEnvironment env with
    | .error fault => return .setting fault
    | .ok settings => do
      match ← (command.perform files settings).run with
      | .ok output => return .done output
      | .error outcome => return outcome

end Command

end Swimlane
