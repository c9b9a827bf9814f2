import Swimlane.CommandLine.Arguments
import Swimlane.Compiler

/-!
# Commands

What the program can be told to do: compile a story into one of several formats, export a script
document as BPMN, or run the service.
-/

namespace Swimlane

/-- What a story is compiled into. -/
inductive Format where
  | script
  | bpmn
  | forms
  /-- Everything that is made of a flow. -/
  | ir
  deriving DecidableEq, Repr

namespace Format

/-- All formats. -/
def all : List Format := [script, bpmn, forms, ir]

/-- The name of a format. -/
def name : Format → String
  | script => "script"
  | bpmn => "bpmn"
  | forms => "forms"
  | ir => "ir"

/-- The format with a given name. -/
def ofName? (name : String) : Option Format := all.find? (·.name == name)

/-- A flow in a format. -/
def render (format : Format) (g : Graph) (settings : Settings) : Except Failure String :=
  match format with
  | script => .ok g.script
  | bpmn => Bpmn.document g settings
  | forms => .ok ((Json.obj g.forms).pretty ++ "\n")
  | ir => do return (← g.artifacts settings).pretty ++ "\n"

end Format

/-- What the program is told to do. -/
inductive Command where
  /-- Compiles the story in a file. -/
  | compile (input : String) (output : Option String) (format : Format)
  /-- Turns the script document in a file into BPMN. -/
  | exportBpmn (input : String) (output : Option String)
  /-- Runs the service. -/
  | serve
  deriving DecidableEq, Repr

namespace Command

open Arguments (Exit Grammar OptionSpec Reading)

/-- The option that asks for help. -/
def helpOption : OptionSpec := ⟨["-h", "--help"], true, []⟩

/-- The arguments of the program. -/
def grammar : Grammar where
  program := "storyflow"
  options := [helpOption, ⟨["--log-level"], false, []⟩]
  operands := [⟨"command", .command, ["compile", "export-bpmn", "serve"]⟩]

/-- The arguments of the compile command. -/
def compileGrammar : Grammar where
  program := "storyflow compile"
  options := [helpOption, ⟨["--output", "-o"], false, []⟩,
    ⟨["--format", "-f"], false, Format.all.map Format.name⟩]
  operands := [⟨"input", .one, []⟩]

/-- The arguments of the export command. -/
def exportGrammar : Grammar where
  program := "storyflow export-bpmn"
  options := [helpOption]
  operands := [⟨"input", .one, []⟩, ⟨"output", .atMostOne, []⟩]

/-- The arguments of the serve command. -/
def serveGrammar : Grammar where
  program := "storyflow serve"
  options := [helpOption]
  operands := []

/-- The value read for a name, empty if there is none. -/
def valueOf (r : Reading) (name : String) : String := (r.value? name).getD ""

/-- The command that arguments behind its name describe, and the arguments that it does not
    take. -/
def ofName (name : String) (arguments : List String) : Except Exit (Command × List String) :=
  match name with
  | "compile" => do
    let r ← compileGrammar.read arguments
    let format := ((r.value? "--format").bind Format.ofName?).getD .script
    return (.compile (valueOf r "input") (r.value? "--output") format, r.extras)
  | "export-bpmn" => do
    let r ← exportGrammar.read arguments
    return (.exportBpmn (valueOf r "input") (r.value? "output"), r.extras)
  | _ => do
    let r ← serveGrammar.read arguments
    return (.serve, r.extras)

/-- The command that the arguments of the program describe. -/
def ofArguments (arguments : List String) : Except Exit Command := do
  let r ← grammar.read arguments
  let (name, own) := r.command.getD ("", [])
  let (command, extras) ← ofName name own
  match r.extras ++ extras with
  | [] => return command
  | extras => throw (grammar.misuse ("unrecognized arguments: " ++ " ".intercalate extras))

end Command

end Swimlane
