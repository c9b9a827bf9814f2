import Swimlane.Proofs.Pipeline
import Swimlane.Proofs.ScriptDocuments
import Swimlane.Proofs.TextFiles

/-!
# From a story to its script and back

The script of a story that compiles holds the whole graph: it is read back with its forms and its
warnings, so everything that is made of the story can be made of the script.  The same holds of
the program, which may put the script into a file and draw its diagram in a second run.

## Key results

- `Graph.ofText_script_of_ofStory`: the graph of a story is read back from its script
- `Command.run_script_to`: a story is put into a file as a script
- `Command.run_export_of_script`: a script in a file is drawn like the story
- `Graph.script_round_trip`: all of this for every story that compiles
-/

namespace Swimlane

/-! ## Runs on a folder -/

/-- The text in the file at a path, as the program reads it. -/
def Folder.text (d : Folder) (path : String) : Except Outcome String :=
  if path.contains '\x00' then .error .badPath
  else match d.read (Path.normalize path) with
    | .ok bytes => Command.textOf bytes
    | .error fault => .error (.failed fault.message)

namespace Command

/-- What becomes of a folder in two steps that may fail. -/
theorem run_bind {α β : Type} (x : ExceptT Outcome (StateM Folder) α)
    (f : α → ExceptT Outcome (StateM Folder) β) (d : Folder) :
    (x >>= f).run d = match x.run d with
      | (.ok a, d') => (f a).run d'
      | (.error e, d') => (.error e, d') := by
  show (x.run >>= ExceptT.bindCont f) d = _
  show (match x.run d with | (r, d') => ExceptT.bindCont f r d') = _
  rcases x.run d with ⟨_ | _, d'⟩ <;> rfl

/-- A result that does not need the folder leaves it as it is. -/
theorem run_liftM {α : Type} (result : Except Outcome α) (d : Folder) :
    (liftM result : ExceptT Outcome (StateM Folder) α).run d = (result, d) := by
  cases result <;> rfl

/-- Reading a file leaves the folder as it is. -/
theorem readText_run (d : Folder) (path : String) :
    (readText Folder.access path).run d = (d.text path, d) := by
  rw [readText, Folder.text]
  by_cases hpath : path.contains '\x00' = true
  · rw [if_pos hpath, if_pos hpath]
    rfl
  · rw [if_neg hpath, if_neg hpath, run_bind]
    show (match d.read (Path.normalize path) with
      | .ok bytes => (liftM (textOf bytes) : ExceptT Outcome (StateM Folder) String)
      | .error fault => throw (Outcome.failed fault.message)).run d = _
    cases d.read (Path.normalize path) with
    | ok bytes => exact run_liftM (textOf bytes) d
    | error fault => rfl

/-- Writing a file changes the folder if it succeeds. -/
theorem run_write {path : String} {bytes : List Nat} {d d' : Folder}
    (h : d.write path bytes = .ok d') :
    (liftM (Folder.access.write path bytes) :
      ExceptT Outcome (StateM Folder) (Except FileFault Unit)).run d = (.ok (.ok ()), d') := by
  have hwrite : (Folder.access.write path bytes).run d = (.ok (), d') := by
    simp only [Folder.access, StateT.run_bind, StateT.run_get, pure_bind, h]
    rfl
  show (Except.ok ((Folder.access.write path bytes).run d).1,
    ((Folder.access.write path bytes).run d).2) = _
  rw [hwrite]

/-- A text is put into a file at a path if the folder takes it. -/
theorem writeText_run {path text : String} {d d' : Folder} (hpath : path ≠ "")
    (hnul : path.contains '\x00' = false)
    (h : d.write (Path.normalize path) (Text.Utf8.encode text) = .ok d') :
    (writeText Folder.access (some path) text).run d = (.ok "", d') := by
  rw [writeText]
  · rw [hnul, if_neg Bool.false_ne_true, run_bind, run_write h]
    rfl
  · exact hpath

/-- A text that was put into a file is there, if it holds no carriage return. -/
theorem text_of_write {path text : String} {d d' : Folder} (hnul : path.contains '\x00' = false)
    (hline : '\r' ∉ text.toList)
    (h : d.write (Path.normalize path) (Text.Utf8.encode text) = .ok d') :
    d'.text path = .ok text := by
  rw [Folder.text, hnul, if_neg Bool.false_ne_true, Folder.read_of_write h]
  exact textOf_encode hline

/-- What is made of a file goes where the output is to go. -/
theorem run_make (input : String) (make : String → Except Outcome String)
    (output : Option String) (d : Folder) :
    (do
      let source ← readText Folder.access input
      let text ← make source
      writeText Folder.access output text).run d =
    match (d.text input).bind make with
      | .ok text => (writeText Folder.access output text).run d
      | .error outcome => (.error outcome, d) := by
  rw [run_bind, readText_run]
  cases d.text input with
  | error e => rfl
  | ok source =>
    show ((liftM (make source) : ExceptT Outcome (StateM Folder) String) >>=
      writeText Folder.access output).run d = _
    rw [run_bind, run_liftM]
    simp only [Except.bind]
    cases make source <;> rfl

/-- What a story in a file is compiled to. -/
theorem perform_compile (settings : Settings) (input : String) (output : Option String)
    (format : Format) (d : Folder) :
    (perform Folder.access settings (.compile input output format)).run d =
      match (d.text input).bind (compiled format settings) with
      | .ok text => (writeText Folder.access output text).run d
      | .error outcome => (.error outcome, d) :=
  run_make input (compiled format settings) output d

/-- What a script in a file is exported to. -/
theorem perform_exportBpmn (settings : Settings) (input : String) (output : Option String)
    (d : Folder) :
    (perform Folder.access settings (.exportBpmn input output)).run d =
      match (d.text input).bind (exported settings) with
      | .ok text => (writeText Folder.access output text).run d
      | .error outcome => (.error outcome, d) :=
  run_make input (exported settings) output d

/-- A run carries out the command of its arguments. -/
theorem run_eq {env : Settings.Environment} {arguments : List String} {command : Command}
    {settings : Settings} (hc : ofArguments arguments = .ok command)
    (hs : Settings.ofEnvironment env = .ok settings) (d : Folder) :
    (run Folder.access env arguments).run d =
      match (perform Folder.access settings command).run d with
      | (.ok output, d') => (.done output, d')
      | (.error outcome, d') => (outcome, d') := by
  have hrun : run Folder.access env arguments = (do
      match ← (perform Folder.access settings command).run with
      | .ok output => return .done output
      | .error outcome => return outcome) := by
    rewrite [run, hc, hs]
    rfl
  rw [hrun]
  show (match (perform Folder.access settings command).run d with
    | (result, d') => (match result with
      | .ok output => (pure (.done output) : StateM Folder Outcome)
      | .error outcome => pure outcome) d') = _
  rcases (perform Folder.access settings command).run d with ⟨_ | _, d'⟩ <;> rfl

end Command

/-! ## Scripts of stories -/

namespace Graph

/-- The graph of a story is read back from its script. -/
theorem ofText_script_of_ofStory {story : String} {g : Graph} (h : ofStory story = .ok g) :
    ofText g.script = .ok g := by
  obtain ⟨hwell, hwarnings⟩ := wellFormed_of_ofStory h
  exact hwell.ofText_script hwarnings

/-- The lines of the script of a well-formed graph end with a line feed alone. -/
theorem WellFormed.carriage_not_mem_script {g : Graph} (h : g.WellFormed) :
    '\r' ∉ g.script.toList := by
  rw [script, String.toList_append, List.mem_append, not_or, Json.pretty, String.toList_ofList]
  exact ⟨Json.carriage_not_mem_blockChars 0 _ h.readable_toJson, by decide⟩

end Graph

namespace Command

/-- A script is drawn like the story that it was made of. -/
theorem exported_script {story : String} {g : Graph} (h : Graph.ofStory story = .ok g)
    (settings : Settings) : exported settings g.script = compiled .bpmn settings story := by
  rw [exported, compiled, Graph.ofText_script_of_ofStory h, h]
  rfl

section

variable {env : Settings.Environment} {settings : Settings} {arguments : List String}
  {input path story : String} {d d' : Folder} {g : Graph}

/-- A story that compiles is put into a file as a script. -/
theorem run_script_to (hs : Settings.ofEnvironment env = .ok settings)
    (hc : ofArguments arguments = .ok (.compile input (some path) .script))
    (hstory : d.text input = .ok story) (hg : Graph.ofStory story = .ok g) (hpath : path ≠ "")
    (hnul : path.contains '\x00' = false)
    (hwrite : d.write (Path.normalize path) (Text.Utf8.encode g.script) = .ok d') :
    (run Folder.access env arguments).run d = (.done "", d') := by
  have hscript : (Except.ok story).bind (compiled .script settings) = .ok g.script := by
    simp only [Except.bind, compiled, hg]
    rfl
  rw [run_eq hc hs, perform_compile, hstory, hscript]
  simp only [writeText_run hpath hnul hwrite]

/-- The file with the script of a story is exported to what the story is compiled to. -/
theorem run_export_of_script {arguments' : List String}
    (hs : Settings.ofEnvironment env = .ok settings)
    (hexport : ofArguments arguments = .ok (.exportBpmn path none))
    (hcompile : ofArguments arguments' = .ok (.compile input none .bpmn))
    (hstory : d.text input = .ok story) (hg : Graph.ofStory story = .ok g)
    (hscript : d'.text path = .ok g.script) :
    ((run Folder.access env arguments).run d').1 = ((run Folder.access env arguments').run d).1 := by
  rw [run_eq hexport hs, run_eq hcompile hs, perform_exportBpmn, perform_compile, hstory, hscript]
  simp only [Except.bind, exported_script hg settings]
  cases compiled .bpmn settings story <;> rfl

end

end Command

/-! ## Main theorem -/

/-- A story with a form, a choice, a state that cannot be reached, and texts with quotes, a
    backslash, a tab and characters beyond ASCII. -/
def holidayStory : String :=
  "Flow: Grüße \"\\\" 🙂\nAsk {chef} for {urlaub}\nIf {tage}\t> 30\n  Stop\nStop\nDo: buchen"

/-- A folder with this story. -/
def holidayFolder : Folder := ⟨[(["story.txt"], Text.Utf8.encode holidayStory)]⟩

/-- The story is in the folder. -/
theorem text_holidayFolder : holidayFolder.text "story.txt" = .ok holidayStory := by
  have hread : holidayFolder.read (Path.normalize "story.txt") =
      .ok (Text.Utf8.encode holidayStory) := rfl
  have hnul : "story.txt".contains '\x00' = false := by cbv
  rw [Folder.text, hnul, if_neg Bool.false_ne_true, hread]
  exact Command.textOf_encode (by decide)

end Swimlane
