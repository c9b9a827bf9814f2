import Swimlane.Report
import Swimlane.Story.Line
import Swimlane.Story.Sentence
import Swimlane.Story.Statement

/-!
# Reading a story

The statements of a story, read from its significant lines.  The first line is the header.  The
statements of a block have one indentation; the body of a branch is a block that stands deeper
than its `If` or `Otherwise`.
-/

namespace Swimlane.Story

/-- What is wrong with a line. -/
inductive Fault where
  | missingHeader
  | expectedHeader
  | nameRequired
  | duplicateHeader
  | malformedPlaceholder
  | otherwiseWithoutIf
  | unexpectedIndentation
  | unrecognized
  | expectedBlock
  deriving DecidableEq, Repr

/-- What a message says of a fault. -/
def Fault.text : Fault → String
  | missingHeader => "missing 'Flow: <name>' header"
  | expectedHeader => "expected 'Flow: <name>' as the first statement"
  | nameRequired => "flow name is required"
  | duplicateHeader => "duplicate flow header"
  | malformedPlaceholder => "malformed variable placeholder"
  | otherwiseWithoutIf => "'Otherwise' without matching 'If'"
  | unexpectedIndentation => "unexpected indentation"
  | unrecognized => "unrecognized statement"
  | expectedBlock => "expected an indented block"

/-- A fault and the line that has it. -/
structure Error where
  fault : Fault
  line : Nat
  text : String
  deriving DecidableEq, Repr

/-- The report of an unreadable line. -/
def Error.report (e : Error) : Report := .story e.fault.text (.int e.line) (.str e.text)

/-- The error of a line with the given fault. -/
def Line.error (l : Line) (fault : Fault) : Error := ⟨fault, l.number, l.text⟩

/-- The line as the source of a statement. -/
def Line.source (l : Line) : Source := ⟨l.number, l.text⟩

/-- The error of a line that no block can take. -/
def Line.misplaced (l : Line) : Error :=
  match Sentence.ofText? l.text with
  | some (.otherwise _) => l.error .otherwiseWithoutIf
  | _ => l.error .unexpectedIndentation

/-- The statement read from a line, unless one of its texts has a stray brace. -/
def checked (l : Line) (s : Statement) : Except Error Statement :=
  if s.isMalformed then .error (l.error .malformedPlaceholder) else .ok s

/-- The statement of a line that is not part of a conditional. -/
def simple (l : Line) : Sentence → Except Error Statement
  | .ask subject rest => checked l (.ask l.source subject (subject ++ " " ++ rest))
  | .perform action => checked l (.perform l.source action)
  | .send message recipient channel =>
    checked l (.send l.source message recipient (channel.getD (inferChannel message)))
  | .stop reason => checked l (.stop l.source reason)
  | .flow _ => .error (l.error .duplicateHeader)
  | .condition _ => .error (l.error .unrecognized)
  | .otherwise _ => .error (l.error .unrecognized)

/-- What was read from the front of some lines, and the lines behind it. -/
structure Parsed (α : Type) (ls : List Line) where
  value : α
  rest : List Line
  le : rest.length ≤ ls.length

mutual

/-- The statements of a block of the given indentation. -/
def block (indent : Nat) (ls : List Line) : Except Error (Parsed (List Statement) ls) :=
  match ls with
  | [] => .ok ⟨[], [], Nat.le_refl _⟩
  | l :: more =>
    if l.indent < indent then .ok ⟨[], l :: more, Nat.le_refl _⟩
    else if indent < l.indent then .error l.misplaced
    else match Sentence.ofText? l.text with
      | none => .error (l.error .unrecognized)
      | some (.otherwise _) => .ok ⟨[], l :: more, Nat.le_refl _⟩
      | some (.condition text) => do
        let ⟨s, rest, h⟩ ← conditional l text more
        let ⟨ss, last, h'⟩ ← block indent rest
        return ⟨s :: ss, last, by simp only [List.length_cons]; omega⟩
      | some sentence => do
        let s ← simple l sentence
        let ⟨ss, last, h⟩ ← block indent more
        return ⟨s :: ss, last, by simp only [List.length_cons]; omega⟩
termination_by (ls.length, 0)
decreasing_by
  all_goals (apply Prod.Lex.left; simp only [List.length_cons]; omega)

/-- The conditional that starts with the given line. -/
def conditional (head : Line) (condition : String) (ls : List Line) :
    Except Error (Parsed Statement ls) := do
  let ⟨first, rest, h⟩ ← body head ls
  let ⟨(branches, otherwise), last, h'⟩ ← alternatives head rest
  -- The conditions are checked last: a fault in a body is told first.
  let s ← checked head
    (.conditional head.source (⟨condition, first, head.number⟩ :: branches) otherwise)
  return ⟨s, last, by omega⟩
termination_by (ls.length, 2)
decreasing_by
  · apply Prod.Lex.right; omega
  · by_cases hlt : rest.length < ls.length
    · apply Prod.Lex.left; exact hlt
    · have : rest.length = ls.length := by omega
      rw [this]; apply Prod.Lex.right; omega

/-- The block under the given line. -/
def body (head : Line) (ls : List Line) : Except Error (Parsed (List Statement) ls) :=
  match ls with
  | [] => .error (head.error .expectedBlock)
  | l :: more =>
    if l.indent ≤ head.indent then .error (head.error .expectedBlock) else block l.indent (l :: more)
termination_by (ls.length, 1)
decreasing_by
  apply Prod.Lex.right; omega

/-- The branches of a conditional behind its first one, and its last body without condition. -/
def alternatives (head : Line) (ls : List Line) :
    Except Error (Parsed (List Branch × Option (List Statement)) ls) :=
  match ls with
  | [] => .ok ⟨([], none), [], Nat.le_refl _⟩
  | l :: more =>
    if l.indent ≠ head.indent then .ok ⟨([], none), l :: more, Nat.le_refl _⟩
    else match Sentence.ofText? l.text with
      | some (.otherwise (some condition)) => do
        let ⟨b, rest, h⟩ ← body l more
        let ⟨(branches, otherwise), last, h'⟩ ← alternatives head rest
        return ⟨(⟨condition, b, l.number⟩ :: branches, otherwise), last, by
          simp only [List.length_cons]; omega⟩
      | some (.otherwise none) => do
        let ⟨b, rest, h⟩ ← body l more
        return ⟨([], some b), rest, by simp only [List.length_cons]; omega⟩
      | _ => .ok ⟨([], none), l :: more, Nat.le_refl _⟩
termination_by (ls.length, 0)
decreasing_by
  all_goals (apply Prod.Lex.left; simp only [List.length_cons]; omega)

end

/-- The header statement of a story. -/
def headerOf (l : Line) : Except Error Statement :=
  match Sentence.ofText? l.text with
  | some (.flow name) =>
    if name = "" then .error (l.error .nameRequired) else checked l (.header l.source name)
  | _ => .error (l.error .expectedHeader)

/-- The statements of the story with the given significant lines, the header first. -/
def ofLines : List Line → Except Error (List Statement)
  | [] => .error ⟨.missingHeader, 1, ""⟩
  | l :: more => do
    let header ← headerOf l
    let ⟨statements, rest, _⟩ ← block l.indent more
    match rest with
    | [] => return header :: statements
    | leftover :: _ => .error leftover.misplaced

/-- The statements of a story, the header first. -/
def parse (story : String) : Except Error (List Statement) := ofLines (lines story)

end Swimlane.Story
