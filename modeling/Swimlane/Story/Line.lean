import Swimlane.Text.Blank
import Swimlane.Text.Lines
import Swimlane.Text.Quoted

/-!
# Significant lines

A story is read line by line.  Blank lines and comments are dropped; of every other line its
number, its indentation and its text without surrounding white space are kept.
-/

namespace Swimlane.Story

/-- A significant line of a story. -/
structure Line where
  /-- The number of the line in the text, counted from one. -/
  number : Nat
  /-- The number of spaces in front, tabs expanded. -/
  indent : Nat
  text : String
  deriving DecidableEq, Repr

/-- Whether a trimmed line is a comment. -/
def isComment (cs : List Char) : Bool := ['#'].isPrefixOf cs || ['/', '/'].isPrefixOf cs

/-- The significant line in a raw line, if it is one. -/
def Line.ofRaw? (number : Nat) (raw : List Char) : Option Line :=
  let expanded := Text.expandTabs 0 raw
  let text := Text.trim expanded
  if text.isEmpty || isComment text then none
  else some ⟨number, (expanded.takeWhile (· == ' ')).length, String.ofList text⟩

/-- The significant lines among raw lines, the first of which has the given number. -/
def significant (number : Nat) : List (List Char) → List Line
  | [] => []
  | raw :: rest =>
    match Line.ofRaw? number raw with
    | some line => line :: significant (number + 1) rest
    | none => significant (number + 1) rest

/-- The significant lines of a story. -/
def lines (story : String) : List Line := significant 1 (Text.lines story.toList)

/-- A line as it is written in diagnostics. -/
def Line.literal (l : Line) : String := s!"Line({l.number}, {l.indent}, " ++ Text.quote l.text ++ ")"

end Swimlane.Story
