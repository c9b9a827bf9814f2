/-!
# Lines

A text is cut into lines at every line boundary character; a carriage return and a line feed
in a row are one boundary.  Tabs advance to the next multiple of four columns.
-/

namespace Swimlane.Text

/-- The characters that end a line. -/
def isLineBreak (c : Char) : Bool :=
  c == '\n' || c == '\r' || c == '\x0b' || c == '\x0c' || c == '\x1c' || c == '\x1d' ||
    c == '\x1e' || c == '\u0085' || c == '\u2028' || c == '\u2029'

/-- The lines of a text, without their ends.  A boundary at the end of the text opens no
    further line. -/
def lines : List Char → List (List Char)
  | [] => []
  | '\r' :: '\n' :: rest => [] :: lines rest
  | c :: rest =>
    if isLineBreak c then [] :: lines rest
    else match lines rest with
      | [] => [[c]]
      | line :: more => (c :: line) :: more

/-- The columns between two tab stops. -/
def tabSize : Nat := 4

/-- Tabs written as spaces, in a line whose next column is `column`. -/
def expandTabs (column : Nat) : List Char → List Char
  | [] => []
  | c :: rest =>
    if c = '\t' then
      List.replicate (tabSize - column % tabSize) ' ' ++
        expandTabs (column + (tabSize - column % tabSize)) rest
    else c :: expandTabs (column + 1) rest

/-- A text in which every line ends alike. -/
def unifyLineEnds : List Char → List Char
  | [] => []
  | '\r' :: '\n' :: cs => '\n' :: unifyLineEnds cs
  | '\r' :: cs => '\n' :: unifyLineEnds cs
  | c :: cs => c :: unifyLineEnds cs

end Swimlane.Text
