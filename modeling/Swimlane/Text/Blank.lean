import Swimlane.Text.CodeRange

/-!
# Blank characters

White space, trimming, and the words of a text that white space divides.
-/

namespace Swimlane.Text

/-- The white space characters.  The zero width space and the byte order mark are not blank. -/
def blankRanges : List (Nat × Nat) :=
  [
    (9, 13), (28, 32), (133, 133), (160, 160), (5760, 5760), (8192, 8202), (8232, 8233),
    (8239, 8239), (8287, 8287), (12288, 12288)
  ]

/-- White space. -/
def isBlank (c : Char) : Bool := inRanges c.toNat blankRanges

/-- The text without the leading and trailing characters of a class. -/
def trimBy (p : Char → Bool) (cs : List Char) : List Char :=
  ((cs.dropWhile p).reverse.dropWhile p).reverse

/-- The text without its trailing characters of a class. -/
def trimEndBy (p : Char → Bool) (cs : List Char) : List Char :=
  (cs.reverse.dropWhile p).reverse

/-- The text without surrounding white space. -/
def trim (cs : List Char) : List Char := trimBy isBlank cs

/-- The text behind its leading white space. -/
def dropBlank (cs : List Char) : List Char := cs.dropWhile isBlank

/-- The maximal non-empty pieces of a text without characters of a class. -/
def pieces (p : Char → Bool) (cs : List Char) : List (List Char) :=
  (cs.splitOnP p).filter (!·.isEmpty)

/-- The words of a text that white space divides. -/
def blankWords (cs : List Char) : List (List Char) := pieces isBlank cs

/-- Whether the first text occurs somewhere in the second. -/
def occursIn (part : List Char) : List Char → Bool
  | [] => part.isEmpty
  | c :: cs => part.isPrefixOf (c :: cs) || occursIn part cs

end Swimlane.Text
