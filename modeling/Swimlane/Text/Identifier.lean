import Swimlane.Text.Blank
import Swimlane.Text.LowerCase
import Swimlane.Text.UpperCase

/-!
# Identifiers and labels

Names in snake, kebab or camel case are cut into words; labels are words with capitals; slugs
and XML ids are identifiers in ASCII.
-/

namespace Swimlane.Text

/-! ## Words of a name -/

/-- Whether a new word of a camel case name starts between `a` and `b`, which `next` follows: a
    capital behind a small letter or a digit, or the last of several capitals. -/
def isCamelBoundary (a b : Char) (next : Option Char) : Bool :=
  b.isUpper && (a.isLower || a.isDigit || (a.isUpper && (next.map Char.isLower).getD false))

/-- The name with a blank at every camel case boundary. -/
def spaceCamel : List Char → List Char
  | a :: b :: rest =>
    if isCamelBoundary a b rest.head? then a :: ' ' :: spaceCamel (b :: rest)
    else a :: spaceCamel (b :: rest)
  | cs => cs

/-- The characters that divide the words of a name. -/
def isSeparator (c : Char) : Bool := isBlank c || c == '_' || c == '.' || c == '-'

/-- The words of a name. -/
def nameWords (cs : List Char) : List (List Char) := pieces isSeparator (spaceCamel cs)

/-- The words of a name. -/
def words (name : String) : List String := (nameWords name.toList).map String.ofList

/-- A word with a capital first letter and small letters behind it. -/
def capitalize : List Char → List Char
  | [] => []
  | c :: cs => upperChar c ++ lower cs

/-- The label of a name: its words, each with a capital. -/
def label (name : String) : String :=
  " ".intercalate ((nameWords name.toList).map fun w => String.ofList (capitalize w))

/-! ## Slugs -/

/-- ASCII letters and digits. -/
def isSlugChar (c : Char) : Bool := c.isAlphanum

/-- The slug words of a text: its maximal runs of ASCII letters and digits, in lower case. -/
def slugWords (cs : List Char) : List (List Char) := pieces (!isSlugChar ·) (lower cs)

/-- The first `limit` characters; a negative limit counts from the end. -/
def takeWithin (limit : Int) (cs : List Char) : List Char :=
  cs.take (if limit < 0 then cs.length + limit else limit).toNat

/-- The slug of a text, cut to a limit, without an underscore at its end. -/
def slugWithin (limit : Int) (s : String) : String :=
  let joined := ['_'].intercalate (slugWords s.toList)
  String.ofList (trimEndBy (· == '_') (takeWithin limit joined))

/-- The length to which slugs are cut. -/
def slugLimit : Int := 40

/-- The slug of a text: lower-case ASCII words joined by underscores. -/
def slug (s : String) : String := slugWithin slugLimit s

/-! ## XML ids -/

/-- ASCII letters, digits and the underscore. -/
def isXmlIdChar (c : Char) : Bool := c.isAlphanum || c == '_'

/-- Every run of other characters as one underscore; `inRun` says that such a run has begun. -/
def squash (inRun : Bool) : List Char → List Char
  | [] => []
  | c :: cs =>
    if isXmlIdChar c then c :: squash false cs
    else if inRun then squash true cs
    else '_' :: squash true cs

/-- The characters of the XML id of a text. -/
def xmlIdChars (cs : List Char) : List Char :=
  match trimBy (· == '_') (squash false cs) with
  | [] => ['x']
  | id => id

/-- A text made fit for an XML id. -/
def xmlId (s : String) : String := String.ofList (xmlIdChars s.toList)

end Swimlane.Text
