import Swimlane.Json.Basic
import Swimlane.Text.Quoted

/-!
# JSON text

Values are written on one line, or indented by two spaces per level.  Only quotes, backslashes
and control characters are escaped; a text for the wire escapes everything beyond ASCII too.
-/

namespace Swimlane.Json

/-- How the parts of a value are set. -/
structure Style where
  /-- What stands between two items on one line. -/
  itemGap : List Char
  /-- What stands between a name and its value. -/
  nameGap : List Char
  /-- Whether characters beyond ASCII are escaped. -/
  asciiOnly : Bool

/-- No blanks at all. -/
def Style.dense : Style := ⟨[','], [':'], false⟩

/-- A blank behind commas and colons, in ASCII. -/
def Style.wire : Style := ⟨[',', ' '], [':', ' '], true⟩

/-- A code unit as an escape of four hexadecimal digits. -/
def unitEscape (n : Nat) : List Char := '\\' :: 'u' :: Text.hexDigits 4 n

/-- A character beyond ASCII as one escape, or as two beyond the basic plane. -/
def wideEscape (c : Char) : List Char :=
  if c.toNat < 0x10000 then unitEscape c.toNat
  else
    let n := c.toNat - 0x10000
    unitEscape (0xd800 + n / 0x400) ++ unitEscape (0xdc00 + n % 0x400)

/-- One character of a JSON string. -/
def escapeChar (asciiOnly : Bool) (c : Char) : List Char :=
  if c == '"' then ['\\', '"']
  else if c == '\\' then ['\\', '\\']
  else if c == '\n' then ['\\', 'n']
  else if c == '\r' then ['\\', 'r']
  else if c == '\t' then ['\\', 't']
  else if c == '\x08' then ['\\', 'b']
  else if c == '\x0c' then ['\\', 'f']
  else if c.toNat < 0x20 then unitEscape c.toNat
  else if asciiOnly && 0x7f < c.toNat then wideEscape c
  else [c]

/-- A text as a JSON string. -/
def stringChars (asciiOnly : Bool) (s : String) : List Char :=
  '"' :: s.toList.flatMap (escapeChar asciiOnly) ++ ['"']

/-- A number with a fraction as JSON text. -/
def floatText (x : Binary64) : String := x.text "NaN" "Infinity"

/-- A value without parts. -/
def scalarChars (asciiOnly : Bool) : Json → List Char
  | null => "null".toList
  | bool true => "true".toList
  | bool false => "false".toList
  | int n => (toString n).toList
  | float x => (floatText x).toList
  | str s => stringChars asciiOnly s
  | arr _ => []
  | obj _ => []

mutual

/-- A value on one line. -/
def lineChars (style : Style) : Json → List Char
  | arr items => '[' :: lineItems style items ++ [']']
  | obj members => '{' :: lineMembers style members ++ ['}']
  | v => scalarChars style.asciiOnly v

/-- The items of a list on one line. -/
def lineItems (style : Style) : List Json → List Char
  | [] => []
  | [v] => lineChars style v
  | v :: w :: rest => lineChars style v ++ style.itemGap ++ lineItems style (w :: rest)

/-- The members of an object on one line. -/
def lineMembers (style : Style) : List (String × Json) → List Char
  | [] => []
  | [(k, v)] => stringChars style.asciiOnly k ++ style.nameGap ++ lineChars style v
  | (k, v) :: m :: rest =>
    stringChars style.asciiOnly k ++ style.nameGap ++ lineChars style v ++ style.itemGap ++
      lineMembers style (m :: rest)

end

/-- A new line at the given level. -/
def newLine (level : Nat) : List Char := '\n' :: List.replicate (2 * level) ' '

mutual

/-- A value over several lines, at the given level. -/
def blockChars (level : Nat) : Json → List Char
  | arr [] => ['[', ']']
  | arr (v :: rest) =>
    '[' :: newLine (level + 1) ++ blockChars (level + 1) v ++ blockItems (level + 1) rest ++
      newLine level ++ [']']
  | obj [] => ['{', '}']
  | obj ((k, v) :: rest) =>
    '{' :: newLine (level + 1) ++ stringChars false k ++ ':' :: ' ' :: blockChars (level + 1) v ++
      blockMembers (level + 1) rest ++ newLine level ++ ['}']
  | v => scalarChars false v

/-- The items behind the first one, each on a line of its own. -/
def blockItems (level : Nat) : List Json → List Char
  | [] => []
  | v :: rest => ',' :: newLine level ++ blockChars level v ++ blockItems level rest

/-- The members behind the first one, each on a line of its own. -/
def blockMembers (level : Nat) : List (String × Json) → List Char
  | [] => []
  | (k, v) :: rest =>
    ',' :: newLine level ++ stringChars false k ++ ':' :: ' ' :: blockChars level v ++
      blockMembers level rest

end

/-- A value as the name of a member. -/
def memberName : Json → String
  | str s => s
  | v => String.ofList (scalarChars true v)

/-- The text of a value without blanks. -/
def dense (v : Json) : String := String.ofList (lineChars .dense v)

/-- The text of a value on one line, in ASCII. -/
def wire (v : Json) : String := String.ofList (lineChars .wire v)

/-- The text of a value over several lines. -/
def pretty (v : Json) : String := String.ofList (blockChars 0 v)

end Swimlane.Json
