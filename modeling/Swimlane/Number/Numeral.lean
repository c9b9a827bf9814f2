import Swimlane.Number.Binary64
import Swimlane.Text.Blank
import Swimlane.Text.DecimalDigit

/-!
# Numerals

The texts that are accepted as an integer or as a double: white space around, a sign, decimal
digits of any script, single underscores between digits.  A double may have a point, an
exponent, or be the name of what is no finite number.
-/

namespace Swimlane.Numeral

/-- White space that may surround a numeral; the information separators may not. -/
def isMargin (c : Char) : Bool := Text.isBlank c && !(0x1c ≤ c.toNat && c.toNat ≤ 0x1f)

/-- The values of the digits of a text that has nothing but digits and single underscores
    between them. -/
def digits? : List Char → Option (List Nat)
  | [] => none
  | [c] => (Text.digitValue? c).map ([·])
  | c :: '_' :: rest => do
    let d ← Text.digitValue? c
    return d :: (← digits? rest)
  | c :: rest => do
    let d ← Text.digitValue? c
    return d :: (← digits? rest)

/-- The number that decimal digits denote. -/
def ofDigits (ds : List Nat) : Nat := ds.foldl (fun n d => 10 * n + d) 0

/-- The most digits that an integer may be written with. -/
def maxDigits : Nat := 4300

/-- The sign of a text, negative or not, and what follows it. -/
def sign : List Char → Bool × List Char
  | '-' :: rest => (true, rest)
  | '+' :: rest => (false, rest)
  | cs => (false, cs)

/-- An integer with the given sign. -/
def signed (negative : Bool) (n : Nat) : Int := if negative then -n else n

/-- The integer that a text denotes. -/
def integer? (s : String) : Option Int := do
  let (negative, cs) := sign (Text.trimBy isMargin s.toList)
  let ds ← digits? cs
  if ds.length ≤ maxDigits then some (signed negative (ofDigits ds)) else none

/-- The digits of a part of a numeral that may be empty. -/
def part? (cs : List Char) : Option (List Nat) := if cs.isEmpty then some [] else digits? cs

/-- The power of ten behind the exponent mark, zero if there is none. -/
def power? : List Char → Option Int
  | [] => some 0
  | _ :: cs => do
    let (negative, cs) := sign cs
    return signed negative (ofDigits (← digits? cs))

/-- The double that an unsigned decimal denotes. -/
def decimal? (negative : Bool) (cs : List Char) : Option Binary64 := do
  let (mantissa, exponent) := cs.span fun c => c != 'e' && c != 'E'
  let (whole, fraction) := mantissa.span (· != '.')
  let ds ← part? whole
  let fs ← part? (fraction.drop 1)
  let e ← power? exponent
  if ds.isEmpty && fs.isEmpty then none
  else some (Binary64.ofDecimal negative (ofDigits (ds ++ fs)) (e - fs.length))

/-- The double that a text denotes. -/
def double? (s : String) : Option Binary64 :=
  let (negative, cs) := sign (Text.trimBy isMargin s.toList)
  let name := String.ofList (cs.map Char.toLower)
  if name = "nan" then some .nan
  else if name = "inf" || name = "infinity" then some (.infinite negative)
  else decimal? negative cs

end Swimlane.Numeral
