/-!
# Base64

Bytes as characters of six bits each.  Characters outside the alphabet are passed over, and
missing padding is made up for; a text that still does not close its last quantum stands for
itself.
-/

namespace Swimlane.Text.Base64

/-- The six bits of a character. -/
def value? (c : Char) : Option Nat :=
  if 'A' ≤ c && c ≤ 'Z' then some (c.toNat - 'A'.toNat)
  else if 'a' ≤ c && c ≤ 'z' then some (c.toNat - 'a'.toNat + 26)
  else if '0' ≤ c && c ≤ '9' then some (c.toNat - '0'.toNat + 52)
  else if c = '+' then some 62
  else if c = '/' then some 63
  else none

/-- The bytes of a text, given the bits left over from a quantum, how many of its characters were
    read, and how much padding was seen.  Padding that completes a quantum ends the text. -/
def bytesFrom (left read pads : Nat) : List Char → Option (List Nat)
  | [] => if read = 0 then some [] else none
  | '=' :: cs =>
    if 2 ≤ read then
      if 4 ≤ read + pads + 1 then some [] else bytesFrom left read (pads + 1) cs
    else bytesFrom left read pads cs
  | c :: cs =>
    match value? c with
    | none => bytesFrom left read pads cs
    | some v =>
      match read with
      | 0 => bytesFrom v 1 0 cs
      | 1 => (bytesFrom (v % 16) 2 0 cs).map ((left * 4 + v / 16) :: ·)
      | 2 => (bytesFrom (v % 4) 3 0 cs).map ((left * 16 + v / 4) :: ·)
      | _ => (bytesFrom 0 0 0 cs).map ((left * 64 + v) :: ·)

/-- The bytes of a text that closes its last quantum. -/
def bytes? (cs : List Char) : Option (List Nat) := bytesFrom 0 0 0 cs

/-- Whether a text has nothing but characters of the alphabet and padding behind them. -/
def isClean (cs : List Char) : Bool := (cs.dropWhile fun c => (value? c).isSome).all (· == '=')

/-- The padding that fills up the last quantum. -/
def missing (cs : List Char) : List Char := List.replicate ((4 - cs.length % 4) % 4) '='

/-- The bytes of a text. -/
def decode (cs : List Char) : List Nat :=
  let whole := if isClean cs then bytes? (cs ++ missing cs) else none
  ((whole <|> bytes? cs) <|> bytes? (cs ++ ['=', '='])).getD (cs.map Char.toNat)

end Swimlane.Text.Base64
