/-!
# Surrogates

A character beyond the basic plane is written as two code units, the halves of a pair.  A half
alone stands for no character.
-/

namespace Swimlane.Text.Surrogate

/-- The first half of a pair. -/
def isHigh (n : Nat) : Bool := 0xd800 ≤ n && n < 0xdc00

/-- The second half of a pair. -/
def isLow (n : Nat) : Bool := 0xdc00 ≤ n && n < 0xe000

/-- Either half of a pair. -/
def isHalf (n : Nat) : Bool := isHigh n || isLow n

/-- The character of a pair. -/
def ofPair (high low : Nat) : Char :=
  Char.ofNat (0x10000 + (high - 0xd800) * 0x400 + (low - 0xdc00))

/-- The character of one code unit; a half is replaced. -/
def ofUnit (n : Nat) : Char := if isHalf n then '�' else Char.ofNat n

end Swimlane.Text.Surrogate
