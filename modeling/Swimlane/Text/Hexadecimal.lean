/-!
# Hexadecimal digits
-/

namespace Swimlane.Text

/-- The value of a hexadecimal digit. -/
def hexValue? (c : Char) : Option Nat :=
  if '0' ≤ c && c ≤ '9' then some (c.toNat - '0'.toNat)
  else if 'a' ≤ c && c ≤ 'f' then some (c.toNat - 'a'.toNat + 10)
  else if 'A' ≤ c && c ≤ 'F' then some (c.toNat - 'A'.toNat + 10)
  else none

/-- The byte that two hexadecimal digits denote. -/
def hexByte? (a b : Char) : Option Nat := do
  return (← hexValue? a) * 16 + (← hexValue? b)

end Swimlane.Text
