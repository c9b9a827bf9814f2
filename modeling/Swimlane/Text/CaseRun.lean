import Swimlane.Text.CodeRange

/-!
# Case runs

Letters whose other case lies at one distance, every one or every other code point of an
interval, are one run of a case table.
-/

namespace Swimlane.Text

/-- The code points `first`, `first + step`, … up to `last`, each mapped `shift` further. -/
structure CaseRun where
  first : Nat
  last : Nat
  step : Nat
  shift : Int
  deriving Repr

/-- Whether a code point is one of the run. -/
def CaseRun.covers (r : CaseRun) (n : Nat) : Bool :=
  r.first ≤ n && n ≤ r.last && (n - r.first) % r.step == 0

/-- The character in the case of the table; a character that no run covers stays. -/
def CaseRun.apply (table : List CaseRun) (c : Char) : Char :=
  match table.find? (·.covers c.toNat) with
  | some r => Char.ofNat (c.toNat + r.shift).toNat
  | none => c

end Swimlane.Text
