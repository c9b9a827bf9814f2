import Swimlane.Number.Binary64

/-!
# Shortest decimals

A double is written with the fewest decimal digits that read back as the same double; of two
such decimals the nearer one is taken, at a tie the even one.  Numbers from `0.0001` up to
sixteen digits before the point are written positionally, others with an exponent.
-/

namespace Swimlane.Binary64

/-- The place of the decimal point: `10 ^ (p - 1) ≤ num / den < 10 ^ p`. -/
def pointPlace (num den : Nat) : Int :=
  let p : Int := (digitCount num : Int) - digitCount den
  let (n, d) := scaled 10 num den p
  if n < d then p else p + 1

/-- Of the two decimals with last place `10 ^ place` around `num / den`, the nearer one that reads
    back as `x`; at a tie the even one. -/
def neighbour? (x : Binary64) (num den : Nat) (place : Int) : Option Nat :=
  let (n, d) := scaled 10 num den place
  let low := n / d
  let readsBack (digits : Nat) := decide (ofDecimal false digits place = x)
  match readsBack low, readsBack (low + 1) with
  | true, true => some (roundHalfEven n d)
  | true, false => some low
  | false, true => some (low + 1)
  | false, false => none

/-- The first decimal that reads back as `x`, trying `count` digits, then one more, at most
    `more` times. -/
def shortestFrom (x : Binary64) (num den : Nat) (point : Int) (count : Nat) : Nat → Nat × Int
  | 0 => (num, 0)
  | more + 1 =>
    let place := point - count
    match neighbour? x num den place with
    | some digits => (digits, place)
    | none => shortestFrom x num den point (count + 1) more

/-- Digits and exponent of the shortest decimal of a positive finite double. -/
def shortest (mantissa : Nat) (exponent : Int) : Nat × Int :=
  let (num, den) := ratio mantissa exponent
  shortestFrom (finite false mantissa exponent) num den (pointPlace num den) 1 17

/-- The digits without trailing zeros, one of them kept. -/
def significant (digits : Nat) : List Char :=
  match ((Nat.toDigits 10 digits).reverse.dropWhile (· == '0')).reverse with
  | [] => ['0']
  | ds => ds

/-- The digits with the decimal point at the given place. -/
def positional (ds : List Char) (point : Int) : List Char :=
  if point ≤ 0 then '0' :: '.' :: List.replicate (-point).toNat '0' ++ ds
  else if ds.length ≤ point.toNat then
    ds ++ List.replicate (point.toNat - ds.length) '0' ++ ['.', '0']
  else ds.take point.toNat ++ '.' :: ds.drop point.toNat

/-- The digits with the point behind the first one and a signed exponent of two digits or more. -/
def scientific (ds : List Char) (point : Int) : List Char :=
  let e := point - 1
  let size := Nat.toDigits 10 e.natAbs
  let fraction := if ds.length ≤ 1 then [] else '.' :: ds.drop 1
  ds.take 1 ++ fraction ++ 'e' :: (if e < 0 then '-' else '+') ::
    List.replicate (2 - size.length) '0' ++ size

/-- The text of a finite magnitude. -/
def magnitudeText (mantissa : Nat) (exponent : Int) : List Char :=
  if mantissa = 0 then ['0', '.', '0']
  else
    let (digits, place) := shortest mantissa exponent
    let ds := significant digits
    let point := (digitCount digits : Int) + place
    if -4 < point && point ≤ 16 then positional ds point else scientific ds point

/-- The text of a double, with the given names for what is no finite number. -/
def text (nanName infinityName : String) : Binary64 → String
  | nan => nanName
  | infinite negative => if negative then "-" ++ infinityName else infinityName
  | finite negative m e =>
    String.ofList (if negative then '-' :: magnitudeText m e else magnitudeText m e)

end Swimlane.Binary64
