import Swimlane.Number.Numeral
import Swimlane.Text.Blank
import Swimlane.Text.LowerCase

/-!
# Continued parameters

A written field is divided by the semicolons that stand in no quoted text.  A part whose name ends
with a star, or with a star and a number, is a piece of a continued parameter; the pieces of one
name are put in order by their numbers.
-/

namespace Swimlane.Http.Continuation

/-- The parts of a field, given whether a quoted text is open and the character before.  A
    quotation mark behind a backslash neither opens nor closes one. -/
def parts (isQuoted : Bool) (before : Char) : List Char → List (List Char)
  | [] => [[]]
  | c :: rest =>
    if c = ';' && !isQuoted then [] :: parts false ' ' rest
    else
      let turns := c == '"' && before != '\\'
      match parts (if turns then !isQuoted else isQuoted) c rest with
      | part :: more => (c :: part) :: more
      | [] => [[c]]

/-- The name of a part: what stands before its equals sign, or all of it. -/
def name (part : List Char) : List Char :=
  if part.contains '=' then Text.lower (Text.trim (part.takeWhile (· != '='))) else Text.trim part

/-- A piece of a continued parameter. -/
structure Piece where
  name : List Char
  /-- The digits of its number, if it has one. -/
  digits : Option (List Char)

/-- The piece that a name denotes. -/
def piece? (name : List Char) : Option Piece :=
  match name.span fun c => c.isAlphanum || c == '_' with
  | (base@(_ :: _), '*' :: rest) =>
    match rest.span Char.isDigit with
    | ([], []) => some ⟨base, none⟩
    | (digits@(_ :: _), []) => some ⟨base, some digits⟩
    | (digits@(_ :: _), ['*']) => some ⟨base, some digits⟩
    | _ => none
  | _ => none

/-- Whether two pieces can be put in order: those of one name both have a number, or none has. -/
def areComparable (p q : Piece) : Bool := p.name != q.name || p.digits.isSome == q.digits.isSome

/-- Whether the parameters behind the first part of a field can be put together: no number has
    too many digits, and the pieces of each name can be put in order. -/
def canJoin (field : List Char) : Bool :=
  let pieces := ((parts false ' ' field).drop 1).filterMap (piece? <| name ·)
  pieces.all fun p =>
    (p.digits.map (·.length)).getD 0 ≤ Numeral.maxDigits && pieces.all (areComparable p)

end Swimlane.Http.Continuation
