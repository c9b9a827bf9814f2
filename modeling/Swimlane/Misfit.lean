import Swimlane.Json.Basic
import Swimlane.Text.Quoted

/-!
# Misfits

Documents are taken as they come, so a value may turn out not to fit its use.  A misfit says
what was asked of the value.  The readers of values here refuse with one.
-/

namespace Swimlane

/-- A value that does not fit its use. -/
inductive Misfit where
  /-- An object lacks a member. -/
  | noMember (key : String)
  /-- A value of the named type has no members. -/
  | noMembers (type : String)
  /-- A value of the named type has no items. -/
  | noItems (type : String)
  /-- A value other than an object was asked for an optional member. -/
  | notObject
  /-- A value other than a text was used as a text. -/
  | notText
  /-- A value other than a text was searched for placeholders. -/
  | notSearchable
  /-- A list or an object was used as a name. -/
  | notName
  /-- An integer is beyond the range of doubles. -/
  | outOfRange
  /-- An integer has too many digits. -/
  | longInteger
  deriving DecidableEq, Repr

/-- What a message says of a misfit in a form. -/
def Misfit.text : Misfit → String
  | noMember key => Text.quote key
  | noMembers "str" => "string indices must be integers, not 'str'"
  | noMembers "list" => "list indices must be integers or slices, not str"
  | noMembers type => s!"'{type}' object is not subscriptable"
  | noItems type => s!"'{type}' object is not iterable"
  | notObject => "not an object"
  | notText => "not a text"
  | notSearchable => "expected string or bytes-like object"
  | notName => "unhashable type"
  | outOfRange => "int too large to convert to float"
  | longInteger => "integer with too many digits"

namespace Json

/-- A member that must be there. -/
def member (v : Json) (key : String) : Except Misfit Json :=
  match v with
  | obj members =>
    match Assoc.get? key members with
    | some w => .ok w
    | none => .error (.noMember key)
  | v => .error (.noMembers v.typeName)

/-- A member that may be missing, of a value that must be an object. -/
def optional (v : Json) (key : String) (default : Json) : Except Misfit Json :=
  match v with
  | obj _ => .ok (v.getD key default)
  | _ => .error .notObject

/-- The items of a value: of a text its characters, of an object the names of its members. -/
def items : Json → Except Misfit (List Json)
  | arr vs => .ok vs
  | str s => .ok (s.toList.map fun c => str (String.singleton c))
  | obj members => .ok (members.map fun (k, _) => str k)
  | v => .error (.noItems v.typeName)

/-- The text that a value is. -/
def asText : Json → Except Misfit String
  | str s => .ok s
  | _ => .error .notText

/-- The text to be searched for placeholders. -/
def asSearchable : Json → Except Misfit String
  | str s => .ok s
  | _ => .error .notSearchable

end Json

end Swimlane
