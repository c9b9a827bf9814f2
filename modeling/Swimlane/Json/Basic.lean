import Swimlane.Assoc
import Swimlane.Number.Shortest

/-!
# JSON values

The values of the JSON data format.  Members of an object keep the order in which they were
written, and integers are told from numbers with a fraction.
-/

namespace Swimlane

/-- A JSON value. -/
inductive Json where
  | null
  | bool (value : Bool)
  | int (value : Int)
  | float (value : Binary64)
  | str (value : String)
  | arr (items : List Json)
  | obj (members : List (String × Json))
  deriving Repr, Inhabited

namespace Json

/-- The member of an object with a given name. -/
def get? (v : Json) (key : String) : Option Json :=
  match v with
  | obj members => Assoc.get? key members
  | _ => none

/-- The member of an object, or a default when there is none. -/
def getD (v : Json) (key : String) (default : Json) : Json := (v.get? key).getD default

/-- Whether a value counts as given: not null, false, zero, or empty. -/
def isGiven : Json → Bool
  | null => false
  | bool b => b
  | int n => n != 0
  | float x => !x.isZero
  | str s => s != ""
  | arr items => !items.isEmpty
  | obj members => !members.isEmpty

/-- Whether a value is null. -/
def isNull : Json → Bool
  | null => true
  | _ => false

/-- Whether a value is the given text. -/
def isText (s : String) : Json → Bool
  | str t => s == t
  | _ => false

/-- Whether a value may name something: lists and objects may not. -/
def isName : Json → Bool
  | arr _ => false
  | obj _ => false
  | _ => true

/-- The integer that a value counts as: truth values count as one and zero. -/
def asInt? : Json → Option Int
  | bool b => some (if b then 1 else 0)
  | int n => some n
  | float x => x.toInt?
  | _ => none

/-- Whether two values are the same name.  Numbers are compared by value. -/
def sameName : Json → Json → Bool
  | str s, str t => s == t
  | null, null => true
  | v, w =>
    match v.asInt?, w.asInt? with
    | some m, some n => m == n
    | none, none =>
      match v, w with
      | float x, float y => x == y
      | _, _ => false
    | _, _ => false

/-- Values are compared as names. -/
instance : BEq Json := ⟨sameName⟩

/-- The name of a value's type in messages. -/
def typeName : Json → String
  | null => "NoneType"
  | bool _ => "bool"
  | int _ => "int"
  | float _ => "float"
  | str _ => "str"
  | arr _ => "list"
  | obj _ => "dict"

end Json

end Swimlane
