import Swimlane.Json.Basic
import Swimlane.Text.Quoted

/-!
# Values in messages

The notation in which ids, names and messages show a value that is not a text: `None`, `True`,
`1.5`, `['a', 1]`.  A text stands for itself, and inside of lists and objects it is quoted.
-/

namespace Swimlane.Json

mutual

/-- A value in the notation of messages, a text between quotes. -/
def literal : Json → String
  | null => "None"
  | bool true => "True"
  | bool false => "False"
  | int n => toString n
  | float x => x.text "nan" "inf"
  | str s => Text.quote s
  | arr items => "[" ++ literalItems items ++ "]"
  | obj members => "\x7b" ++ literalMembers members ++ "\x7d"

/-- The items of a list. -/
def literalItems : List Json → String
  | [] => ""
  | [v] => literal v
  | v :: w :: rest => literal v ++ ", " ++ literalItems (w :: rest)

/-- The members of an object. -/
def literalMembers : List (String × Json) → String
  | [] => ""
  | [(k, v)] => Text.quote k ++ ": " ++ literal v
  | (k, v) :: m :: rest => Text.quote k ++ ": " ++ literal v ++ ", " ++ literalMembers (m :: rest)

end

/-- A value as text: a text is itself. -/
def display : Json → String
  | str s => s
  | v => literal v

end Swimlane.Json
