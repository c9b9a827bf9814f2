import Swimlane.Placeholder

/-!
# Expressions

Conditions and assignees in the expression language of process engines, where a variable stands
by its bare name.
-/

namespace Swimlane.Bpmn

/-- The expression of a condition: placeholders become bare names. -/
def conditionExpression (condition : String) : String :=
  "= " ++ String.ofList (Text.trim (Placeholder.bare condition.toList))

/-- The expression of an assignee: a placeholder becomes an expression, a name stays. -/
def assigneeExpression (assignee : String) : String :=
  match Placeholder.whole? assignee with
  | some name => "=" ++ name
  | none => assignee

end Swimlane.Bpmn
