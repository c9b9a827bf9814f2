import Swimlane.Placeholder

/-!
# Statements

What a story says, as a tree: a conditional holds the statements of its branches.
-/

namespace Swimlane.Story

/-- The line that a statement was read from. -/
structure Source where
  line : Int
  text : String
  deriving DecidableEq, Repr

mutual

/-- A statement of a story. -/
inductive Statement where
  | header (source : Source) (name : String)
  | ask (source : Source) (subject prompt : String)
  | perform (source : Source) (action : String)
  | send (source : Source) (message recipient channel : String)
  | stop (source : Source) (reason : String)
  | conditional (source : Source) (branches : List Branch) (otherwise : Option (List Statement))
  /-- A statement of a kind that no story has. -/
  | foreign (source : Source) (kind : String)

/-- A branch of a conditional. -/
structure Branch where
  condition : String
  body : List Statement
  line : Nat

end

namespace Statement

/-- The line of a statement. -/
def source : Statement → Source
  | header s _ => s
  | ask s _ _ => s
  | perform s _ => s
  | send s _ _ _ => s
  | stop s _ => s
  | conditional s _ _ => s
  | foreign s _ => s

/-- The name of the kind of a statement. -/
def kind : Statement → String
  | header .. => "flowHeader"
  | ask .. => "ask"
  | perform .. => "do"
  | send .. => "send"
  | stop .. => "stop"
  | conditional .. => "conditional"
  | foreign _ kind => kind

/-- The texts of a statement in which variables may be mentioned. -/
def parts : Statement → List String
  | header _ name => [name]
  | ask _ _ prompt => [prompt]
  | perform _ action => [action]
  | send _ message recipient _ => [message, recipient]
  | stop _ reason => [reason]
  | conditional _ branches _ => branches.map (·.condition)
  | foreign .. => []

/-- The variables that a statement itself mentions, in the order of their first mention. -/
def mentioned (s : Statement) : List String := Placeholder.names (" ".intercalate s.parts)

/-- Whether a text of the statement has a brace outside of every placeholder. -/
def isMalformed (s : Statement) : Bool := s.parts.any Placeholder.hasStrayBrace

end Statement

end Swimlane.Story
