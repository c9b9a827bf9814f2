import Swimlane.Graph.OfStory

/-!
# What stories and graphs mean

A run of a flow performs actions and ends with a reason.  Statements and graphs are each given
runs of their own.  Statements run in their structured order: a conditional runs the body of its
first branch whose condition holds, and then the run goes on behind it.  A graph is walked from
state to state along its edges.  Which conditions hold is said by a valuation, which sees the
condition and the actions performed so far.
-/

namespace Swimlane

/-- An action with its texts. -/
inductive Action where
  | ask (prompt assignee : String)
  | perform (action : String)
  | send (channel recipient message : String)
  deriving DecidableEq, Repr

/-- Which conditions hold, given the actions performed so far. -/
abbrev Valuation := List Action → String → Bool

/-- How a run ends: what it has done, and the reason for its end. -/
structure Ending where
  trace : List Action
  reason : String
  deriving DecidableEq, Repr

/-- Where a run stands behind some statements: it goes on there, or it has ended before. -/
inductive Progress where
  | onward (trace : List Action)
  | ended (ending : Ending)
  deriving DecidableEq, Repr

/-! ## Statements -/

namespace Story

mutual

/-- Runs a statement.  A header does nothing, and neither does a statement of a kind that no
    story has. -/
def runOne (holds : Valuation) (trace : List Action) : Statement → Progress
  | .ask _ subject prompt => .onward (trace ++ [.ask prompt subject])
  | .perform _ action => .onward (trace ++ [.perform action])
  | .send _ message recipient channel => .onward (trace ++ [.send channel recipient message])
  | .stop _ reason => .ended ⟨trace, reason⟩
  | .conditional _ branches none => runBranches holds trace (.onward trace) branches
  | .conditional _ branches (some body) =>
    runBranches holds trace (runAll holds trace body) branches
  | .header .. => .onward trace
  | .foreign .. => .onward trace

/-- Runs statements one after the other, until one of them ends the run. -/
def runAll (holds : Valuation) (trace : List Action) : List Statement → Progress
  | [] => .onward trace
  | s :: rest =>
    match runOne holds trace s with
    | .onward trace => runAll holds trace rest
    | .ended ending => .ended ending

/-- Runs the body of the first branch whose condition holds.  If there is none, the last resort
    tells where the run stands. -/
def runBranches (holds : Valuation) (trace : List Action) (last : Progress) :
    List Branch → Progress
  | [] => last
  | ⟨condition, body, _⟩ :: rest =>
    if holds trace condition then runAll holds trace body
    else runBranches holds trace last rest

end

/-- How the run of a whole story ends.  Falling off its end is an end too. -/
def meaning (holds : Valuation) (statements : List Statement) : Ending :=
  match runAll holds [] statements with
  | .onward trace => ⟨trace, "End"⟩
  | .ended ending => ending

end Story

/-! ## Graphs -/

/-- What a state does with a run: it ends the run or sends it on to another state. -/
inductive Step where
  | ends (ending : Ending)
  | leads (trace : List Action) (next : Json)

/-- One step of a run, in a state.  A choice takes the first branch whose condition holds. -/
def State.step (holds : Valuation) (trace : List Action) (s : State) : Step :=
  match s.body with
  | .userTask prompt assignee _ =>
    .leads (trace ++ [.ask prompt.display assignee.display]) s.next
  | .task action => .leads (trace ++ [.perform action.display]) s.next
  | .send channel recipient message =>
    .leads (trace ++ [.send channel.display recipient.display message.display]) s.next
  | .choice branches otherwise =>
    match branches.items.find? fun b => holds trace b.condition.display with
    | some b => .leads trace b.next
    | none => .leads trace otherwise
  | .stop reason => .ends ⟨trace, reason.display⟩

/-- The end of the run that goes on at the given place, if it comes to a stop within the given
    number of states. -/
def Graph.walk (g : Graph) (holds : Valuation) : Nat → List Action → Json → Option Ending
  | 0, _, _ => none
  | count + 1, trace, place => do
    let s ← place.asId?.bind g.find?
    match s.step holds trace with
    | .ends ending => some ending
    | .leads trace next => g.walk holds count trace next

end Swimlane
