import Swimlane.Json.Display
import Swimlane.Json.Reader
import Swimlane.Misfit
import Swimlane.Story.Parser

/-!
# Failures

Why a compilation can fail, stage by stage, and the report of each failure.
-/

namespace Swimlane

/-- Why a state graph is refused. -/
inductive GraphFault where
  | duplicateState (id : String)
  | unknownState (id : Json)
  | noStates (flow : String)
  | missingStart (start : Json)
  | unknownKind (id kind : Json)
  | emptyChoice (id : Json)
  | missingTarget (id target : Json)
  | noReachableStop (start : Json)
  /-- A statement that no state stands for. -/
  | unexpectedStatement (kind : String) (line : Int)
  | missingHeader
  /-- A document whose text is no JSON. -/
  | unreadable (error : Json.ReadError)
  | notDocument
  | statesNotList
  | notState (type : String)
  /-- A state, or the document if the id is empty, lacks a member. -/
  | missingMember (id key : String)
  | malformedForm (id : String) (misfit : Misfit)
  | stopWithNext (id : String) (next : Json)

namespace GraphFault

/-- The message of a fault. -/
def message : GraphFault → String
  | duplicateState id => s!"Duplicate state id '{id}'"
  | unknownState id => s!"Unknown state '{id.display}'"
  | noStates flow => s!"Flow '{flow}' has no states"
  | missingStart start => s!"Start state '{start.display}' does not exist"
  | unknownKind id kind => s!"State '{id.display}' has unknown kind '{kind.display}'"
  | emptyChoice id => s!"Choice '{id.display}' has no branches"
  | missingTarget id target =>
    s!"State '{id.display}' references missing state '{target.display}'"
  | noReachableStop start => s!"No stop state is reachable from start '{start.display}'"
  | unexpectedStatement kind line => s!"Unexpected {kind} statement at line {line}"
  | missingHeader => "Statement list must begin with a flow header"
  | unreadable error => s!"Invalid SimpleScript JSON: {error.message}"
  | notDocument => "SimpleScript document must be an object"
  | statesNotList => "SimpleScript 'states' must be a list"
  | notState type => s!"SimpleScript state must be an object, got {type}"
  | missingMember "" key => s!"SimpleScript document is missing '{key}'"
  | missingMember id key => s!"SimpleScript state '{id}' is missing '{key}'"
  | malformedForm id misfit => s!"State '{id}' has a malformed form: {misfit.text}"
  | stopWithNext id _ => s!"Stop state '{id}' cannot have a next state"

/-- The state that a fault concerns, empty if it is none. -/
def stateId : GraphFault → Json
  | duplicateState id => .str id
  | unknownKind id _ => id
  | emptyChoice id => id
  | missingTarget id _ => id
  | noReachableStop start => start
  | missingMember id _ => .str id
  | malformedForm id _ => .str id
  | stopWithNext id _ => .str id
  | _ => .str ""

/-- The reference that a fault concerns, empty if it is none. -/
def ref : GraphFault → Json
  | unknownState id => id
  | missingStart start => start
  | missingTarget _ target => target
  | stopWithNext _ next => next
  | _ => .str ""

/-- The report of a fault. -/
def report (f : GraphFault) : Report := .graph f.message f.stateId f.ref

end GraphFault

/-- Why a diagram cannot be drawn. -/
inductive LayoutFault where
  | startWithoutLane (start : Json)
  /-- A state whose lane is none of the lanes, or that has none. -/
  | unknownLane (id : Json) (lane : Option String)
  | noShape (kind : Json)
  | duplicateElement (id : String)
  | unplacedTarget (source : String) (target : Json)

namespace LayoutFault

/-- The message of a fault. -/
def message : LayoutFault → String
  | startWithoutLane start => s!"Start state '{start.display}' has no lane"
  | unknownLane id lane =>
    s!"State '{id.display}' is assigned to unknown lane " ++ (lane.map Text.quote).getD "None"
  | noShape kind => s!"No shape for kind '{kind.display}'"
  | duplicateElement id => s!"Duplicate BPMN element id '{id}'"
  | unplacedTarget source target =>
    s!"Edge from '{source}' targets unplaced state '{target.display}'"

/-- The element that a fault concerns, empty if it is none. -/
def element : LayoutFault → Json
  | startWithoutLane start => start
  | unknownLane id _ => id
  | noShape _ => .str ""
  | duplicateElement id => .str id
  | unplacedTarget _ target => target

/-- The report of a fault. -/
def report (f : LayoutFault) : Report := .layout f.message f.element

end LayoutFault

/-- Why a result bundle is refused. -/
inductive BundleFault where
  | notObject
  | noStory
  | unknownOrigin (origin : Json)
  | confidenceNotNumber (value : Json)
  | confidenceOutOfRange (value : Binary64)
  | insightsNotObject
  | variableWithoutName
  /-- A request whose body is no JSON. -/
  | unreadable
  /-- A request without a body. -/
  | emptyBody

namespace BundleFault

/-- The message of a fault. -/
def message : BundleFault → String
  | notObject => "Narrative result must be an object"
  | noStory => "Narrative result has no 'story' text"
  | unknownOrigin origin =>
    s!"Unknown narrative origin {origin.literal}; expected one of ('llm', 'heuristic')"
  | confidenceNotNumber value => s!"Confidence must be a number, got {value.literal}"
  | confidenceOutOfRange value => 
    "Confidence must be within 0..1, got " ++ value.text "nan" "inf"
  | insightsNotObject => "'insights' must be an object"
  | variableWithoutName => "Each insight variable needs a 'name'"
  | unreadable => "Invalid JSON"
  | emptyBody => "Empty request body"

/-- The report of a fault. -/
def report (f : BundleFault) : Report := .bundle f.message

end BundleFault

/-- Why a compilation fails.  All but misfits are told to callers. -/
inductive Failure where
  | story (error : Story.Error)
  | graph (fault : GraphFault)
  | layout (fault : LayoutFault)
  | bundle (fault : BundleFault)
  | misfit (misfit : Misfit)

/-- The report of a failure; a misfit has none. -/
def Failure.report? : Failure → Option Report
  | story error => some error.report
  | graph fault => some fault.report
  | layout fault => some fault.report
  | bundle fault => some fault.report
  | misfit _ => none

end Swimlane
