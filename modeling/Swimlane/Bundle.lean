import Swimlane.Compiler
import Swimlane.Insights

/-!
# Result bundles

What a writer of stories hands over: the story, where it comes from, what it is about, how sure
the writer is, and warnings.  Only the story is compiled; the rest is checked and passed on.
-/

namespace Swimlane

/-- A story with what its writer says about it. -/
structure Bundle where
  story : String
  origin : String
  insights : Insights
  confidence : Option Binary64
  warnings : List String
  provider : String

namespace Bundle

/-- Where a story can come from. -/
def origins : List String := ["llm", "heuristic"]

/-- Where a variable can come from. -/
def variableOrigins : List String := ["input", "condition", "output", "system"]

/-- A bundle that is nothing but a story. -/
def ofStory (story : String) : Bundle := ⟨story, "heuristic", .empty, none, [], ""⟩

/-- The graph of the story of a bundle. -/
def graph (b : Bundle) : Except Failure Graph := Graph.ofStory b.story

/-! ## Reading -/

/-- The items of a value that may be missing. -/
def givenItems (v : Json) : Except Misfit (List Json) := if v.isGiven then v.items else .ok []

/-- The texts of the items of a value that may be missing. -/
def givenTexts (v : Json) : Except Misfit (List String) := do
  return (← givenItems v).map Json.display

/-- The text of a value, empty if it is not given. -/
def orEmpty (v : Json) : Json := if v.isGiven then v else .str ""

/-- The origins that a variable can have among some values. -/
def knownOrigins (vs : List Json) : List String :=
  (vs.filterMap Json.asId?).filter (variableOrigins.contains ·)

/-- A variable of the insights: its name, or an object with a name. -/
def variableOf (v : Json) : Except Failure Insights.Variable :=
  match v with
  | .str name => .ok ⟨name, .str "", []⟩
  | .obj _ =>
    match v.get? "name" with
    | none => .error (.bundle .variableWithoutName)
    | some name => do
      let origins ← (givenItems (v.getD "origins" .null)).mapError .misfit
      return ⟨name.display, orEmpty (v.getD "description" .null), knownOrigins origins⟩
  | _ => .error (.bundle .variableWithoutName)

/-- The insights of a bundle. -/
def insightsOf (v : Json) : Except Failure Insights :=
  match v with
  | .null => .ok .empty
  | .obj _ => do
    let entries ← (givenItems (v.getD "variables" .null)).mapError .misfit
    let vars ← entries.mapM variableOf
    let actors ← (givenTexts (v.getD "actors" .null)).mapError .misfit
    let intents ← (givenTexts (v.getD "intents" .null)).mapError .misfit
    return ⟨actors, intents, vars⟩
  | _ => .error (.bundle .insightsNotObject)

/-- The number that a confidence is. -/
def numberOf (v : Json) : Except Failure Binary64 :=
  match v with
  | .bool b => .ok (.ofInt (if b then 1 else 0))
  | .int n =>
    match Binary64.ofInt n with
    | .infinite _ => .error (.misfit .outOfRange)
    | x => .ok x
  | .float x => .ok x
  | .str s =>
    match Numeral.double? s with
    | some x => .ok x
    | none => .error (.bundle (.confidenceNotNumber v))
  | _ => .error (.bundle (.confidenceNotNumber v))

/-- The confidence of a bundle, between zero and one. -/
def confidenceOf (v : Json) : Except Failure (Option Binary64) :=
  match v with
  | .null => .ok none
  | v => do
    let x ← numberOf v
    if x.isUnit then return some x else throw (.bundle (.confidenceOutOfRange x))

/-- The story of a bundle, which must not be blank. -/
def storyOf (v : Json) : Except Failure String :=
  match v with
  | .str story =>
    if (Text.trim story.toList).isEmpty then .error (.bundle .noStory) else .ok story
  | _ => .error (.bundle .noStory)

/-- The origin of a story. -/
def originOf (v : Json) : Except Failure String :=
  match origins.find? v.isText with
  | some origin => .ok origin
  | none => .error (.bundle (.unknownOrigin v))

/-- The bundle that a JSON value describes. -/
def ofJson (v : Json) : Except Failure Bundle :=
  match v with
  | .obj _ => do
    let story ← storyOf (v.getD "story" .null)
    let origin ← originOf (v.getD "origin" (.str "heuristic"))
    let confidence ← confidenceOf (v.getD "confidence" .null)
    let insights ← insightsOf (v.getD "insights" .null)
    let warnings ← (givenTexts (v.getD "warnings" .null)).mapError .misfit
    let provider := (orEmpty (v.getD "provider" .null)).display
    return { story, origin, insights, confidence, warnings, provider }
  | _ => .error (.bundle .notObject)

/-! ## Writing -/

/-- The bundle as a JSON object, without a confidence or a provider that is not given. -/
def toJson (b : Bundle) : Json :=
  .obj ([("story", .str b.story), ("origin", .str b.origin), ("insights", b.insights.toJson),
      ("warnings", .arr (b.warnings.map .str))] ++
    (match b.confidence with
      | some x => [("confidence", .float x)]
      | none => []) ++
    if b.provider = "" then [] else [("provider", .str b.provider)])

end Bundle

end Swimlane
