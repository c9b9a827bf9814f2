import Swimlane.Number.Numeral
import Swimlane.Text.LowerCase
import Swimlane.Text.Quoted
import Swimlane.Text.UpperCase

/-!
# Settings

How diagrams are drawn and how the service runs.  Settings are read from environment variables;
a variable that is not set, or a number that is empty, leaves the default.
-/

namespace Swimlane

/-- The measures of a diagram, in pixels. -/
structure Geometry where
  poolX : Int := 160
  poolY : Int := 80
  laneHeaderWidth : Int := 30
  columnWidth : Int := 180
  rowHeight : Int := 120
  lanePadding : Int := 20
  taskWidth : Int := 100
  taskHeight : Int := 80
  gatewaySize : Int := 50
  eventSize : Int := 36
  deriving DecidableEq, Repr

/-- All settings. -/
structure Settings where
  geometry : Geometry := {}
  host : String := "0.0.0.0"
  port : Int := 9010
  maxBodyBytes : Int := 1048576
  defaultLane : String := "System"
  executable : Bool := true
  logLevel : String := "INFO"
  deriving DecidableEq, Repr

/-- A variable that should hold an integer and does not. -/
structure SettingFault where
  name : String
  raw : String
  deriving DecidableEq, Repr

/-- The message of a bad variable. -/
def SettingFault.message (f : SettingFault) : String :=
  s!"{f.name} must be an integer, got " ++ Text.quote f.raw

namespace Settings

/-- The values of variables, by their names. -/
abbrev Environment := String → Option String

/-- The names of the variables that are read. -/
def variableNames : List String :=
  ["POOL_X", "POOL_Y", "LANE_HEADER_WIDTH", "COLUMN_WIDTH", "ROW_HEIGHT", "LANE_PADDING",
      "TASK_WIDTH", "TASK_HEIGHT", "GATEWAY_SIZE", "EVENT_SIZE"].map ("STORYFLOW_LAYOUT_" ++ ·) ++
    ["STORYFLOW_HOST", "STORYFLOW_PORT", "STORYFLOW_MAX_BODY_BYTES", "STORYFLOW_DEFAULT_LANE",
      "STORYFLOW_EXECUTABLE", "STORYFLOW_LOG_LEVEL"]

/-- An integer setting. -/
def integer (env : Environment) (name : String) (default : Int) : Except SettingFault Int :=
  match env name with
  | none => .ok default
  | some "" => .ok default
  | some raw =>
    match Numeral.integer? raw with
    | some n => .ok n
    | none => .error ⟨name, raw⟩

/-- The measures that the environment sets. -/
def geometryOf (env : Environment) : Except SettingFault Geometry := do
  let measure (name : String) (default : Int) :=
    integer env ("STORYFLOW_LAYOUT_" ++ name) default
  let d : Geometry := {}
  return {
    poolX := ← measure "POOL_X" d.poolX
    poolY := ← measure "POOL_Y" d.poolY
    laneHeaderWidth := ← measure "LANE_HEADER_WIDTH" d.laneHeaderWidth
    columnWidth := ← measure "COLUMN_WIDTH" d.columnWidth
    rowHeight := ← measure "ROW_HEIGHT" d.rowHeight
    lanePadding := ← measure "LANE_PADDING" d.lanePadding
    taskWidth := ← measure "TASK_WIDTH" d.taskWidth
    taskHeight := ← measure "TASK_HEIGHT" d.taskHeight
    gatewaySize := ← measure "GATEWAY_SIZE" d.gatewaySize
    eventSize := ← measure "EVENT_SIZE" d.eventSize }

/-- The settings that the environment gives. -/
def ofEnvironment (env : Environment) : Except SettingFault Settings := do
  let d : Settings := {}
  let geometry ← geometryOf env
  let port ← integer env "STORYFLOW_PORT" d.port
  let maxBodyBytes ← integer env "STORYFLOW_MAX_BODY_BYTES" d.maxBodyBytes
  let lane := (env "STORYFLOW_DEFAULT_LANE").getD d.defaultLane
  let executable := (env "STORYFLOW_EXECUTABLE").getD "true"
  let logLevel := (env "STORYFLOW_LOG_LEVEL").getD d.logLevel
  return {
    geometry, port, maxBodyBytes
    host := (env "STORYFLOW_HOST").getD d.host
    defaultLane := if lane = "" then d.defaultLane else lane
    executable := Text.lower executable.toList == "true".toList
    logLevel := String.ofList (Text.upper logLevel.toList) }

end Settings

end Swimlane
