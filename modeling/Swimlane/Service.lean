import Swimlane.Bundle
import Swimlane.Http.MediaType
import Swimlane.Http.Target
import Swimlane.Text.UpperCase

/-!
# The compile service

The answers of the HTTP service to single requests.  Stories are posted as plain text or as a
JSON bundle, and are answered with everything that is made of them or with the BPMN document.
-/

namespace Swimlane.Service

/-- A request. -/
structure Request where
  method : String
  /-- What is asked for: a path, with a query behind it or not. -/
  target : String
  headers : List (String × String)
  /-- The bytes of the body. -/
  body : List Nat
  /-- Whether the request tells the length of its body. -/
  tellsLength : Bool

/-- An answer. -/
inductive Response where
  | json (status : Nat) (body : Json)
  | xml (text : String)
  /-- An answer that the service gives without looking into the request. -/
  | plain (status : Nat)

/-- The type of the body of a request, in lower case and without parameters, if its field can be
    read. -/
def contentType? (r : Request) : Option String :=
  let isName (name : String) := name.toList.map Char.toLower == "content-type".toList
  match r.headers.find? fun (name, _) => isName name with
  | none => some "application/octet-stream"
  | some (_, value) => Http.MediaType.ofField? value

/-- Whether the body is longer than the settings allow.  Without a limit only the length that a
    request tells is compared. -/
def isTooLarge (settings : Settings) (r : Request) : Bool :=
  let size := r.body.length
  (r.tellsLength && size != 0 && settings.maxBodyBytes < size) ||
    (settings.maxBodyBytes != 0 && settings.maxBodyBytes < size)

/-- The bundle of a body of a given type. -/
def bundleOf (contentType : String) (body : List Nat) : Except Failure Bundle :=
  let chars := Text.Utf8.decodeLossy body
  if contentType = "application/json" then
    match Json.read (String.ofList chars) with
    | .ok v => Bundle.ofJson v
    | .error e =>
      if e.fault = .longInteger then .error (.misfit .longInteger) else .error (.bundle .unreadable)
  else if (Text.trim chars).isEmpty then .error (.bundle .emptyBody)
  else .ok (.ofStory (String.ofList chars))

/-- The graph of the story of a body, and its BPMN document. -/
def compile (settings : Settings) (contentType : String) (body : List Nat) :
    Except Failure (Graph × String) := do
  let g ← (← bundleOf contentType body).graph
  return (g, ← Bpmn.document g settings)

/-- The answer to a failure; one that cannot be told is the service's own. -/
def ofFailure (f : Failure) : Response :=
  match f.report? with
  | some report => .json report.status report.toJson
  | none => .plain 500

/-- The answer to a story that was posted.  If the type of its body cannot be read, the failure is
    the service's own. -/
def answer (settings : Settings) (r : Request)
    (render : Graph → String → Except Failure Response) : Response :=
  if isTooLarge settings r then .plain 413
  else
    match contentType? r with
    | none => .plain 500
    | some contentType =>
      let rendered := do
        let (g, bpmn) ← compile settings contentType r.body
        render g bpmn
      match rendered with
      | .ok response => response
      | .error failure => ofFailure failure

/-- The method of a request; letter case does not matter. -/
def method (r : Request) : String := String.ofList (Text.upper r.method.toList)

/-- The answer to a request. -/
def handle (settings : Settings) (r : Request) : Response :=
  match Http.Target.path r.target with
  | "/compile" =>
    if method r = "POST" then
      answer settings r fun g _ => do return .json 200 (← g.artifacts settings)
    else .plain 405
  | "/bpmn" =>
    if method r = "POST" then answer settings r fun _ bpmn => .ok (.xml bpmn) else .plain 405
  | "/health" =>
    if method r = "GET" || method r = "HEAD" then .json 200 (.obj [("status", .str "ok")])
    else .plain 405
  | _ => .plain 404

end Swimlane.Service
