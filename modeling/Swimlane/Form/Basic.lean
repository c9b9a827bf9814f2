import Swimlane.Misfit

/-!
# Forms

The form that a user fills in: fields with a type, validation rules and options.  Forms are
written to and read from JSON; what a document holds in them is kept as it is.
-/

namespace Swimlane

/-- A validation rule.  A part that a rule does not have is null. -/
structure Rule where
  type : Json
  pattern : Json
  min : Json
  max : Json
  value : Json
  message : Json

/-- An option to choose. -/
structure Choice where
  value : Json
  label : Json

/-- A field of a form. -/
structure Field where
  name : Json
  label : Json
  type : Json
  rules : List Rule
  options : List Choice

/-- A form. -/
structure Form where
  id : Json
  title : Json
  fields : List Field

/-! ## Writing -/

/-- A member unless its value is null. -/
def Json.unlessNull (key : String) (v : Json) : List (String × Json) :=
  if v.isNull then [] else [(key, v)]

/-- A member if its value is given. -/
def Json.ifGiven (key : String) (v : Json) : List (String × Json) :=
  if v.isGiven then [(key, v)] else []

/-- The rule as a JSON object. -/
def Rule.toJson (r : Rule) : Json :=
  .obj (("type", r.type) :: Json.unlessNull "pattern" r.pattern ++ Json.unlessNull "min" r.min ++
    Json.unlessNull "max" r.max ++ Json.unlessNull "value" r.value ++
    Json.ifGiven "message" r.message)

/-- The option as a JSON object. -/
def Choice.toJson (c : Choice) : Json := .obj [("value", c.value), ("label", c.label)]

/-- The field as a JSON object; options are written only if there are some. -/
def Field.toJson (f : Field) : Json :=
  .obj ([("name", f.name), ("label", f.label), ("type", f.type),
      ("validation", .obj [("rules", .arr (f.rules.map Rule.toJson))])] ++
    if f.options.isEmpty then [] else [("options", .arr (f.options.map Choice.toJson))])

/-- The form as a JSON object. -/
def Form.toJson (f : Form) : Json :=
  .obj [("id", f.id), ("title", f.title), ("fields", .arr (f.fields.map Field.toJson))]

/-- Whether a field must be filled in. -/
def Field.isRequired (f : Field) : Bool := f.rules.any (·.type.isText "required")

/-! ## Reading -/

/-- The rule that a JSON value describes. -/
def Rule.ofJson (v : Json) : Except Misfit Rule := do
  return {
    type := ← v.member "type"
    pattern := v.getD "pattern" .null
    min := v.getD "min" .null
    max := v.getD "max" .null
    value := v.getD "value" .null
    message := v.getD "message" (.str "") }

/-- The option that a JSON value describes. -/
def Choice.ofJson (v : Json) : Except Misfit Choice := do
  return { value := ← v.member "value", label := ← v.member "label" }

/-- The field that a JSON value describes. -/
def Field.ofJson (v : Json) : Except Misfit Field := do
  let name ← v.member "name"
  let label ← v.member "label"
  let type ← v.member "type"
  let validation := v.getD "validation" (.obj [])
  let rules ← (← (← validation.optional "rules" (.arr [])).items).mapM Rule.ofJson
  let options ← (← (v.getD "options" (.arr [])).items).mapM Choice.ofJson
  return { name, label, type, rules, options }

/-- The form that a JSON value describes. -/
def Form.ofJson (v : Json) : Except Misfit Form := do
  let id ← v.member "id"
  let title ← v.member "title"
  let fields ← (← (v.getD "fields" (.arr [])).items).mapM Field.ofJson
  return { id, title, fields }

end Swimlane
