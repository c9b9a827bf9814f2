import Swimlane.Graph.Basic
import Swimlane.Json.Display

/-!
# States that hold texts

Documents and edits may put any value into a state.  The states that are made from a story have
texts everywhere: the predicates here say so, for forms with the few numbers in their rules.
Nothing that asks such a state for a text can be disappointed.
-/

namespace Swimlane

/-- A value is a given text if it is equal to it. -/
theorem Json.isText_iff {v : Json} {s : String} : v.isText s = true ↔ v = .str s := by
  cases v with
  | str t => rw [Json.isText, beq_iff_eq, Json.str.injEq]; exact eq_comm
  | _ => exact ⟨(nomatch ·), (nomatch ·)⟩

/-- A kind is told by its name. -/
theorem Kind.ofLabel?_name (k : Kind) : Kind.ofLabel? (.str k.name) = some k := by
  cases k <;> decide

/-- A bound in a rule: none, or a number of a few digits. -/
inductive Json.IsBound : Json → Prop
  | null : IsBound .null
  | int (n : Nat) (h : n ≤ 5000) : IsBound (.int n)

/-- A pattern in a rule: none, or a text. -/
inductive Json.IsPattern : Json → Prop
  | null : IsPattern .null
  | str (s : String) : IsPattern (.str s)

/-- A rule with texts and numbers where they belong. -/
structure Rule.Textual (r : Rule) : Prop where
  type : ∃ s, r.type = .str s
  pattern : r.pattern.IsPattern
  min : r.min.IsBound
  max : r.max.IsBound
  value : r.value.IsBound
  message : ∃ s, r.message = .str s

/-- An option with texts. -/
structure Choice.Textual (c : Choice) : Prop where
  value : ∃ s, c.value = .str s
  label : ∃ s, c.label = .str s

/-- A field with texts. -/
structure Field.Textual (f : Field) : Prop where
  name : ∃ s, f.name = .str s
  label : ∃ s, f.label = .str s
  type : ∃ s, f.type = .str s
  rules : ∀ r ∈ f.rules, r.Textual
  options : ∀ c ∈ f.options, c.Textual

/-- A form with texts. -/
structure Form.Textual (f : Form) : Prop where
  id : ∃ s, f.id = .str s
  title : ∃ s, f.title = .str s
  fields : ∀ field ∈ f.fields, field.Textual

/-- The branches of a choice with the given conditions and targets. -/
def State.branchesOf (exits : List (String × String)) : State.Branches :=
  .list (exits.map fun (condition, next) => { condition := .str condition, next := .str next })

/-- A state with texts, and with the label of its kind. -/
inductive State.Textual : State → Prop
  | userTask (id prompt assignee : String) (form : Option Form) (next : String)
      (h : ∀ f, form = some f → f.Textual) :
    Textual (State.make id (.userTask (.str prompt) (.str assignee) (form.map .ok)) (.str next))
  | task (id action next : String) : Textual (State.make id (.task (.str action)) (.str next))
  | choice (id : String) (exits : List (String × String)) (otherwise : String) :
    Textual (State.make id (.choice (State.branchesOf exits) (.str otherwise)) .null)
  | send (id channel recipient message next : String) :
    Textual (State.make id (.send (.str channel) (.str recipient) (.str message)) (.str next))
  | stop (id reason : String) : Textual (State.make id (.stop (.str reason)) .null)

namespace State.Textual

/-- The id of such a state is a text. -/
theorem id_eq {s : State} (h : s.Textual) : s.id = .str s.id.display := by
  cases h <;> rfl

/-- The label of such a state is the name of its kind. -/
theorem label_eq {s : State} (h : s.Textual) : s.label = .str s.body.kind.name := by
  cases h <;> rfl

/-- The edges of such a state can be listed. -/
theorem edgeMisfit? {s : State} (h : s.Textual) : s.edgeMisfit? = none := by
  cases h <;> rfl

end State.Textual

/-- Whether a state says where to go on: a choice by its last resort, and a stop need not. -/
def State.leadsOn (s : State) : Bool :=
  match s.body with
  | .choice _ otherwise => otherwise.isGiven
  | .stop _ => true
  | _ => s.next.isGiven

end Swimlane
