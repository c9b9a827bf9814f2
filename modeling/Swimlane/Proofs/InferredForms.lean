import Swimlane.Graph.Forms
import Swimlane.Proofs.Validity

/-!
# Graphs with inferred forms

The forms that are inferred from prompts hold texts.  Attaching them changes nothing else in a
graph: it keeps its edges, its runs and its warnings.

## Key results

- `Form.textual_of_infer?`: an inferred form holds texts
- `Graph.attachForms_of_wellFormed`: forms can be attached to every well-formed graph
- `Graph.WellFormed.formed`: a graph stays well formed with forms
- `Graph.WellFormed.formed_validate`: forms do not matter for validation
-/

namespace Swimlane

/-! ## The forms -/

namespace Field

/-- The rules for a type hold texts. -/
theorem textual_typeRules (tokens : List String) (type : FieldType) :
    ∀ r ∈ typeRules tokens type, r.Textual := by
  intro r hr
  cases type with
  | email => cases List.mem_singleton.mp hr; exact ⟨⟨_, rfl⟩, .str _, .null, .null, .null, ⟨_, rfl⟩⟩
  | date => cases List.mem_singleton.mp hr; exact ⟨⟨_, rfl⟩, .str _, .null, .null, .null, ⟨_, rfl⟩⟩
  | number =>
    rw [typeRules] at hr
    split at hr
    · cases List.mem_singleton.mp hr
      exact ⟨⟨_, rfl⟩, .null, .int 0 (by omega), .int 120 (by omega), .null, ⟨_, rfl⟩⟩
    · cases List.mem_singleton.mp hr
      exact ⟨⟨_, rfl⟩, .null, .int 0 (by omega), .null, .null, ⟨_, rfl⟩⟩
  | text =>
    cases List.mem_singleton.mp hr
    refine ⟨⟨_, rfl⟩, .null, .null, .null, ?_, ⟨_, rfl⟩⟩
    show Json.IsBound (.int (if _ then 5000 else 255))
    split
    · exact .int 5000 (by omega)
    · exact .int 255 (by omega)
  | boolean => cases hr
  | choice => cases hr

/-- The options with given values hold texts. -/
theorem textual_optionsOf (values : List (List Char)) : ∀ c ∈ optionsOf values, c.Textual := by
  intro c hc
  obtain ⟨v, _, rfl⟩ := List.mem_map.mp hc
  exact ⟨⟨_, rfl⟩, ⟨_, rfl⟩⟩

/-- The options of an inferred type hold texts. -/
theorem textual_inferType (name : String) (context : List Char) :
    ∀ c ∈ (inferType name context).2, c.Textual := by
  rw [inferType]
  have hnil : ∀ c ∈ ([] : List Choice), c.Textual := fun _ h => nomatch h
  split
  · exact hnil
  · split
    · split
      · exact hnil
      · exact textual_optionsOf _
    · split
      · exact hnil
      · split
        · exact hnil
        · split
          · exact textual_optionsOf _
          · exact hnil

/-- An inferred field holds texts. -/
theorem textual_infer (name clause : String) : (infer name clause).Textual where
  name := ⟨_, rfl⟩
  label := ⟨_, rfl⟩
  type := ⟨_, rfl⟩
  options := textual_inferType _ _
  rules := by
    intro r hr
    rcases List.mem_append.mp hr with hr | hr
    · split at hr
      · cases hr
      · cases List.mem_singleton.mp hr
        exact ⟨⟨_, rfl⟩, .null, .null, .null, .null, ⟨_, rfl⟩⟩
    · exact textual_typeRules _ _ r hr

end Field

/-- An inferred form holds texts. -/
theorem Form.textual_of_infer? {stateId prompt : String} {exclude : List String} {f : Form}
    (h : Form.infer? stateId prompt exclude = some f) : f.Textual := by
  rw [Form.infer?] at h
  split at h
  · cases h
  · cases h
    refine ⟨⟨_, rfl⟩, ⟨_, rfl⟩, fun field hf => ?_⟩
    obtain ⟨name, _, rfl⟩ := List.mem_map.mp hf
    exact Field.textual_infer _ _

/-! ## States with forms -/

namespace State

/-- A state with texts, with the form that its prompt asks for. -/
def formed (s : State) : State :=
  match s.body with
  | .userTask prompt assignee _ =>
    let exclude := Placeholder.names assignee.display
    { s with body :=
        .userTask prompt assignee ((Form.infer? s.id.display prompt.display exclude).map .ok) }
  | _ => s

/-- The form of a state with texts can be inferred. -/
theorem withForm_eq {s : State} (h : s.Textual) : s.withForm = .ok s.formed := by
  cases h <;> rfl

/-- A state with texts has texts with its form too. -/
theorem Textual.formed {s : State} (h : s.Textual) : s.formed.Textual := by
  cases h with
  | userTask id prompt assignee form next _ =>
    exact .userTask id prompt assignee _ next fun f hf => Form.textual_of_infer? hf
  | task id action next => exact .task id action next
  | choice id exits otherwise => exact .choice id exits otherwise
  | send id channel recipient message next => exact .send id channel recipient message next
  | stop id reason => exact .stop id reason

@[simp] theorem formed_id (s : State) : s.formed.id = s.id := by
  obtain ⟨id, label, body, next⟩ := s; cases body <;> rfl

@[simp] theorem formed_isStop (s : State) : s.formed.isStop = s.isStop := by
  obtain ⟨id, label, body, next⟩ := s; cases body <;> rfl

@[simp] theorem formed_targets (s : State) : s.formed.targets = s.targets := by
  obtain ⟨id, label, body, next⟩ := s; cases body <;> rfl

@[simp] theorem formed_step (s : State) (holds : Valuation) (trace : List Action) :
    s.formed.step holds trace = s.step holds trace := by
  obtain ⟨id, label, body, next⟩ := s; cases body <;> rfl

@[simp] theorem formed_leadsOn (s : State) : s.formed.leadsOn = s.leadsOn := by
  obtain ⟨id, label, body, next⟩ := s; cases body <;> rfl

end State

/-! ## Graphs with forms -/

namespace Graph

/-- A graph of states with texts, with all its forms. -/
def formed (g : Graph) : Graph := g.mapStates State.formed

/-- Forms can be attached to every well-formed graph. -/
theorem attachForms_of_wellFormed {g : Graph} (h : g.WellFormed) :
    g.attachForms = (g.formed, none) := by
  have hstates : ∀ states : List (String × State), (∀ p ∈ states, p.2.Textual) →
      withForms states = (states.map fun p => (p.1, p.2.formed), none) := by
    intro states htextual
    induction states with
    | nil => rfl
    | cons p rest ih =>
      obtain ⟨key, s⟩ := p
      rw [withForms, State.withForm_eq (htextual _ List.mem_cons_self),
        ih fun q hq => htextual q (List.mem_cons_of_mem _ hq)]
      rfl
  rw [attachForms, hstates g.states fun p hp => h.textual _ (List.mem_map.mpr ⟨p, hp, rfl⟩)]
  rfl

@[simp] theorem formed_keys (g : Graph) : g.formed.keys = g.keys := mapStates_keys _ g

@[simp] theorem formed_nodes (g : Graph) : g.formed.nodes = g.nodes.map State.formed :=
  mapStates_nodes _ g

@[simp] theorem formed_find? (g : Graph) (key : String) :
    g.formed.find? key = (g.find? key).map State.formed :=
  Assoc.get?_map State.formed key g.states

/-- A graph is walked through as without its forms. -/
theorem formed_walk (g : Graph) (holds : Valuation) (count : Nat) (trace : List Action)
    (place : Json) : g.formed.walk holds count trace place = g.walk holds count trace place := by
  induction count generalizing trace place with
  | zero => rfl
  | succ n ih =>
    simp only [walk, Option.bind_eq_bind]
    cases place.asId? with
    | none => rfl
    | some key =>
      simp only [Option.bind_some, formed_find?]
      cases g.find? key with
      | none => rfl
      | some s =>
        simp only [Option.map_some, Option.bind_some, State.formed_step, ih]

/-- A well-formed graph is well formed with its forms. -/
theorem WellFormed.formed {g : Graph} (h : g.WellFormed) : g.formed.WellFormed where
  textual := by
    intro s hs
    rw [formed_nodes] at hs
    obtain ⟨s', hs', rfl⟩ := List.mem_map.mp hs
    exact (h.textual s' hs').formed
  keyed := by
    intro p hp
    obtain ⟨p', hp', rfl⟩ := List.mem_map.mp hp
    rw [State.formed_id]
    exact h.keyed p' hp'
  nodup := by rw [formed_keys]; exact h.nodup
  named := by rw [formed_keys]; exact h.named
  start := by rw [formed_keys]; exact h.start
  targets := by
    intro s hs
    rw [formed_nodes] at hs
    obtain ⟨s', hs', rfl⟩ := List.mem_map.mp hs
    rw [State.formed_targets, formed_keys]
    exact h.targets s' hs'
  leads := by
    intro s hs
    rw [formed_nodes] at hs
    obtain ⟨s', hs', rfl⟩ := List.mem_map.mp hs
    rw [State.formed_leadsOn]
    exact h.leads s' hs'
  ends := by
    obtain ⟨holds, count, ending, hw⟩ := h.ends
    exact ⟨holds, count, ending, by rw [formed_walk]; exact hw⟩

/-- A well-formed graph is warned of the same with forms. -/
theorem WellFormed.formed_validate {g : Graph} (h : g.WellFormed) :
    g.formed.validate = g.validate := by
  obtain ⟨key, _, hstart⟩ := h.start
  have hplaces : State.KeepsPlace State.formed :=
    ⟨State.formed_id, State.formed_targets, State.formed_isStop⟩
  have hdefects : g.formed.defects = g.defects := mapStates_defects hplaces g
  rw [h.validate hstart, h.formed.validate hstart, hdefects]

end Graph

end Swimlane
