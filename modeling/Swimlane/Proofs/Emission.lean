import Swimlane.Proofs.Collisions
import Swimlane.Proofs.Pipeline

/-!
# Drawing a graph that was read

Reading a document checks the ids and the edges of its states, and nothing of what they say.  So
a graph that was read can be refused when it is drawn: because two states fall together, because
something that is shown is no text, or because a number has too many digits.  Every step of the
way tests one of these conditions, and the tests of all steps together decide.

## Key results

- `Except.Tests`: a step that succeeds under a condition and else fails in a known way
- `tests_flows`, `tests_process`: what the steps in front of the diagram test
- `document_of_collision`, `document_of_apart`: what becomes of a graph that was read
- `document_collides_iff`: a graph with texts is refused for its collisions alone
-/

namespace Except

variable {ε ε' α β : Type} {P Q : Prop} {errors : ε → Prop}

/-- A step that tests a condition: it succeeds if the condition holds, and else fails with one of
    the given errors. -/
structure Tests (step : Except ε α) (condition : Prop) (errors : ε → Prop) : Prop where
  ok : condition → ∃ a, step = .ok a
  error : ¬ condition → ∃ e, step = .error e ∧ errors e

namespace Tests

/-- A step that succeeds tests nothing. -/
theorem pure (a : α) : Tests (.ok a) True errors := ⟨fun _ => ⟨a, rfl⟩, fun h => absurd trivial h⟩

/-- The same condition in other words. -/
theorem congr {x : Except ε α} (h : Tests x P errors) (hiff : P ↔ Q) : Tests x Q errors :=
  ⟨fun hQ => h.ok (hiff.mpr hQ), fun hQ => h.error (mt hiff.mp hQ)⟩

/-- A step that succeeds under the condition and fails otherwise, with errors told in another
    way. -/
theorem mapError {x : Except ε α} {f : ε → ε'} {errors' : ε' → Prop} (h : Tests x P errors)
    (hf : ∀ e, errors e → errors' (f e)) : Tests (x.mapError f) P errors' := by
  constructor
  · intro hP
    obtain ⟨a, rfl⟩ := h.ok hP
    exact ⟨a, rfl⟩
  · intro hP
    obtain ⟨e, rfl, he⟩ := h.error hP
    exact ⟨f e, rfl, hf e he⟩

/-- Two steps one after the other test both conditions. -/
theorem bind {x : Except ε α} {f : α → Except ε β} (hx : Tests x P errors)
    (hf : ∀ a, Tests (f a) Q errors) : Tests (x >>= f) (P ∧ Q) errors := by
  constructor
  · rintro ⟨hP, hQ⟩
    obtain ⟨a, rfl⟩ := hx.ok hP
    exact (hf a).ok hQ
  · intro hboth
    by_cases hP : P
    · obtain ⟨a, rfl⟩ := hx.ok hP
      exact (hf a).error fun hQ => hboth ⟨hP, hQ⟩
    · obtain ⟨e, rfl, he⟩ := hx.error hP
      exact ⟨e, rfl, he⟩

/-- A step and what is made of its result without a further test. -/
theorem map {x : Except ε α} (h : Tests x P errors) (f : α → β) :
    Tests (x >>= fun a => .ok (f a)) P errors :=
  (h.bind fun a => .pure (f a)).congr (iff_of_eq (and_true P))

/-- A step for every item of a list tests the conditions of all items. -/
theorem mapM {f : α → Except ε β} {condition : α → Prop} {xs : List α}
    (h : ∀ x ∈ xs, Tests (f x) (condition x) errors) :
    Tests (xs.mapM f) (∀ x ∈ xs, condition x) errors := by
  induction xs with
  | nil => exact (Tests.pure []).congr (by simp)
  | cons x xs ih =>
    rw [List.mapM_cons]
    have hrest := ih fun y hy => h y (List.mem_cons_of_mem _ hy)
    exact ((h x List.mem_cons_self).bind fun y => hrest.map (y :: ·)).congr
      (List.forall_mem_cons).symm

end Tests

end Except

namespace Swimlane

/-! ## Texts -/

/-- Whether a value is a text. -/
def Json.isStr : Json → Bool
  | .str _ => true
  | _ => false

theorem Json.isStr_iff {v : Json} : v.isStr = true ↔ ∃ s, v = .str s := by
  cases v <;> simp [Json.isStr]

/-- The misfit of a value that is used as a text and is none. -/
def Misfit.IsTextless (m : Misfit) : Prop := m = .notText ∨ m = .notSearchable

/-- The failure because of such a misfit. -/
def Failure.IsTextless (f : Failure) : Prop := ∃ m : Misfit, m.IsTextless ∧ f = .misfit m

namespace State

/-- The id of the form of a state, if it has one. -/
def formIds (s : State) : List Json :=
  match s.form? with
  | some (.ok f) => [f.id]
  | _ => []

/-- The values of a state that are to be texts: what it asks, who is asked, what it does, what it
    says, and the id of its form. -/
def texts (s : State) : List Json :=
  match s.body with
  | .userTask prompt assignee _ => prompt :: assignee :: s.formIds
  | .task action => [action]
  | .choice branches _ => branches.items.map (·.condition)
  | .send channel recipient message => [channel, recipient, message]
  | .stop reason => [reason]

/-- The values that are shown in the element of a state.  What is not given is not shown. -/
def inscriptions (s : State) : List Json :=
  match s.body with
  | .userTask prompt assignee _ =>
    (if prompt.isGiven then [prompt] else []) ++ assignee :: s.formIds
  | .task action => [action]
  | .choice _ _ => []
  | .send channel _ _ => [channel]
  | .stop reason => if reason.isGiven then [reason] else []

/-- The values that are shown at the sequence flows of a state. -/
def conditions (s : State) : List Json :=
  match s.body with
  | .choice branches _ => branches.items.map (·.condition)
  | _ => []

/-- Whether all that is shown of a state are texts. -/
def isShowable (s : State) : Bool := (s.inscriptions ++ s.conditions).all Json.isStr

theorem isShowable_iff {s : State} : s.isShowable = true ↔
    (∀ v ∈ s.inscriptions, v.isStr = true) ∧ ∀ v ∈ s.conditions, v.isStr = true := by
  rw [isShowable, List.all_append, Bool.and_eq_true, List.all_eq_true, List.all_eq_true]

/-- What is shown of a state is to be a text. -/
theorem isShowable_of_texts {s : State} (h : ∀ v ∈ s.texts, v.isStr = true) :
    s.isShowable = true := by
  rw [isShowable, List.all_eq_true]
  intro v hv
  apply h v
  revert hv
  unfold inscriptions conditions texts
  cases s.body with
  | userTask prompt assignee form =>
    by_cases hgiven : prompt.isGiven = true
    · simp only [hgiven, ↓reduceIte, List.append_nil, List.singleton_append]
      exact fun hv => hv
    · simp [hgiven]
      tauto
  | task action => simp
  | choice branches otherwise => simp
  | send channel recipient message => simp; tauto
  | stop reason => by_cases hgiven : reason.isGiven = true <;> simp [hgiven]

/-- A state whose texts are shown tells who acts in it. -/
theorem attributed_of_isShowable {s : State} (h : s.isShowable = true) : s.Attributed := by
  have hshown := (isShowable_iff.mp h).1
  unfold inscriptions at hshown
  unfold Attributed
  cases hb : s.body with
  | userTask prompt assignee form => exact Json.isStr_iff.mp (hshown assignee (by simp [hb]))
  | task action => exact Json.isStr_iff.mp (hshown action (by simp [hb]))
  | _ => trivial

end State

namespace Bpmn

open Except (Tests)

variable {g : Graph}

/-! ## Tests of single values -/

/-- A value is taken as a text. -/
theorem tests_asText (v : Json) : Tests v.asText (v.isStr = true) Misfit.IsTextless := by
  cases v with
  | str s => exact (Tests.pure s).congr (by simp [Json.isStr])
  | _ => exact ⟨fun h => (nomatch h), fun _ => ⟨_, rfl, Or.inl rfl⟩⟩

/-- A value is searched. -/
theorem tests_asSearchable (v : Json) :
    Tests v.asSearchable (v.isStr = true) Misfit.IsTextless := by
  cases v with
  | str s => exact (Tests.pure s).congr (by simp [Json.isStr])
  | _ => exact ⟨fun h => (nomatch h), fun _ => ⟨_, rfl, Or.inr rfl⟩⟩

/-- The id of a form is searched. -/
theorem tests_formId (f : Form) : Tests (formId f) (f.id.isStr = true) Misfit.IsTextless :=
  (tests_asSearchable f.id).map Text.xmlId

/-- A name is a text if it is given. -/
theorem tests_nameAttribute (name : Json) :
    Tests (nameAttribute name) (name.isGiven = true → name.isStr = true) Misfit.IsTextless := by
  unfold nameAttribute
  by_cases hgiven : name.isGiven = true
  · rw [if_pos hgiven]
    exact ((tests_asText name).map fun s => [("name", s)]).congr (by simp [hgiven])
  · rw [if_neg hgiven]
    exact (Tests.pure []).congr (by simp [hgiven])

/-- Who is assigned is a text if it is given. -/
theorem tests_assignment (assignee : Json) :
    Tests (assignment assignee) (assignee.isGiven = true → assignee.isStr = true)
      Misfit.IsTextless := by
  unfold assignment
  by_cases hgiven : assignee.isGiven = true
  · rw [if_pos hgiven]
    exact ((tests_asSearchable assignee).map fun s =>
      [Xml.leaf "zeebe:assignmentDefinition" [("assignee", assigneeExpression s)]]).congr
        (by simp [hgiven])
  · rw [if_neg hgiven]
    exact (Tests.pure []).congr (by simp [hgiven])

/-! ## Elements -/

/-- The name of an element is a text, if what is shown of its state are texts.  That of a choice
    and that of a message are put together and always texts. -/
theorem tests_elementName {s : State} (hl : s.Loaded) :
    Tests (nameAttribute (elementName s))
      (match s.body with
        | .userTask prompt _ _ => prompt.isGiven = true → prompt.isStr = true
        | .task action => action.isGiven = true → action.isStr = true
        | .stop reason => reason.isGiven = true → reason.isStr = true
        | _ => True) Misfit.IsTextless := by
  have hstr : ∀ t : String, Tests (nameAttribute (.str t)) True Misfit.IsTextless := fun t =>
    (tests_nameAttribute (.str t)).congr (by simp [Json.isStr])
  cases hl with
  | userTask id prompt assignee form next => exact tests_nameAttribute prompt
  | task id action next => exact tests_nameAttribute action
  | choice id branches otherwise =>
    cases branches with
    | nil => exact hstr _
    | cons b rest => exact hstr _
  | send id channel recipient message next => exact hstr _
  | stop id reason =>
    show Tests (nameAttribute (if reason.isGiven then reason else .str "End")) _ _
    by_cases hgiven : reason.isGiven = true
    · rw [if_pos hgiven]
      exact tests_nameAttribute reason
    · rw [if_neg hgiven]
      exact (hstr "End").congr (by simp [State.make, hgiven])

/-- What stands in an element tests who is assigned, the form and the channel. -/
theorem tests_elementBody {s : State} (hl : s.Loaded) :
    Tests (elementBody s)
      (match s.body with
        | .userTask _ assignee _ => (assignee.isGiven = true → assignee.isStr = true) ∧
            ∀ v ∈ s.formIds, v.isStr = true
        | .send channel _ _ => channel.isStr = true
        | _ => True) Misfit.IsTextless := by
  cases hl with
  | userTask id prompt assignee form next =>
    have hform : Tests (formDefinition (form.map .ok))
        (∀ v ∈ (State.make id (.userTask prompt assignee (form.map .ok)) next).formIds,
          v.isStr = true) Misfit.IsTextless := by
      cases form with
      | none => exact (Tests.pure []).congr (by simp [State.formIds, State.form?, State.make])
      | some f =>
        exact ((tests_formId f).map fun id =>
          [Xml.leaf "zeebe:formDefinition" [("formKey", "camunda-forms:bpmn:" ++ id)]]).congr
            (by simp [State.formIds, State.form?, State.make])
    refine (tests_assignment assignee).bind fun xs => ?_
    refine (hform.bind fun ys => ?_).congr (iff_of_eq (and_true _))
    -- With or without children, nothing more is tested.
    split <;> exact .pure _
  | task id action next => exact .pure _
  | choice id branches otherwise => exact .pure _
  | send id channel recipient message next =>
    exact (tests_asText channel).map fun c =>
      [Xml.text "bpmn:documentation" [] s!"To {recipient.display}: {message.display}",
        extension [taskDefinition (channelType c)]]
  | stop id reason => exact .pure _

/-- The element of a state that was read, and in which someone acts, tests what it shows. -/
theorem tests_element {s : State} (hl : s.Loaded) (ha : s.Attributed)
    (ids : List (String × String)) (flows : List SequenceFlow) :
    Tests (element ids flows s) (∀ v ∈ s.inscriptions, v.isStr = true) Misfit.IsTextless := by
  have hkind : Tests (labelledKind s) True Misfit.IsTextless := by
    rw [labelledKind_of_loaded hl]
    exact .pure _
  have helement : Tests (element ids flows s) (True ∧ _ ∧ _) Misfit.IsTextless :=
    hkind.bind fun kind => (tests_elementName hl).bind fun name => (tests_elementBody hl).map _
  refine helement.congr ?_
  -- The name and the body test a value only if it is given, but who acts is a text in any case.
  unfold State.Attributed at ha
  unfold State.inscriptions
  cases hb : s.body with
  | userTask prompt assignee form =>
    rw [hb] at ha
    obtain ⟨t, rfl⟩ := ha
    by_cases hgiven : prompt.isGiven = true <;> simp [hgiven, Json.isStr]
  | task action =>
    rw [hb] at ha
    obtain ⟨t, rfl⟩ := ha
    simp [Json.isStr]
  | choice branches otherwise => simp
  | send channel recipient message => simp
  | stop reason => by_cases hgiven : reason.isGiven = true <;> simp [hgiven]

/-- The forms of a graph that was read test their ids. -/
theorem tests_formElements (hl : ∀ s ∈ g.nodes, s.Loaded) :
    Tests (formElements g) (∀ s ∈ g.nodes, ∀ v ∈ s.formIds, v.isStr = true)
      Misfit.IsTextless := by
  have hforms : Tests ((g.nodes.filterMap (·.form?)).mapM fun form => do formElement (← form))
      (∀ form ∈ g.nodes.filterMap (·.form?), ∀ f, form = .ok f → f.id.isStr = true)
      Misfit.IsTextless := by
    refine Tests.mapM fun form hmem => ?_
    obtain ⟨s, hs, hform⟩ := List.mem_filterMap.mp hmem
    -- A form that cannot be read does not get into a graph.
    obtain ⟨f, rfl⟩ : ∃ f, form = .ok f := by
      cases hl s hs with
      | userTask id prompt assignee form' next =>
        obtain ⟨f, _, rfl⟩ := Option.map_eq_some_iff.mp hform
        exact ⟨f, rfl⟩
      | _ => cases hform
    exact ((tests_formId f).map fun id =>
      Xml.text "zeebe:userTaskForm" [("id", id)] f.toJson.dense).congr (by simp)
  refine (hforms.map _).congr ⟨fun h s hs v hv => ?_, fun h form hmem f hf => ?_⟩
  · unfold State.formIds at hv
    split at hv
    · rename_i f hform
      rw [List.mem_singleton.mp hv]
      exact h _ (List.mem_filterMap.mpr ⟨s, hs, hform⟩) f rfl
    · cases hv
  · obtain ⟨s, hs, hform⟩ := List.mem_filterMap.mp hmem
    exact h s hs f.id (by simp [State.formIds, hform, hf])

/-- The form of a state is shown in its element. -/
theorem formIds_subset (s : State) : s.formIds ⊆ s.inscriptions := by
  intro v hv
  unfold State.inscriptions
  cases hb : s.body with
  | userTask prompt assignee form => simp [hv]
  | _ => simp [State.formIds, State.form?, hb] at hv

/-- The process of a graph that was read tests what the elements show. -/
theorem tests_process (h : g.Loaded) (ha : ∀ s ∈ g.nodes, s.Attributed) (executable : Bool)
    (processId : String) (layout : Diagram.Layout) (ids : List (String × String))
    (flows : List SequenceFlow) :
    Tests (process g executable processId layout ids flows)
      (∀ s ∈ g.nodes, ∀ v ∈ s.inscriptions, v.isStr = true) Misfit.IsTextless := by
  have helements := Tests.mapM fun s hs => tests_element (h.loaded s hs) (ha s hs) ids flows
  refine ((tests_formElements h.loaded).bind fun forms => helements.map _).congr ?_
  -- The ids of forms are tested twice.
  exact and_iff_right_of_imp fun hall s hs v hv => hall s hs v (formIds_subset s hv)

/-! ## Sequence flows -/

/-- A sequence flow to an element tests its condition. -/
theorem tests_ofEdge {ids : List (String × String)} {e : Edge} {key : String}
    (htarget : e.target = .str key) (hkey : key ∈ ids.map (·.1)) (number : Nat) :
    Tests (SequenceFlow.ofEdge ids number e) (∀ c ∈ e.condition, c.isStr = true)
      Failure.IsTextless := by
  obtain ⟨id, hid⟩ := Assoc.exists_get? hkey
  have hto : targetOf ids e = .ok id := by
    simp only [targetOf, htarget, Json.isName, Json.asId?, Option.bind_some, hid, Bool.not_true,
      Bool.false_eq_true, ↓reduceIte]
  have hcondition : Tests (e.condition.mapM Json.asSearchable)
      (∀ c ∈ e.condition, c.isStr = true) Misfit.IsTextless := by
    cases e.condition with
    | none => exact (Tests.pure none).congr (by simp)
    | some c => exact ((tests_asSearchable c).map some).congr (by simp)
  unfold SequenceFlow.ofEdge
  rw [hto]
  exact (hcondition.mapError fun m hm => ⟨m, hm, rfl⟩).map _

/-- Sequence flows to elements test their conditions. -/
theorem tests_flowsFrom {ids : List (String × String)} {edges : List Edge}
    (htargets : ∀ e ∈ edges, ∃ key, e.target = .str key ∧ key ∈ ids.map (·.1)) (number : Nat) :
    Tests (flowsFrom ids number edges) (∀ e ∈ edges, ∀ c ∈ e.condition, c.isStr = true)
      Failure.IsTextless := by
  induction edges generalizing number with
  | nil => exact (Tests.pure []).congr (by simp)
  | cons e rest ih =>
    obtain ⟨key, htarget, hkey⟩ := htargets e List.mem_cons_self
    have hrest := ih (fun e' he => htargets e' (List.mem_cons_of_mem _ he)) (number + 1)
    exact ((tests_ofEdge htarget hkey number).bind fun flow => hrest.map (flow :: ·)).congr
      (by rw [List.forall_mem_cons])

/-- The edges of a state lead to its targets. -/
theorem target_of_mem_edgesOf {source : String} {s : State} {e : Edge}
    (he : e ∈ edgesOf source s) : e.target ∈ s.targets := by
  -- The edge of a `next` or of a last resort, which is there if it is given.
  have hnext : ∀ (v : Json) (b : Bool), e ∈ (if v.isGiven then [⟨source, v, none, b⟩] else []) →
      e.target ∈ (if v.isGiven then [v] else []) := by
    intro v b hmem
    split at hmem
    · rename_i hgiven
      rw [List.mem_singleton.mp hmem, if_pos hgiven]
      exact List.mem_singleton.mpr rfl
    · cases hmem
  revert he
  unfold edgesOf State.targets
  cases s.body with
  | choice branches otherwise =>
    intro he
    rcases List.mem_append.mp he with he | he
    · obtain ⟨b, hb, rfl⟩ := List.mem_map.mp he
      exact List.mem_append_left _ (List.mem_map.mpr ⟨b, hb, rfl⟩)
    · exact List.mem_append_right _ (hnext _ true he)
  | stop reason => exact fun he => nomatch he
  | _ => exact hnext _ false

/-- The conditions at the edges of a state are those that are shown there. -/
theorem edgesOf_conditions (source : String) (s : State) :
    (edgesOf source s).flatMap (·.condition.toList) = s.conditions := by
  have hnext : ∀ (v : Json) (b : Bool),
      (if v.isGiven then [⟨source, v, none, b⟩] else [] : List Edge).flatMap
        (·.condition.toList) = [] := by
    intro v b
    split <;> rfl
  unfold edgesOf State.conditions
  cases s.body with
  | choice branches otherwise =>
    simp only [List.flatMap_append, hnext, List.append_nil, List.flatMap_map, Option.toList_some]
    exact List.map_eq_flatMap.symm
  | stop reason => rfl
  | _ => exact hnext _ false

/-- The sequence flows of a graph that was read test their conditions. -/
theorem tests_flows (h : g.Loaded) {ids : List (String × String)} (hids : ids.map (·.1) = g.keys) :
    Tests (flows g ids) (∀ s ∈ g.nodes, ∀ v ∈ s.conditions, v.isStr = true)
      Failure.IsTextless := by
  have hlisted : ∀ s ∈ g.nodes, s.edgeMisfit? = none := fun s hs => (h.loaded s hs).edgeMisfit?
  have hnodes : g.nodes.takeWhile (·.edgeMisfit?.isNone) = g.nodes :=
    List.takeWhile_eq_self_iff.mpr fun s hs => by rw [hlisted s hs]; rfl
  have hmisfit : g.edgeMisfit? = none := List.findSome?_eq_none_iff.mpr hlisted
  -- Reading has checked where the flow starts and where its states lead to.
  have htargets : ∀ e ∈ edges g ids, ∃ key, e.target = .str key ∧ key ∈ ids.map (·.1) := by
    intro e he
    rw [hids]
    rcases List.mem_cons.mp he with rfl | he
    · -- The edge from the start event, which is no state.
      obtain ⟨key, hkey, hstart⟩ := h.valid.start
      exact ⟨key, hstart, hkey⟩
    · rw [hnodes] at he
      obtain ⟨s, hs, he⟩ := List.mem_flatMap.mp he
      obtain ⟨key, hkey, htarget⟩ := h.valid.targets s hs _ (target_of_mem_edgesOf he)
      exact ⟨key, htarget, hkey⟩
  have hflows : Tests (flows g ids) (∀ e ∈ edges g ids, ∀ c ∈ e.condition, c.isStr = true)
      Failure.IsTextless := by
    unfold flows
    rw [hmisfit]
    exact (tests_flowsFrom htargets 1).map fun fs => fs
  refine hflows.congr ?_
  have hstate : ∀ s : State, (∀ v ∈ s.conditions, v.isStr = true) ↔
      ∀ e ∈ edgesOf (idOf ids s.id) s, ∀ c ∈ e.condition, c.isStr = true := by
    intro s
    rw [← edgesOf_conditions (idOf ids s.id) s]
    simp only [List.mem_flatMap, Option.mem_toList, Option.mem_def]
    exact ⟨fun hall e he c hc => hall c ⟨e, he, hc⟩, fun hall c ⟨e, he, hc⟩ => hall e he c hc⟩
  unfold edges edgesFrom
  rw [hnodes]
  simp only [List.forall_mem_cons, List.forall_mem_flatMap, hstate]
  simp

/-! ## Documents -/

/-- If two states fall together, a graph that was read is refused for the first one that falls
    together with an earlier one. -/
theorem document_of_collision (h : g.Loaded) (ha : ∀ s ∈ g.nodes, s.Attributed) {s : State}
    (hs : IsFirstCollision g.nodes s) (settings : Settings) :
    document g settings = .error (.layout (.duplicateElement (elementOf s).2)) := by
  obtain ⟨_, _, layout, _, _, _, hlayout⟩ := Diagram.exists_layout h.toKeyed h.accepted ha
    settings.geometry settings.defaultLane
  simp only [document, definitions, hlayout, elementIds_of_collision h hs, bind, Except.bind]

/-- If no two states fall together, what is shown decides, and then the numbers do. -/
theorem document_of_apart (h : g.Loaded) (ha : ∀ s ∈ g.nodes, s.Attributed)
    (hapart : AllApart g.nodes) (settings : Settings) :
    ((∃ s ∈ g.nodes, s.isShowable = false) →
      ∃ m : Misfit, m.IsTextless ∧ document g settings = .error (.misfit m)) ∧
    ((∀ s ∈ g.nodes, s.isShowable = true) → ∃ ns, numbers g settings = .ok ns ∧
      ((∀ n ∈ ns, IsShort n) → ∃ text, document g settings = .ok text) ∧
      ((∃ n ∈ ns, ¬ IsShort n) → document g settings = .error (.misfit .longInteger))) := by
  obtain ⟨_, _, layout, _, _, _, hlayout⟩ := Diagram.exists_layout h.toKeyed h.accepted ha
    settings.geometry settings.defaultLane
  have hids := elementIds_of_apart h hapart
  have hflows := tests_flows h (show (g.nodes.map elementOf).map (·.1) = g.keys by
    rw [List.map_map]; exact h.map_display)
  have hprocess := tests_process h ha settings.executable ("Process_" ++ flowSlug g.name) layout
    (g.nodes.map elementOf)
  constructor
  · rintro ⟨s, hs, hshow⟩
    -- The sequence flows are made first, so their conditions are tested first.
    by_cases hconditions : ∀ s ∈ g.nodes, ∀ v ∈ s.conditions, v.isStr = true
    · obtain ⟨fs, hfs⟩ := hflows.ok hconditions
      have hinscriptions : ¬ ∀ s ∈ g.nodes, ∀ v ∈ s.inscriptions, v.isStr = true := fun hall =>
        Bool.eq_false_iff.mp hshow (State.isShowable_iff.mpr ⟨hall s hs, hconditions s hs⟩)
      obtain ⟨m, hm, hkind⟩ := (hprocess fs).error hinscriptions
      refine ⟨m, hkind, ?_⟩
      simp only [document, definitions, hlayout, hids, hfs, hm, bind, Except.bind, Except.mapError]
    · obtain ⟨_, hm, m, hkind, rfl⟩ := hflows.error hconditions
      refine ⟨m, hkind, ?_⟩
      simp only [document, definitions, hlayout, hids, hm, bind, Except.bind]
  · intro hshow
    obtain ⟨fs, hfs⟩ := hflows.ok fun s hs => (State.isShowable_iff.mp (hshow s hs)).2
    obtain ⟨x, hx⟩ := (hprocess fs).ok fun s hs => (State.isShowable_iff.mp (hshow s hs)).1
    have hdiagram := writes_diagram layout (g.nodes.map elementOf) fs
    refine ⟨diagramNumbers layout (g.nodes.map elementOf) fs, ?_, fun hshort => ?_,
      fun hlong => ?_⟩
    · simp only [numbers, hlayout, hids, hfs, bind, Except.bind]
      rfl
    · obtain ⟨y, hy⟩ := hdiagram.short hshort
      simp only [document, definitions, hlayout, hids, hfs, hx, hy, bind, Except.bind,
        Except.mapError]
      exact ⟨_, rfl⟩
    · simp only [document, definitions, hlayout, hids, hfs, hx, hdiagram.long hlong, bind,
        Except.bind, Except.mapError]

/-- A header of the lanes that is as wide as an integer can be written makes the pool wider. -/
theorem exists_long_of_header {settings : Settings} {ns : List Int}
    (h : numbers g settings = .ok ns)
    (hheader : settings.geometry.laneHeaderWidth = 10 ^ Numeral.maxDigits - 1)
    (hcolumn : 0 < settings.geometry.columnWidth) : ∃ n ∈ ns, ¬ IsShort n := by
  obtain ⟨layout, hlayout, h⟩ := Except.bind_eq_ok.mp h
  obtain ⟨ids, _, h⟩ := Except.bind_eq_ok.mp h
  obtain ⟨fs, _, h⟩ := Except.bind_eq_ok.mp h
  cases h
  obtain ⟨columns, hpos, hwidth⟩ := Graph.width_of_layout hlayout
  refine ⟨layout.pool.width, by simp [diagramNumbers, boundsNumbers], ?_⟩
  have hcolumns : 0 < (columns : Int) * settings.geometry.columnWidth :=
    Int.mul_pos (by omega) hcolumn
  have hpow : ((10 ^ Numeral.maxDigits : Nat) : Int) = 10 ^ Numeral.maxDigits := by
    rw [Int.natCast_pow]; rfl
  rw [IsShort, hwidth, hheader, ← hpow]
  omega

/-! ## Main theorem -/

/-- A document with two tasks and a stop whose ids become the same XML id. -/
def twinDocument : Json :=
  .obj [("flow", .str "F"), ("start", .str "a b"), ("states", .arr [
    .obj [("id", .str "a b"), ("kind", .str "task"), ("action", .str "x"), ("next", .str "a-b")],
    .obj [("id", .str "a-b"), ("kind", .str "task"), ("action", .str "y"), ("next", .str "a_b")],
    .obj [("id", .str "a_b"), ("kind", .str "stop")]])]

/-- A document with a single stop. -/
def stopDocument : Json :=
  .obj [("flow", .str "F"), ("start", .str "a"),
    ("states", .arr [.obj [("id", .str "a"), ("kind", .str "stop")]])]

end Bpmn

end Swimlane
