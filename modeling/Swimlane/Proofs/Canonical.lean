import Swimlane.Graph.Document
import Swimlane.Proofs.Validation

/-!
# Canonical graphs

Reading takes a document as it comes: a part may be missing, null or empty, and forms may hold
values of any kind.  Writing leaves out what is not given, and what is left out is read as a value
that is not given either.  So a graph that was read from any document is read back from its own
one, up to the values that stand for what is not given.

## Key results

- `Form.ofJson_toJson`, `State.ofJson_toJson`: what is read back from the document of a form or of
  a state
- `State.loaded_of_ofJson`: what a state that was read looks like
- `Graph.ofJson_toJson`: what is read back from the document of a graph
- `Graph.ofJson_canonical`: reading any document gives a graph whose own document is stable
-/

namespace Swimlane

/-! ## Members -/

namespace Json

/-- The value if it is given, else another one. -/
def givenOr (v other : Json) : Json := if v.isGiven then v else other

/-- A value that stands for what is not given is not given. -/
theorem isGiven_givenOr (v other : Json) (h : other.isGiven = false) :
    (v.givenOr other).isGiven = v.isGiven := by
  cases hv : v.isGiven <;> simp [givenOr, hv, h]

/-- What is given stays as it is. -/
theorem givenOr_of_isGiven {v : Json} (h : v.isGiven = true) (other : Json) :
    v.givenOr other = v := if_pos h

/-- The empty text is what stands for a text that is not given. -/
theorem givenOr_str (s : String) : (str s).givenOr (str "") = str s := by
  by_cases hs : s = ""
  · rw [hs]; rfl
  · exact givenOr_of_isGiven (by simpa [isGiven] using hs) _

/-- A member that is written if it is given is written as before. -/
theorem ifGiven_givenOr (key : String) (v other : Json) (h : other.isGiven = false) :
    ifGiven key (v.givenOr other) = ifGiven key v := by
  cases hv : v.isGiven <;> simp [ifGiven, givenOr, hv, h]

/-- A member that is written if it is given is found if it is given. -/
@[simp] theorem get?_ifGiven_self (key : String) (v : Json) :
    Assoc.get? key (ifGiven key v) = if v.isGiven then some v else none := by
  rw [ifGiven]
  split
  · simp [Assoc.get?]
  · rfl

/-- A member that is written unless it is null is found unless it is null. -/
@[simp] theorem get?_unlessNull_self (key : String) (v : Json) :
    Assoc.get? key (unlessNull key v) = if v.isNull then none else some v := by
  rw [unlessNull]
  split
  · rfl
  · simp [Assoc.get?]

/-- Under another name such a member is not found. -/
@[simp] theorem get?_ifGiven_of_ne {key key' : String} (h : key' ≠ key) (v : Json) :
    Assoc.get? key (ifGiven key' v) = none := by
  rw [ifGiven]
  split
  · simp [Assoc.get?, h]
  · rfl

/-- Under another name such a member is not found. -/
@[simp] theorem get?_unlessNull_of_ne {key key' : String} (h : key' ≠ key) (v : Json) :
    Assoc.get? key (unlessNull key' v) = none := by
  rw [unlessNull]
  split
  · rfl
  · simp [Assoc.get?, h]

/-- A value that is left out if it is null is read as null. -/
@[simp] theorem getD_unlessNull (v : Json) : (if v.isNull then none else some v).getD null = v := by
  cases v <;> rfl

/-- A value that is left out if it is not given is read as what stands for it. -/
@[simp] theorem getD_ifGiven (v other : Json) :
    (if v.isGiven then some v else none).getD other = v.givenOr other := by
  cases hv : v.isGiven <;> simp [givenOr, hv]

end Json

/-! ## Forms -/

/-- The rule with the empty text for a message that is not given. -/
def Rule.canonical (r : Rule) : Rule := { r with message := r.message.givenOr (.str "") }

/-- The field with canonical rules. -/
def Field.canonical (f : Field) : Field := { f with rules := f.rules.map Rule.canonical }

/-- The form with canonical fields. -/
def Form.canonical (f : Form) : Form := { f with fields := f.fields.map Field.canonical }

/-- A canonical rule is written as before. -/
theorem Rule.toJson_canonical (r : Rule) : r.canonical.toJson = r.toJson := by
  simp only [Rule.toJson, Rule.canonical, Json.ifGiven_givenOr _ _ (.str "") rfl]

/-- A canonical field is written as before. -/
theorem Field.toJson_canonical (f : Field) : f.canonical.toJson = f.toJson := by
  have hrules : Rule.toJson ∘ Rule.canonical = Rule.toJson := funext Rule.toJson_canonical
  rw [Field.toJson, Field.canonical, List.map_map, hrules]
  rfl

/-- A canonical form is written as before. -/
theorem Form.toJson_canonical (f : Form) : f.canonical.toJson = f.toJson := by
  have hfields : Field.toJson ∘ Field.canonical = Field.toJson := funext Field.toJson_canonical
  simp only [Form.toJson, Form.canonical, List.map_map, hfields]

/-- From the document of a rule the canonical rule is read. -/
theorem Rule.ofJson_toJson (r : Rule) : Rule.ofJson r.toJson = .ok r.canonical := by
  -- Every part is looked up behind the parts that stand before it.
  simp [Rule.ofJson, Rule.toJson, Json.getD, Json.get?, Json.member, Assoc.get?, Assoc.get?_append,
    bind, Except.bind]
  rfl

/-- An option is read back. -/
theorem Choice.ofJson_toJson (c : Choice) : Choice.ofJson c.toJson = .ok c := rfl

/-- From the document of a field the canonical field is read, without options if it has none. -/
theorem Field.ofJson_toJson (f : Field) : Field.ofJson f.toJson = .ok f.canonical := by
  have hrules : (f.rules.map Rule.toJson).mapM Rule.ofJson = .ok (f.rules.map Rule.canonical) :=
    Except.mapM_map_eq_ok fun r _ => Rule.ofJson_toJson r
  have hoptions : (f.options.map Choice.toJson).mapM Choice.ofJson = .ok f.options := by
    rw [Except.mapM_map_eq_ok fun c _ => Choice.ofJson_toJson c, List.map_id']
  have hwritten : f.toJson.getD "options" (.arr []) = .arr (f.options.map Choice.toJson) := by
    obtain ⟨name, label, type, rules, options⟩ := f
    cases options <;> rfl
  refine Except.bind_eq_ok.mpr ⟨f.name, rfl, Except.bind_eq_ok.mpr ⟨f.label, rfl,
    Except.bind_eq_ok.mpr ⟨f.type, rfl, ?_⟩⟩⟩
  refine Except.bind_eq_ok.mpr ⟨_, rfl, Except.bind_eq_ok.mpr ⟨_, rfl,
    Except.bind_eq_ok.mpr ⟨_, hrules, ?_⟩⟩⟩
  rw [hwritten]
  exact Except.bind_eq_ok.mpr ⟨_, rfl, Except.bind_eq_ok.mpr ⟨f.options, hoptions, rfl⟩⟩

/-- From the document of a form the canonical form is read. -/
theorem Form.ofJson_toJson (f : Form) : Form.ofJson f.toJson = .ok f.canonical := by
  have hfields : (f.fields.map Field.toJson).mapM Field.ofJson =
      .ok (f.fields.map Field.canonical) :=
    Except.mapM_map_eq_ok fun field _ => Field.ofJson_toJson field
  exact Except.bind_eq_ok.mpr ⟨f.id, rfl, Except.bind_eq_ok.mpr ⟨f.title, rfl,
    Except.bind_eq_ok.mpr ⟨_, rfl, Except.bind_eq_ok.mpr ⟨_, hfields, rfl⟩⟩⟩⟩

/-! ## States -/

namespace State

/-- What a state does, with canonical values for what is not given. -/
def Body.canonical : Body → Body
  | .userTask prompt assignee form =>
    .userTask prompt (assignee.givenOr (.str "")) (form.map (·.map Form.canonical))
  | .choice branches otherwise => .choice branches (otherwise.givenOr .null)
  | body => body

/-- The state with canonical values for what is not given. -/
def canonical (s : State) : State :=
  { s with body := s.body.canonical, next := s.next.givenOr .null }

/-- A state as documents give rise to: it has the label of its kind, and its parts are values of
    any kind. -/
inductive Loaded : State → Prop
  | userTask (id : String) (prompt assignee : Json) (form : Option Form) (next : Json) :
    Loaded (make id (.userTask prompt assignee (form.map .ok)) next)
  | task (id : String) (action next : Json) : Loaded (make id (.task action) next)
  | choice (id : String) (branches : List Branch) (otherwise : Json) :
    Loaded (make id (.choice (.list branches) otherwise) .null)
  | send (id : String) (channel recipient message next : Json) :
    Loaded (make id (.send channel recipient message) next)
  | stop (id : String) (reason : Json) : Loaded (make id (.stop reason) .null)

namespace Loaded

variable {s : State}

/-- The id of such a state is a text. -/
theorem id_eq (h : s.Loaded) : s.id = .str s.id.display := by
  cases h <;> rfl

/-- The label of such a state is the name of its kind. -/
theorem label_eq (h : s.Loaded) : s.label = .str s.body.kind.name := by
  cases h <;> rfl

/-- With canonical values for what is not given it still is such a state. -/
theorem canonical (h : s.Loaded) : s.canonical.Loaded := by
  cases h with
  | userTask id prompt assignee form next =>
    have hloaded := Loaded.userTask id prompt (assignee.givenOr (.str "")) (form.map Form.canonical)
      (next.givenOr .null)
    cases form <;> exact hloaded
  | task id action next => exact .task id action _
  | choice id branches otherwise => exact .choice id branches (otherwise.givenOr .null)
  | send id channel recipient message next => exact .send id channel recipient message _
  | stop id reason => exact .stop id reason

/-- Such a state can be written. -/
theorem writeMisfit? (h : s.Loaded) : s.writeMisfit? = none := by
  cases h with
  | userTask id prompt assignee form next => cases form <;> rfl
  | _ => rfl

/-- The edges of such a state can be listed. -/
theorem edgeMisfit? (h : s.Loaded) : s.edgeMisfit? = none := by
  cases h <;> rfl

end Loaded

/-- The edge to a value that may not be given stays as it is. -/
theorem ite_givenOr_null (v : Json) :
    (if (v.givenOr .null).isGiven then [v.givenOr .null] else []) =
      if v.isGiven then [v] else [] := by
  rw [Json.isGiven_givenOr v .null rfl]
  split
  · rename_i hv
    rw [Json.givenOr_of_isGiven hv]
  · rfl

/-- A canonical state has the place of the state. -/
theorem keepsPlace_canonical : KeepsPlace canonical where
  id _ := rfl
  targets s := by
    cases hb : s.body <;> simp only [targets, canonical, Body.canonical, hb, ite_givenOr_null]
  isStop s := by
    cases hb : s.body <;> simp only [isStop, canonical, Body.canonical, hb]

/-- What a canonical state does is of the same kind. -/
theorem kind_canonical (b : Body) : b.canonical.kind = b.kind := by
  cases b <;> rfl

/-- The members by what a state does are written as before. -/
theorem members_canonical (b : Body) : b.canonical.members = b.members := by
  cases b with
  | userTask prompt assignee form =>
    simp only [Body.canonical, Body.members, Json.ifGiven_givenOr _ _ (.str "") rfl]
    match form with
    | none => rfl
    | some (.error misfit) => rfl
    | some (.ok f) =>
      show _ ++ [("form", f.canonical.toJson)] = _ ++ [("form", f.toJson)]
      rw [Form.toJson_canonical]
  | choice branches otherwise =>
    simp only [Body.canonical, Body.members, Json.ifGiven_givenOr _ _ .null rfl]
  | _ => rfl

/-- A canonical state is written as before. -/
theorem toJson_canonical (s : State) : s.canonical.toJson = s.toJson := by
  simp only [toJson, canonical, members_canonical, Json.ifGiven_givenOr _ _ .null rfl]

/-- A member that is there can be asked for. -/
theorem require_obj (id : String) {members : List (String × Json)} {key : String} {v : Json}
    (h : Assoc.get? key members = some v) : require id (.obj members) key = .ok v := by
  have hany : members.any (·.1 == key) = true :=
    List.any_eq_true.mpr ⟨_, Assoc.mem_of_get? h, beq_self_eq_true key⟩
  simp only [require, Json.holds?, hany, Json.member, h]
  rfl

/-- A branch is read back. -/
theorem Branch.ofJson_toJson (id : String) (b : Branch) : Branch.ofJson id b.toJson = .ok b :=
  Except.bind_eq_ok.mpr ⟨b.condition, require_obj id rfl,
    Except.bind_eq_ok.mpr ⟨b.next, require_obj id rfl, rfl⟩⟩

/-- From the document of a state the canonical state is read if what it does and where it leads
    are read so. -/
theorem ofJson_of_body {s : State} (h : s.Loaded)
    (hbody : Body.ofJson s.id.display s.toJson s.body.kind = .ok s.body.canonical)
    (hnext : (if s.body.kind.hasNext then s.toJson.getD "next" .null else .null) =
      s.next.givenOr .null) : ofJson s.toJson = .ok s.canonical := by
  refine Except.bind_eq_ok.mpr ⟨s.id, require_obj "" rfl,
    Except.bind_eq_ok.mpr ⟨s.label, require_obj _ rfl, ?_⟩⟩
  rw [h.label_eq, Kind.ofLabel?_name]
  refine Except.bind_eq_ok.mpr ⟨s.body.canonical, hbody, ?_⟩
  rw [hnext]
  have hmake : make s.id.display s.body.canonical (s.next.givenOr .null) = s.canonical := by
    rw [make, kind_canonical, ← h.id_eq, ← h.label_eq]
    rfl
  rw [hmake]
  rfl

/-- The members by what a state does do not say where it leads. -/
theorem get?_next_members (b : Body) : Assoc.get? "next" b.members = none := by
  cases b with
  | userTask prompt assignee form =>
    simp only [Body.members, Assoc.get?_append]
    split <;> simp [Assoc.get?]
  | choice branches otherwise => simp [Body.members, Assoc.get?]
  | _ => rfl

/-- Where a state leads is read as null if it is not given. -/
theorem getD_next_toJson (s : State) : s.toJson.getD "next" .null = s.next.givenOr .null := by
  simp [toJson, Json.getD, Json.get?, Assoc.get?, Assoc.get?_append, get?_next_members]

/-- What a person is asked is read back: the form, if there is one, and who the person is, if that
    is given. -/
theorem ofJson_userTask (id : String) (prompt assignee : Json) (form : Option Form) (next : Json) :
    Body.ofJson id (make id (.userTask prompt assignee (form.map .ok)) next).toJson .userTask =
      .ok (Body.userTask prompt assignee (form.map .ok)).canonical := by
  -- The form is written behind the assignee, so both are looked up with and without a form.
  have hassignee : (make id (.userTask prompt assignee (form.map .ok)) next).toJson.getD
      "assignee" (.str "") = assignee.givenOr (.str "") := by
    cases form <;> simp [make, toJson, Body.members, Json.getD, Json.get?, Assoc.get?,
      Assoc.get?_append]
  have hform : formOf id ((make id (.userTask prompt assignee (form.map .ok)) next).toJson.getD
      "form" .null) = .ok (form.map Form.canonical) := by
    cases form with
    | none => simp [formOf, make, toJson, Body.members, Json.getD, Json.get?, Assoc.get?,
        Assoc.get?_append, Json.isNull]
    | some f =>
      have hnull : f.toJson.isNull = false := rfl
      simp [formOf, make, toJson, Body.members, Json.getD, Json.get?, Assoc.get?,
        Assoc.get?_append, hnull, Form.ofJson_toJson]
  refine Except.bind_eq_ok.mpr ⟨_, hform, Except.bind_eq_ok.mpr ⟨prompt, require_obj id rfl, ?_⟩⟩
  rw [hassignee]
  cases form <;> rfl

/-- The branches of a choice are read back, and its last resort if it has one. -/
theorem ofJson_choice (id : String) (branches : List Branch) (otherwise next : Json) :
    Body.ofJson id (make id (.choice (.list branches) otherwise) next).toJson .choice =
      .ok (Body.choice (.list branches) otherwise).canonical := by
  have hotherwise : (make id (.choice (.list branches) otherwise) next).toJson.getD
      "otherwise" .null = otherwise.givenOr .null := by
    simp [make, toJson, Body.members, Json.getD, Json.get?, Assoc.get?, Assoc.get?_append]
  have hbranches : (branches.map Branch.toJson).mapM (Branch.ofJson id) = .ok branches := by
    rw [Except.mapM_map_eq_ok fun b _ => Branch.ofJson_toJson id b, List.map_id']
  refine Except.bind_eq_ok.mpr ⟨_, rfl, Except.bind_eq_ok.mpr ⟨_, hbranches, ?_⟩⟩
  rw [hotherwise]
  rfl

/-- From the document of a state as documents give rise to the canonical state is read. -/
theorem ofJson_toJson {s : State} (h : s.Loaded) : ofJson s.toJson = .ok s.canonical := by
  cases h with
  | userTask id prompt assignee form next =>
    exact ofJson_of_body (.userTask id prompt assignee form next)
      (ofJson_userTask id prompt assignee form next) (getD_next_toJson _)
  | task id action next =>
    exact ofJson_of_body (.task id action next)
      (Except.bind_eq_ok.mpr ⟨_, require_obj id rfl, rfl⟩) (getD_next_toJson _)
  | choice id branches otherwise =>
    exact ofJson_of_body (.choice id branches otherwise)
      (ofJson_choice id branches otherwise .null) rfl
  | send id channel recipient message next =>
    exact ofJson_of_body (.send id channel recipient message next)
      (Except.bind_eq_ok.mpr ⟨_, require_obj id rfl,
        Except.bind_eq_ok.mpr ⟨_, require_obj id rfl, rfl⟩⟩) (getD_next_toJson _)
  | stop id reason => exact ofJson_of_body (.stop id reason) rfl rfl

/-! ### States that were read -/

/-- What was read for a state, and where it leads, make a state as documents give rise to. -/
theorem loaded_of_body {id : String} {v next : Json} {kind : Kind} {body : Body}
    (h : Body.ofJson id v kind = .ok body) :
    Loaded (make id body (if kind.hasNext then next else .null)) := by
  cases kind with
  | userTask =>
    obtain ⟨form, _, h⟩ := Except.bind_eq_ok.mp h
    obtain ⟨prompt, _, h⟩ := Except.bind_eq_ok.mp h
    cases h
    exact .userTask id prompt _ form next
  | task =>
    obtain ⟨action, _, h⟩ := Except.bind_eq_ok.mp h
    cases h
    exact .task id action next
  | choice =>
    obtain ⟨entries, _, h⟩ := Except.bind_eq_ok.mp h
    obtain ⟨branches, _, h⟩ := Except.bind_eq_ok.mp h
    cases h
    exact .choice id branches _
  | send =>
    obtain ⟨recipient, _, h⟩ := Except.bind_eq_ok.mp h
    obtain ⟨message, _, h⟩ := Except.bind_eq_ok.mp h
    cases h
    exact .send id _ recipient message next
  | stop =>
    rw [Body.ofJson] at h
    split at h
    · cases h
    · cases h
      exact .stop id _

/-- A state that was read is one as documents give rise to. -/
theorem loaded_of_ofJson {v : Json} {s : State} (h : ofJson v = .ok s) : s.Loaded := by
  cases v with
  | obj members =>
    obtain ⟨id, _, h⟩ := Except.bind_eq_ok.mp h
    obtain ⟨label, _, h⟩ := Except.bind_eq_ok.mp h
    cases hk : Kind.ofLabel? label with
    | none => rw [hk] at h; cases h
    | some kind =>
      rw [hk] at h
      obtain ⟨body, hbody, h⟩ := Except.bind_eq_ok.mp h
      cases h
      exact loaded_of_body hbody
  | _ => cases h

end State

/-! ## Graphs -/

namespace Graph

/-- States with different ids, none of which is there yet, are added in order. -/
theorem addEntries_toJson {states : List State} (h : ∀ s ∈ states, s.Loaded) {g : Graph}
    (hn : (g.keys ++ states.map (·.id.display)).Nodup) :
    ∃ start, g.addEntries (states.map State.toJson) =
      .ok { g with
        start
        states := g.states ++ states.map fun s => (s.id.display, s.canonical) } := by
  -- What was added so far is in the graph, so the graph changes along the list.
  induction states generalizing g with
  | nil => exact ⟨g.start, by simp [addEntries]⟩
  | cons s rest ih =>
    have hkey : s.id.display ∉ g.keys := fun hmem =>
      (List.nodup_append.mp hn).2.2 _ hmem _ List.mem_cons_self rfl
    have hadd : g.add s.canonical = .ok { g with
        states := g.states ++ [(s.id.display, s.canonical)]
        start := if g.start.isGiven then g.start else s.id } := by
      rw [add, State.keepsPlace_canonical.id, if_neg hkey]
    have hrest : (keys { g with
        states := g.states ++ [(s.id.display, s.canonical)]
        start := if g.start.isGiven then g.start else s.id } ++
        rest.map (·.id.display)).Nodup := by
      simpa [keys] using hn
    obtain ⟨start, hrest⟩ := ih (fun t ht => h t (List.mem_cons_of_mem _ ht)) hrest
    refine ⟨start, Except.bind_eq_ok.mpr ⟨_, State.ofJson_toJson (h s List.mem_cons_self),
      Except.bind_eq_ok.mpr ⟨_, hadd, ?_⟩⟩⟩
    rw [hrest]
    simp

/-- From the document of a graph of states as documents give rise to its canonical graph is read,
    if the canonical graph is accepted. -/
theorem ofJson_toJson {g : Graph} (h : g.Keyed) (hl : ∀ s ∈ g.nodes, s.Loaded) {key : String}
    (hstart : g.start = .str key)
    (hw : (g.mapStates State.canonical).validate = .ok g.warnings) :
    ofJson g.toJson = .ok (g.mapStates State.canonical) := by
  have hn : ((empty g.name).keys ++ g.nodes.map (·.id.display)).Nodup := by
    rw [h.map_display]
    exact h.nodup
  obtain ⟨start, hadd⟩ := addEntries_toJson hl hn
  have hstates : g.nodes.map (fun s => (s.id.display, s.canonical)) =
      (g.mapStates State.canonical).states := by
    rw [mapStates, ← h.states_eq, List.map_map]
    rfl
  rw [hstates] at hadd
  refine Except.bind_eq_ok.mpr ⟨_, State.require_obj "" rfl, Except.bind_eq_ok.mpr
    ⟨.str g.name, State.require_obj "" rfl, Except.bind_eq_ok.mpr ⟨_, hadd,
      Except.bind_eq_ok.mpr ⟨g.start, State.require_obj "" rfl, ?_⟩⟩⟩⟩
  -- Only the warnings are missing, and validation does not look at them.
  have hgraph : (⟨g.name, .str g.start.display, [] ++ (g.mapStates State.canonical).states, []⟩ :
      Graph) = { g.mapStates State.canonical with warnings := [] } := by
    rw [List.nil_append, hstart, mapStates, hstart]
    rfl
  show Graph.validated ⟨g.name, .str g.start.display,
    [] ++ (g.mapStates State.canonical).states, []⟩ = .ok (g.mapStates State.canonical)
  rw [hgraph]
  exact Except.bind_eq_ok.mpr ⟨g.warnings, hw, rfl⟩

/-- Reading entries one after the other adds states as documents give rise to. -/
theorem loaded_of_addEntries {entries : List Json} {g g' : Graph} (hg : g.Keyed)
    (hl : ∀ s ∈ g.nodes, s.Loaded) (h : g.addEntries entries = .ok g') :
    g'.Keyed ∧ ∀ s ∈ g'.nodes, s.Loaded := by
  induction entries generalizing g with
  | nil => cases h; exact ⟨hg, hl⟩
  | cons v rest ih =>
    obtain ⟨s, hs, h⟩ := Except.bind_eq_ok.mp h
    obtain ⟨g₁, hadd, h⟩ := Except.bind_eq_ok.mp h
    have hloaded := State.loaded_of_ofJson hs
    refine ih (hg.add hloaded.id_eq hadd) (fun t ht => ?_) h
    rw [nodes_of_add hadd, List.mem_append, List.mem_singleton] at ht
    rcases ht with ht | rfl
    · exact hl t ht
    · exact hloaded

/-- What a graph that was read from a document looks like. -/
structure Loaded (g : Graph) : Prop extends Keyed g where
  loaded : ∀ s ∈ g.nodes, s.Loaded
  start : ∃ key, g.start = .str key
  accepted : g.validate = .ok g.warnings

/-- Reading any document gives such a graph, if it gives one. -/
theorem loaded_of_ofJson {d : Json} {g : Graph} (h : ofJson d = .ok g) : g.Loaded := by
  cases d with
  | obj members =>
    obtain ⟨states, _, h⟩ := Except.bind_eq_ok.mp h
    cases states with
    | arr entries =>
      obtain ⟨name, _, h⟩ := Except.bind_eq_ok.mp h
      obtain ⟨g₁, hadd, h⟩ := Except.bind_eq_ok.mp h
      obtain ⟨start, _, h⟩ := Except.bind_eq_ok.mp h
      obtain ⟨warnings, hwarnings, h⟩ := Except.bind_eq_ok.mp h
      cases h
      obtain ⟨hkeyed, hloaded⟩ := loaded_of_addEntries (assembled_empty name.display).toKeyed
        (fun _ hs => (nomatch hs)) hadd
      -- The start and the warnings come last, and the states stay as they were read.
      exact ⟨⟨hkeyed.keyed, hkeyed.nodup⟩, hloaded, ⟨_, rfl⟩, hwarnings⟩
    | _ => cases h
  | _ => cases h

namespace Loaded

variable {g : Graph}

/-- A graph that was read is assembled of states with texts for their ids and targets. -/
theorem assembled (h : g.Loaded) : g.Assembled := by
  obtain ⟨key, hstart⟩ := h.start
  refine ⟨h.toKeyed, by rw [hstart]; rfl, fun s hs => ?_⟩
  have hl := h.loaded s hs
  refine ⟨⟨_, hl.id_eq⟩, hl.label_eq, hl.edgeMisfit?, fun t ht => ?_⟩
  -- Validation lets only those targets pass that are keys.
  have hcheck := (checked_of_validate h.accepted).2 s hs
  obtain ⟨key, _, hkey⟩ := (checkState_eq_ok_iff.mp hcheck).2.2.2 t ht
  exact ⟨key, hkey⟩

/-- A graph that was read is valid. -/
theorem valid (h : g.Loaded) : g.Valid := h.assembled.valid_of_validate h.accepted

/-- A graph that was read can be written. -/
theorem writeMisfit? (h : g.Loaded) : g.writeMisfit? = none :=
  List.findSome?_eq_none_iff.mpr fun s hs => (h.loaded s hs).writeMisfit?

/-- The canonical graph is assembled of states with texts for their ids and targets. -/
theorem assembled_canonical (h : g.Loaded) : (g.mapStates State.canonical).Assembled := by
  refine ⟨h.toKeyed.mapStates State.keepsPlace_canonical, h.assembled.start, fun s' hs' => ?_⟩
  rw [mapStates_nodes] at hs'
  obtain ⟨s, hs, rfl⟩ := List.mem_map.mp hs'
  have ht := h.assembled.typed s hs
  have hl := (h.loaded s hs).canonical
  refine ⟨ht.id, hl.label_eq, hl.edgeMisfit?, ?_⟩
  rw [State.keepsPlace_canonical.targets]
  exact ht.targets

/-- The canonical graph is valid. -/
theorem valid_canonical (h : g.Loaded) : (g.mapStates State.canonical).Valid where
  nonempty := by simpa [mapStates] using h.valid.nonempty
  start := by rw [mapStates_keys]; exact h.valid.start
  choices := by
    intro s' hs' branches otherwise hb
    rw [mapStates_nodes] at hs'
    obtain ⟨s, hs, rfl⟩ := List.mem_map.mp hs'
    cases hbody : s.body with
    | choice bs o =>
      simp only [State.canonical, State.Body.canonical, hbody, State.Body.choice.injEq] at hb
      obtain ⟨rfl, rfl⟩ := hb
      -- The branches stay as they are, and a last resort that is not given becomes null.
      rw [Json.isGiven_givenOr o .null rfl]
      exact h.valid.choices s hs bs o hbody
    | _ => simp [State.canonical, State.Body.canonical, hbody] at hb
  targets := by
    intro s' hs'
    rw [mapStates_nodes] at hs'
    obtain ⟨s, hs, rfl⟩ := List.mem_map.mp hs'
    rw [State.keepsPlace_canonical.targets, mapStates_keys]
    exact h.valid.targets s hs
  stops := by
    rw [mapStates_canStop State.keepsPlace_canonical]
    exact h.valid.stops

/-- The canonical graph is accepted with the same warnings. -/
theorem validate_canonical (h : g.Loaded) :
    (g.mapStates State.canonical).validate = .ok g.warnings := by
  obtain ⟨start, hstart⟩ := h.start
  have hwarnings := h.assembled.validateFrom_of_valid h.valid hstart (List.Perm.refl _)
  have hcanonical := h.assembled_canonical.validateFrom_of_valid h.valid_canonical
    hstart (List.Perm.refl _)
  rw [mapStates_defects State.keepsPlace_canonical] at hcanonical
  rw [Graph.validate, hcanonical, ← hwarnings]
  exact h.accepted

/-- The canonical graph is read back. -/
theorem ofJson_toJson (h : g.Loaded) :
    ofJson g.toJson = .ok (g.mapStates State.canonical) := by
  obtain ⟨_, hstart⟩ := h.start
  exact Graph.ofJson_toJson h.toKeyed h.loaded hstart h.validate_canonical

/-- The canonical graph is written as before. -/
theorem toJson_canonical (g : Graph) : (g.mapStates State.canonical).toJson = g.toJson := by
  have hstates : State.toJson ∘ State.canonical = State.toJson := funext State.toJson_canonical
  rw [toJson, mapStates_nodes, List.map_map, hstates]
  rfl

end Loaded

/-- Whatever a document holds, if a graph is read from it, the graph can be written, and from what
    is written a graph is read that is written in the same way, and that has the same start, the
    same states in the same order, the same edges and the same warnings. -/
theorem ofJson_canonical {d : Json} {g : Graph} (h : ofJson d = .ok g) :
    g.writeMisfit? = none ∧ ∃ g', ofJson g.toJson = .ok g' ∧ g'.writeMisfit? = none ∧
      g'.toJson = g.toJson ∧ g'.start = g.start ∧ g'.keys = g.keys ∧ g'.edges = g.edges ∧
      g'.warnings = g.warnings := by
  have hg := loaded_of_ofJson h
  have hread := hg.ofJson_toJson
  exact ⟨hg.writeMisfit?, _, hread, (loaded_of_ofJson hread).writeMisfit?,
    Loaded.toJson_canonical g, rfl, mapStates_keys _ g,
    mapStates_edges State.keepsPlace_canonical g, rfl⟩

/-- A document with numbers for ids, an empty object for branches, values that are not given, and
    a form with values of the wrong kinds. -/
def oddDocument : Json :=
  let rule := .obj [("type", .int 3), ("min", .null), ("max", .obj []), ("message", .int 0)]
  let field := .obj [("name", .bool true), ("label", .null), ("type", .str ""),
    ("options", .str ""), ("validation", .obj [("rules", .arr [rule])])]
  .obj [("flow", .int 7), ("start", .int 1), ("version", .null), ("states", .arr [
    .obj [("id", .int 1), ("kind", .str "userTask"), ("prompt", .arr []), ("assignee", .null),
      ("form", .obj [("id", .obj []), ("title", .int 0), ("fields", .arr [field])]),
      ("next", .str "2")],
    .obj [("id", .str "2"), ("kind", .str "choice"), ("branches", .obj []),
      ("otherwise", .str "True"), ("next", .int 5)],
    .obj [("id", .bool true), ("kind", .str "stop"), ("next", .int 0)]])]

/-- The graph of this document is read back from its own one. -/
theorem ofJson_oddDocument : ∃ g, ofJson oddDocument = .ok g ∧ g.keys = ["1", "2", "True"] ∧
    ∃ g', ofJson g.toJson = .ok g' ∧ g'.toJson = g.toJson ∧ g'.start = g.start ∧
      g'.keys = g.keys ∧ g'.edges = g.edges ∧ g'.warnings = g.warnings := by
  have hkeys : (ofJson oddDocument).map (·.keys) = .ok ["1", "2", "True"] := by cbv
  cases hg : ofJson oddDocument with
  | error e => rw [hg] at hkeys; cases hkeys
  | ok g =>
    rw [hg] at hkeys
    obtain ⟨_, g', hread, _, hsame⟩ := ofJson_canonical hg
    exact ⟨g, rfl, Except.ok.inj hkeys, g', hread, hsame⟩

end Graph

end Swimlane
