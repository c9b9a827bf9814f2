import Mathlib
import Swimlane.Insights
import Swimlane.Proofs.ActingLanes
import Swimlane.Proofs.Clauses
import Swimlane.Proofs.FormArtifacts
import Swimlane.Proofs.Mentions

/-!
# The insights of a flow

The variables of a flow are noted state by state, each under its name with the origins that it was
noted for.  After any number of notes the list is the one that groups all of them by name: the names
in the order of their first notes, and with each name its origins in the order of theirs.  So the
insights of a story can be read off its states at once.

## Key results

- `note_noted`: one more note adds to the groups
- `ofGraph_of_clear`: the insights of a graph, state by state
- `describes_of_ofStory`: the insights of a story tell what stands in its graph and in its forms
-/

namespace Swimlane

open Placeholder

/-! ## Notes -/

/-- The notes on the variables of a state: each variable that it mentions, with its origin. -/
def State.notes (s : State) : List (String × String) :=
  match s.body with
  | .userTask prompt assignee _ => (askedOf (prompt.display, assignee.display)).map (·, "input")
  | .task action => (names action.display).map (·, "system")
  | .choice branches _ =>
    (branches.items.flatMap fun b => names b.condition.display).map (·, "condition")
  | .send _ recipient message =>
    (names message.display ++ names recipient.display).map (·, "output")
  | .stop _ => []

namespace Insights

/-- The origins in the notes on a name, in the order of their first notes. -/
def originsOf (notes : List (String × String)) (name : String) : List String :=
  ((notes.filter (·.1 == name)).map (·.2)).eraseDups

/-- Notes grouped by name. -/
def noted (notes : List (String × String)) : List Variable :=
  (notes.map (·.1)).eraseDups.map fun name => ⟨name, .str "", originsOf notes name⟩

/-- One more note on variables with different names: if the name is among them then the origin is
    added unless it is known, else the name is. -/
theorem note_map (origin name : String) (origins : String → List String) {ns : List String}
    (hnodup : ns.Nodup) :
    note origin name (ns.map fun n => ⟨n, .str "", origins n⟩) =
      (ns.map fun n => ⟨n, .str "",
        if n = name ∧ origin ∉ origins n then origins n ++ [origin] else origins n⟩) ++
      if name ∈ ns then [] else [⟨name, .str "", [origin]⟩] := by
  induction ns with
  | nil => rfl
  | cons n rest ih =>
    obtain ⟨hn, hrest⟩ := List.nodup_cons.mp hnodup
    rw [List.map_cons, note]
    by_cases hname : n = name
    · subst hname
      -- The names behind differ, so nothing changes there.
      have hsame : (rest.map fun m => (⟨m, .str "",
          if m = n ∧ origin ∉ origins m then origins m ++ [origin] else origins m⟩ : Variable)) =
          rest.map fun m => ⟨m, .str "", origins m⟩ := by
        refine List.map_congr_left fun m hm => ?_
        have hne : m ≠ n := fun heq => hn (heq ▸ hm)
        rw [if_neg fun h => hne h.1]
      rw [if_pos rfl, List.map_cons, hsame]
      by_cases horigin : origin ∈ origins n <;> simp [horigin]
    · rw [if_neg hname, ih hrest]
      simp [hname, Ne.symm hname]

/-- The origins of a name, after one more note. -/
theorem originsOf_concat (notes : List (String × String)) (name origin n : String) :
    originsOf (notes ++ [(name, origin)]) n =
      if n = name ∧ origin ∉ originsOf notes n then originsOf notes n ++ [origin]
      else originsOf notes n := by
  rw [originsOf, List.filter_append]
  by_cases hn : n = name
  · have hlast : [(name, origin)].filter (·.1 == n) = [(name, origin)] := by simp [hn]
    rw [hlast, List.map_append, List.map_cons, List.map_nil, eraseDups_concat, ← originsOf,
      if_congr List.mem_eraseDups.symm rfl rfl, ← originsOf]
    simp [hn]
  · have hlast : [(name, origin)].filter (·.1 == n) = [] := by simp [Ne.symm hn]
    rw [hlast, List.append_nil, ← originsOf, if_neg fun h => hn h.1]

/-- A name without notes has no origins. -/
theorem originsOf_eq_nil {notes : List (String × String)} {name : String}
    (h : name ∉ notes.map (·.1)) : originsOf notes name = [] := by
  have hnone : notes.filter (·.1 == name) = [] :=
    List.filter_eq_nil_iff.mpr fun p hp heq => h (List.mem_map.mpr ⟨p, hp, eq_of_beq heq⟩)
  rw [originsOf, hnone]
  rfl

/-- One more note adds to the groups. -/
theorem note_noted (origin name : String) (notes : List (String × String)) :
    note origin name (noted notes) = noted (notes ++ [(name, origin)]) := by
  rw [noted, note_map _ _ _ (nodup_eraseDups _), noted, List.map_append, List.map_cons,
    List.map_nil, eraseDups_concat, if_congr List.mem_eraseDups rfl rfl]
  simp only [originsOf_concat]
  by_cases hmem : name ∈ notes.map (·.1)
  · rw [if_pos hmem, if_pos hmem, List.append_nil]
  · rw [if_neg hmem, if_neg hmem, List.map_append, List.map_cons, List.map_nil,
      originsOf_eq_nil hmem]
    simp

/-- Several notes for one origin. -/
theorem noteAll_noted (origin : String) (ns : List String) (notes : List (String × String)) :
    noteAll origin ns (noted notes) = noted (notes ++ ns.map (·, origin)) := by
  induction ns generalizing notes with
  | nil => rw [List.map_nil, List.append_nil]; rfl
  | cons n rest ih =>
    rw [noteAll, List.foldl_cons, note_noted, ← noteAll, ih, List.append_assoc]
    rfl

/-- A note that is repeated adds nothing. -/
theorem noted_eraseDups (notes : List (String × String)) : noted notes.eraseDups = noted notes := by
  rw [noted, eraseDups_map_eraseDups, noted]
  refine List.map_congr_left fun n _ => ?_
  rw [originsOf, ← eraseDups_filter, eraseDups_map_eraseDups, ← originsOf]

/-- Names that are repeated add nothing. -/
theorem noteAll_eraseDups (origin : String) (ns : List String) (notes : List (String × String)) :
    noteAll origin ns.eraseDups (noted notes) = noted (notes ++ ns.map (·, origin)) := by
  have hfirsts : (notes ++ ns.eraseDups.map (·, origin)).eraseDups =
      (notes ++ ns.map (·, origin)).eraseDups := by
    rw [List.eraseDups_append, List.eraseDups_append, List.removeAll, List.removeAll,
      eraseDups_filter, eraseDups_filter, eraseDups_map_eraseDups]
  rw [noteAll_noted, ← noted_eraseDups, hfirsts, noted_eraseDups]

/-- What is noted for an origin. -/
theorem exists_mem_noted_iff {notes : List (String × String)} {name origin : String} :
    (∃ v ∈ noted notes, v.name = name ∧ origin ∈ v.origins) ↔ (name, origin) ∈ notes := by
  constructor
  · rintro ⟨v, hv, rfl, horigin⟩
    obtain ⟨n, _, rfl⟩ := List.mem_map.mp hv
    obtain ⟨p, hp, rfl⟩ := List.mem_map.mp (List.mem_eraseDups.mp horigin)
    obtain ⟨hmem, hname⟩ := List.mem_filter.mp hp
    rwa [← eq_of_beq hname]
  · intro h
    refine ⟨_, List.mem_map_of_mem (List.mem_eraseDups.mpr (List.mem_map_of_mem h)), rfl, ?_⟩
    exact List.mem_eraseDups.mpr (List.mem_map.mpr ⟨_, List.mem_filter.mpr ⟨h, by simp⟩, rfl⟩)

end Insights

/-! ## States -/

/-- A state with texts whose person has a name, and whose message and recipient mention what they
    mention together. -/
structure State.Clear (s : State) : Prop where
  textual : s.Textual
  asked : ∀ subject, s.asked? = some subject → unbraced subject ≠ ""
  sent : ∀ channel recipient message, s.body = .send channel (.str recipient) (.str message) →
    names (message ++ " " ++ recipient) = (names message ++ names recipient).eraseDups

namespace Insights

/-- The insights of some states at once. -/
def ofStates (states : List State) : Insights where
  actors := ((states.filterMap State.asked?).map unbraced).eraseDups
  intents := states.filterMap State.action?
  vars := noted (states.flatMap State.notes)

theorem ofStates_concat (states : List State) (s : State) : ofStates (states ++ [s]) =
    ⟨((states.filterMap State.asked?).map unbraced ++ s.asked?.toList.map unbraced).eraseDups,
      states.filterMap State.action? ++ s.action?.toList,
      noted (states.flatMap State.notes ++ s.notes)⟩ := by
  have hlast : ∀ {α : Type} (f : State → Option α), [s].filterMap f = (f s).toList := by
    intro α f
    cases hs : f s <;> simp [hs]
  simp [ofStates, hlast]

/-- One more state adds to the insights. -/
theorem withState_ofStates {s : State} (h : s.Clear) (states : List State) :
    withState (ofStates states) s = .ok (ofStates (states ++ [s])) := by
  obtain ⟨htextual, hasked, hsent⟩ := h
  rw [ofStates_concat]
  cases htextual with
  | userTask id prompt assignee form next _ =>
    have hactors : (if unbraced assignee = "" || (ofStates states).actors.contains
          (unbraced assignee) then (ofStates states).actors
        else (ofStates states).actors ++ [unbraced assignee]) =
        ((states.filterMap State.asked?).map unbraced ++ [unbraced assignee]).eraseDups := by
      rw [eraseDups_concat]
      exact if_congr (by simp [hasked assignee rfl, ofStates]) rfl rfl
    change Except.ok (Insights.mk (if _ then _ else _) (ofStates states).intents
      (noteAll "input" (askedOf (prompt, assignee)) (noted _))) = _
    rw [hactors, noteAll_noted]
    simp [ofStates, State.make, State.asked?, State.action?, State.notes, Json.display]
  | task id action next =>
    change Except.ok (Insights.mk (ofStates states).actors _
      (noteAll "system" (names action) (noted _))) = _
    rw [noteAll_noted]
    simp [ofStates, State.make, State.asked?, State.action?, State.notes, Json.display]
  | choice id exits otherwise =>
    have hnames : (State.branchesOf exits).items.mapM (fun b => mentioned b.condition) =
        .ok (exits.map fun e => names e.1) :=
      Except.mapM_map_eq_ok fun _ _ => rfl
    have hstep : withState (ofStates states)
        (State.make id (.choice (State.branchesOf exits) (.str otherwise)) .null) =
        ((State.branchesOf exits).items.mapM fun b => mentioned b.condition).bind fun found =>
          .ok { ofStates states with
            vars := noteAll "condition" found.flatten (noted (states.flatMap State.notes)) } := rfl
    rw [hstep, hnames, Except.bind, noteAll_noted]
    simp [ofStates, State.make, State.asked?, State.action?, State.notes, State.branchesOf,
      State.Branches.items, List.flatMap, Function.comp_def, Json.display]
  | send id channel recipient message next =>
    change Except.ok (Insights.mk (ofStates states).actors (ofStates states).intents
      (noteAll "output" (names (message ++ " " ++ recipient)) (noted _))) = _
    rw [hsent _ _ _ rfl, noteAll_eraseDups]
    simp [ofStates, State.make, State.asked?, State.action?, State.notes, Json.display]
  | stop id reason =>
    change Except.ok (ofStates states) = _
    simp [State.make, State.asked?, State.action?, State.notes, ofStates]

/-- The insights of a graph with such states. -/
theorem ofGraph_of_clear {g : Graph} (h : ∀ s ∈ g.nodes, s.Clear) :
    ofGraph g = .ok (ofStates g.nodes) := by
  have hfold : ∀ states rest : List State, (∀ s ∈ rest, s.Clear) →
      rest.foldlM withState (ofStates states) = .ok (ofStates (states ++ rest)) := by
    intro states rest
    induction rest generalizing states with
    | nil => intro _; rw [List.append_nil]; rfl
    | cons s rest ih =>
      intro hclear
      obtain ⟨hs, hrest⟩ := List.forall_mem_cons.mp hclear
      rw [List.foldlM_cons, withState_ofStates hs]
      exact (ih (states ++ [s]) hrest).trans (by rw [List.append_assoc]; rfl)
  exact hfold [] g.nodes h

end Insights

/-! ## Stories -/

/-- A state that sends something stands for a statement that does. -/
theorem Story.exists_send_of_matches {statements : List Statement} {told : List State}
    (h : List.Forall₂ Statement.Matches statements told) {s : State} (hs : s ∈ told)
    {channel : Json} {recipient message : String}
    (hbody : s.body = .send channel (.str recipient) (.str message)) :
    ∃ source via, .send source message recipient via ∈ statements := by
  obtain ⟨t, ht, hmatches⟩ := exists_of_forall₂ h hs
  cases t with
  | send source _ _ via =>
    cases hbody.symm.trans hmatches
    exact ⟨source, via, ht⟩
  | conditional =>
    obtain ⟨_, _, hchoice, _⟩ := hmatches
    cases hbody.symm.trans hchoice
  | ask | perform | stop => cases hbody.symm.trans hmatches
  | header | foreign => exact hmatches.elim

/-- The states of a story are clear. -/
theorem Graph.clear_of_ofStory {story : String} {g : Graph} (h : ofStory story = .ok g) :
    ∀ s ∈ g.nodes, s.Clear := by
  intro s hs
  refine ⟨(wellFormed_of_ofStory h).1.textual s hs, fun subject hasked =>
    unbraced_of_ofStory h hs hasked, fun channel recipient message hbody => ?_⟩
  obtain ⟨_, body, told, ending, hparse, hmatches, hnodes, hending⟩ := matches_of_ofStory h
  rw [hnodes] at hs
  obtain ⟨u, hu, rfl⟩ := List.mem_map.mp hs
  have hsends : u.body = .send channel (.str recipient) (.str message) := by
    obtain ⟨id, label, b, next⟩ := u
    cases b with
    | send => exact hbody
    | _ => cases hbody
  have htold : u ∈ told := by
    rcases List.mem_append.mp hu with hu | hu
    · exact hu
    · rcases hending with rfl | rfl
      · exact absurd hu List.not_mem_nil
      · rw [List.mem_singleton.mp hu] at hsends
        cases hsends
  obtain ⟨source, via, hmem⟩ := Story.exists_send_of_matches hmatches htold hsends
  obtain ⟨_, _, _, hbraces⟩ := Story.stands_of_parse hparse (List.mem_cons_of_mem _ hmem)
  have hmentioned := Story.mentioned_eq hbraces
  rw [Story.Statement.parts, List.flatMap_cons, List.flatMap_cons, List.flatMap_nil,
    List.append_nil] at hmentioned
  exact hmentioned

/-- The fields of the form that a state gets have the names that it asks for. -/
theorem State.mem_fields_formed (s : State) (v : Json) :
    (∃ form : Form, s.formed.form? = some (.ok form) ∧ ∃ f ∈ form.fields, f.name = v) ↔
      ∃ name ∈ askedOf s.question, v = .str name := by
  -- A state that is no user task asks nothing, and gets no form.
  have hnothing : askedOf ("", "") = [] := by cbv
  obtain ⟨id, label, body, next⟩ := s
  cases body with
  | userTask prompt assignee form =>
    have hform : (State.formed ⟨id, label, .userTask prompt assignee form, next⟩).form? =
        (Form.infer? id.display prompt.display (names assignee.display)).map .ok := rfl
    have hasked : askedOf (State.question ⟨id, label, .userTask prompt assignee form, next⟩) =
        (names prompt.display).filter (!(names assignee.display).contains ·) := rfl
    rw [hform, hasked]
    cases hinfer : Form.infer? id.display prompt.display (names assignee.display) with
    | none =>
      have hnone := Form.isSome_infer? id.display prompt.display (names assignee.display)
      rw [hinfer] at hnone
      rw [not_not.mp (mt hnone.mpr (by simp))]
      simp
    | some found =>
      have hfields := Form.fields_of_infer? hinfer
      constructor
      · rintro ⟨form, hform, f, hf, rfl⟩
        cases hform
        rw [hfields] at hf
        obtain ⟨name, hname, rfl⟩ := List.mem_map.mp hf
        exact ⟨name, hname, rfl⟩
      · rintro ⟨name, hname, rfl⟩
        refine ⟨found, rfl, ?_⟩
        rw [hfields]
        exact ⟨_, List.mem_map_of_mem hname, rfl⟩
  | _ => simp [State.formed, State.form?, State.question, hnothing]

/-- The variables that a state asks for are its inputs. -/
theorem State.input_mem_notes_iff {s : State} {name : String} :
    (name, "input") ∈ s.notes ↔ name ∈ askedOf s.question := by
  have hnothing : askedOf ("", "") = [] := by cbv
  obtain ⟨id, label, body, next⟩ := s
  cases body <;> simp [State.notes, State.question, hnothing]

/-- A state mentions a variable, in the place that an origin stands for. -/
inductive State.Mentions (s : State) (name : String) : String → Prop
  | input (prompt assignee : String) (form : Option (Except Misfit Form))
      (hbody : s.body = .userTask (.str prompt) (.str assignee) form)
      (hname : name ∈ names prompt) (hother : name ∉ names assignee) : s.Mentions name "input"
  | system (action : String) (hbody : s.body = .task (.str action)) (hname : name ∈ names action) :
    s.Mentions name "system"
  | condition (branches : List State.Branch) (otherwise : Json)
      (hbody : s.body = .choice (.list branches) otherwise) (b : State.Branch) (hb : b ∈ branches)
      (condition : String) (hcondition : b.condition = .str condition)
      (hname : name ∈ names condition) : s.Mentions name "condition"
  | output (channel : Json) (recipient message : String)
      (hbody : s.body = .send channel (.str recipient) (.str message))
      (hname : name ∈ names message ∨ name ∈ names recipient) : s.Mentions name "output"

/-- What is noted of a state is what it mentions. -/
theorem State.Textual.mem_notes_iff {s : State} (h : s.Textual) {name origin : String} :
    (name, origin) ∈ s.notes ↔ s.Mentions name origin := by
  constructor
  · intro hnote
    cases h with
    | userTask id prompt assignee form next _ =>
      obtain ⟨n, hn, heq⟩ := List.mem_map.mp hnote
      cases heq
      obtain ⟨hname, hother⟩ := List.mem_filter.mp hn
      exact .input prompt assignee _ rfl hname (by simpa [Json.display] using hother)
    | task id action next =>
      obtain ⟨n, hn, heq⟩ := List.mem_map.mp hnote
      cases heq
      exact .system action rfl hn
    | choice id exits otherwise =>
      obtain ⟨n, hn, heq⟩ := List.mem_map.mp hnote
      cases heq
      obtain ⟨b, hb, hname⟩ := List.mem_flatMap.mp hn
      obtain ⟨exit, _, rfl⟩ := List.mem_map.mp hb
      exact .condition _ _ rfl _ hb exit.1 rfl hname
    | send id channel recipient message next =>
      obtain ⟨n, hn, heq⟩ := List.mem_map.mp hnote
      cases heq
      exact .output _ recipient message rfl (List.mem_append.mp hn)
    | stop => exact absurd hnote List.not_mem_nil
  · intro hmentions
    rw [State.notes]
    cases hmentions with
    | input prompt assignee form hbody hname hother =>
      simp [hbody, askedOf, Json.display, hname, hother]
    | system action hbody hname => simp [hbody, Json.display, hname]
    | condition branches otherwise hbody b hb condition hcondition hname =>
      rw [hbody]
      refine List.mem_map_of_mem (List.mem_flatMap.mpr ⟨b, hb, ?_⟩)
      rwa [hcondition]
    | output channel recipient message hbody hname =>
      rw [hbody]
      exact List.mem_map_of_mem (List.mem_append.mpr hname)

namespace Insights

/-- A variable has an origin. -/
def HasOrigin (i : Insights) (name origin : String) : Prop :=
  ∃ v ∈ i.vars, v.name = name ∧ origin ∈ v.origins

/-- The insights tell what stands in a graph and in its forms. -/
structure Describes (i : Insights) (g : Graph) : Prop where
  /-- The names stand in the order of their first notes. -/
  names : i.vars.map (·.name) = ((g.nodes.flatMap State.notes).map (·.1)).eraseDups
  nodup_names : (i.vars.map (·.name)).Nodup
  nodup_origins : ∀ v ∈ i.vars, v.origins.Nodup
  origins : ∀ name origin, i.HasOrigin name origin ↔ ∃ s ∈ g.nodes, s.Mentions name origin
  /-- The inputs are the names of the fields of all forms. -/
  inputs : ∀ v : Json, (∃ name, v = .str name ∧ i.HasOrigin name "input") ↔
    ∃ s ∈ g.nodes, ∃ form : Form, s.form? = some (.ok form) ∧ ∃ f ∈ form.fields, f.name = v
  actors : i.actors = ((g.nodes.filterMap State.asked?).map unbraced).eraseDups
  intents : i.intents = g.nodes.filterMap State.action?

theorem hasOrigin_ofStates {states : List State} {name origin : String} :
    (ofStates states).HasOrigin name origin ↔ ∃ s ∈ states, (name, origin) ∈ s.notes :=
  exists_mem_noted_iff.trans List.mem_flatMap

/-- The insights of a story tell what stands in its graph and in its forms. -/
theorem describes_of_ofStory {story : String} {g : Graph} (h : Graph.ofStory story = .ok g) :
    ∃ i, ofGraph g = .ok i ∧ i.Describes g := by
  have hclear := Graph.clear_of_ofStory h
  have hnames : (ofStates g.nodes).vars.map (·.name) =
      ((g.nodes.flatMap State.notes).map (·.1)).eraseDups := by
    simp [ofStates, noted, Function.comp_def]
  refine ⟨_, ofGraph_of_clear hclear, hnames, hnames ▸ nodup_eraseDups _, fun v hv => ?_,
    fun name origin => ?_, fun v => ?_, rfl, rfl⟩
  · obtain ⟨n, _, rfl⟩ := List.mem_map.mp hv
    exact nodup_eraseDups _
  · rw [hasOrigin_ofStates]
    exact exists_congr fun s => and_congr_right fun hs => (hclear s hs).textual.mem_notes_iff
  · have hfields : ∀ s ∈ g.nodes, (∃ form : Form, s.form? = some (.ok form) ∧
        ∃ f ∈ form.fields, f.name = v) ↔ ∃ name ∈ askedOf s.question, v = .str name := by
      obtain ⟨_, _, told, ending, _, _, hnodes, _⟩ := Graph.matches_of_ofStory h
      intro s hs
      rw [hnodes] at hs
      obtain ⟨u, _, rfl⟩ := List.mem_map.mp hs
      rw [State.mem_fields_formed, State.formed_question]
    simp only [hasOrigin_ofStates, State.input_mem_notes_iff]
    constructor
    · rintro ⟨name, rfl, s, hs, hname⟩
      exact ⟨s, hs, (hfields s hs).mpr ⟨name, hname, rfl⟩⟩
    · rintro ⟨s, hs, hform⟩
      obtain ⟨name, hname, hv⟩ := (hfields s hs).mp hform
      exact ⟨name, hv, s, hs, hname⟩

/-- A story in which variables are asked for, used, looked at and sent. -/
def toldStory : String :=
  "Flow: F\nAsk {boss} for {x}\nDo: file {x}\nIf {y}:\n  Send {y} to {boss}"

theorem parse_toldStory : Story.parse toldStory = .ok [.header ⟨1, "Flow: F"⟩ "F",
    .ask ⟨2, "Ask {boss} for {x}"⟩ "{boss}" "{boss} for {x}",
    .perform ⟨3, "Do: file {x}"⟩ "file {x}",
    .conditional ⟨4, "If {y}:"⟩
      [⟨"{y}", [.send ⟨5, "Send {y} to {boss}"⟩ "{y}" "{boss}" "message"], 4⟩] none] := by cbv

theorem names_toldAction : Placeholder.names "file {x}" = ["x"] := by cbv

/-- The insights of the story, and its action with a variable. -/
theorem describes_toldStory : ∃ g i, Graph.ofStory toldStory = .ok g ∧ ofGraph g = .ok i ∧
    i.Describes g ∧ i.actors = ["boss"] ∧ i.intents = ["file {x}"] ∧ i.HasOrigin "x" "system" := by
  obtain ⟨g, _, _, hstory⟩ := Graph.ofStory_of_parse parse_toldStory
  obtain ⟨i, hinsights, hdescribes⟩ := describes_of_ofStory hstory
  obtain ⟨_, hparse, hactions, hasked⟩ := Graph.told_of_ofStory hstory
  cases parse_toldStory.symm.trans hparse
  have hintents : i.intents = ["file {x}"] := hdescribes.intents.trans hactions
  refine ⟨_, i, hstory, hinsights, hdescribes, ?_, hintents, ?_⟩
  · rw [hdescribes.actors, hasked]
    decide +kernel
  · have haction : "file {x}" ∈ i.intents := by simp [hintents]
    rw [hdescribes.intents] at haction
    obtain ⟨s, hs, hs'⟩ := List.mem_filterMap.mp haction
    refine (hdescribes.origins _ _).mpr ⟨s, hs, .system _ (State.action?_eq_some_iff.mp hs') ?_⟩
    simp [names_toldAction]

end Insights

end Swimlane
