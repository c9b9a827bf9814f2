import Swimlane.Proofs.Canonical
import Swimlane.Proofs.Pipeline

/-!
# Layouts are sound

A graph that was accepted is laid out without overlaps, whatever its cycles are and however its
states are spread over lanes and columns.  Validation looks at the edges of a graph and not at who
acts in its states, so there is one exception: a value that is no text where a text should tell
who acts.

## Key results

- `layout_of_unassigned`: an accepted graph that cannot be laid out
- `layout_sound`: all others are laid out, and so are the graphs of stories
-/

namespace Swimlane.Diagram

/-- A flow is laid out: there is a band for every lane, and a node for the start event and for
    every state, in the lane that it is assigned to; and the layout is sound. -/
def LaidOut (g : Graph) (geometry : Geometry) (defaultLane : String) : Prop :=
  ∃ a l, assignLanes g (.str defaultLane) = .ok a ∧ layout g geometry defaultLane = .ok l ∧
    l.bands.map (·.lane) = a.1 ∧
    l.nodes.map (fun p => (p.1, p.2.label, some p.2.lane)) =
      (startNode, .str startLabel, Assoc.get? g.start a.2) ::
        g.nodes.map (fun s => (s.id, s.label, Assoc.get? s.id a.2)) ∧
    l.Sound geometry

/-- An accepted graph is laid out if texts tell who acts in its states. -/
theorem laidOut_of_attributed {geometry : Geometry} (hg : geometry.Fits) {g : Graph}
    {warnings : List String} (hv : g.validate = .ok warnings) (hk : g.Keyed)
    (hs : "__start__" ∉ g.keys) (ha : ∀ s ∈ g.nodes, s.Attributed) (defaultLane : String) :
    LaidOut g geometry defaultLane := by
  obtain ⟨a, places, l, hlanes, hplaced, hdraw, hlayout⟩ :=
    exists_layout hk hv ha geometry defaultLane
  obtain ⟨hbands, hnodes, hsound⟩ := hplaced.sound_draw hg hk hs hdraw
  exact ⟨a, l, hlanes, hlayout, hbands, hnodes.trans hplaced.states, hsound⟩

/-- No state of a story has the name of the start event. -/
theorem start_not_mem_keys {g : Graph} (h : g.WellFormed) : "__start__" ∉ g.keys := by
  intro hmem
  obtain ⟨c, rest, hstart, hc⟩ := (h.named _ hmem).starts
  -- Identifiers do not begin with an underscore.
  cases hstart
  exact hc rfl

/-- With measures that leave room for every shape, an accepted graph whose states are stored under
    their ids, none of which is the name of the start event, is laid out if texts tell who acts in
    its states, and else is refused for a value that is no text.  The graph of every story is laid
    out. -/
theorem layout_sound {geometry : Geometry} (hg : geometry.Fits) (defaultLane : String) :
    (∀ (g : Graph) (warnings : List String), g.validate = .ok warnings → g.Keyed →
      "__start__" ∉ g.keys →
      ((∀ s ∈ g.nodes, s.Attributed) → LaidOut g geometry defaultLane) ∧
      ((∃ s ∈ g.nodes, ¬ s.Attributed) →
        layout g geometry defaultLane = .error (.misfit .notText))) ∧
    (∀ (story : String) (g : Graph), Graph.ofStory story = .ok g →
      LaidOut g geometry defaultLane) := by
  constructor
  · intro g warnings hv hk hs
    exact ⟨fun ha => laidOut_of_attributed hg hv hk hs ha defaultLane,
      fun ha => layout_error hk ha geometry defaultLane⟩
  · intro story g hstory
    obtain ⟨hwell, hv⟩ := Graph.wellFormed_of_ofStory hstory
    exact laidOut_of_attributed hg hv hwell.toKeyed (start_not_mem_keys hwell)
      (fun s hs => attributed_of_textual (hwell.textual s hs)) defaultLane

/-- A graph with a loop and with a state that cannot be reached is laid out.  Two of its states are
    in the same column of its only lane, one below the other. -/
theorem layout_sound_loopingFlow : ({} : Geometry).Fits ∧ LaidOut Graph.loopingFlow {} "System" ∧
    (layout Graph.loopingFlow {} "System").map (fun l => (l.pool, l.nodes.map (·.2.bounds))) =
      .ok (⟨160, 80, 750, 280⟩, [⟨262, 142, 36, 36⟩, ⟨435, 135, 50, 50⟩, ⟨590, 120, 100, 80⟩,
        ⟨770, 120, 100, 80⟩, ⟨622, 262, 36, 36⟩]) := by
  have hv : Graph.loopingFlow.validate = .ok ["State 'report' is unreachable from start",
      "State 'retry' has no path to a stop state"] := by cbv
  have hstart : "__start__" ∉ Graph.loopingFlow.keys := by decide
  have ha : ∀ s ∈ Graph.loopingFlow.nodes, s.Attributed := by
    intro s hs
    simp only [Graph.loopingFlow, Graph.loopingStates, Graph.nodes, List.map_cons, List.map_nil,
      List.mem_cons, List.not_mem_nil, or_false] at hs
    rcases hs with rfl | rfl | rfl | rfl <;> simp [State.Attributed, State.make]
  have hsound := layout_sound Geometry.fits_default "System"
  refine ⟨Geometry.fits_default, ?_, by cbv⟩
  exact (hsound.1 _ _ hv Graph.assembled_loopingFlow.toKeyed hstart).1 ha

/-- A document with null for who is asked. -/
def unassignedDocument : Json :=
  .obj [("flow", .str "F"), ("start", .str "a"), ("states", .arr [
    .obj [("id", .str "a"), ("kind", .str "userTask"), ("prompt", .str "p"), ("assignee", .null),
      ("next", .str "b")],
    .obj [("id", .str "b"), ("kind", .str "stop")]])]

/-- The graph of this document is accepted, but it cannot be laid out. -/
theorem layout_of_unassigned : ∃ g, Graph.ofJson unassignedDocument = .ok g ∧
    g.validate = .ok g.warnings ∧ g.Keyed ∧ "__start__" ∉ g.keys ∧ ({} : Geometry).Fits ∧
    layout g {} "System" = .error (.misfit .notText) := by
  have hkeys : (Graph.ofJson unassignedDocument).map (·.keys) = .ok ["a", "b"] := by cbv
  have hfails : (do layout (← Graph.ofJson unassignedDocument) {} "System") =
      .error (.misfit .notText) := by cbv
  cases hg : Graph.ofJson unassignedDocument with
  | error e => rw [hg] at hkeys; cases hkeys
  | ok g =>
    rw [hg] at hkeys hfails
    have hloaded := Graph.loaded_of_ofJson hg
    refine ⟨g, rfl, hloaded.accepted, hloaded.toKeyed, ?_, Geometry.fits_default, hfails⟩
    rw [show g.keys = ["a", "b"] from Except.ok.inj hkeys]
    decide

end Swimlane.Diagram
