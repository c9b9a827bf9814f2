import Swimlane.Proofs.Drawable
import Swimlane.Proofs.Preservation

/-!
# Compilation fails for two reasons only

A story that cannot be read is refused.  Every other story is built, gets its forms, and has a
script and a layout.  What is left is the text of its diagram, in which no number may have too
many digits.

## Key results

- `Bpmn.document_of_wellFormed`: when the document of a well-formed graph can be written
- `Graph.ofStory_of_parse`: every story that can be read has a well-formed graph with forms
- `Graph.compile_total`: what can become of a story
- `Graph.document_fails`: a story and settings whose document cannot be written
-/

namespace Swimlane.Bpmn

/-! ## Numbers in a diagram -/

/-- An integer that can be written. -/
def IsShort (n : Int) : Prop := n.natAbs < 10 ^ Numeral.maxDigits

/-- Integers of at most four digits can be written. -/
theorem isShort_of_small {ns : List Int} (h : (ns.all fun n => n.natAbs < 10 ^ 4) = true) :
    ∀ n ∈ ns, IsShort n := by
  intro n hn
  have hlt : n.natAbs < 10 ^ 4 := by simpa using List.all_eq_true.mp h n hn
  exact hlt.trans_le (Nat.pow_le_pow_right (by omega) (by decide))

/-- A step that writes the given numbers: it succeeds if all of them can be written, and fails
    because of a long number if one cannot. -/
structure Writes {α : Type} (step : Except Misfit α) (numbers : List Int) : Prop where
  short : (∀ n ∈ numbers, IsShort n) → ∃ a, step = .ok a
  long : (∃ n ∈ numbers, ¬ IsShort n) → step = .error .longInteger

namespace Writes

variable {α β : Type}

/-- A step without numbers succeeds. -/
theorem pure (a : α) : Writes (.ok a) [] := ⟨fun _ => ⟨a, rfl⟩, fun ⟨_, h, _⟩ => nomatch h⟩

/-- Two steps one after the other write the numbers of both. -/
theorem bind {x : Except Misfit α} {f : α → Except Misfit β} {ns ms : List Int}
    (hx : Writes x ns) (hf : ∀ a, Writes (f a) ms) : Writes (x >>= f) (ns ++ ms) := by
  constructor
  · intro hshort
    obtain ⟨a, rfl⟩ := hx.short fun n hn => hshort n (List.mem_append_left _ hn)
    exact (hf a).short fun n hn => hshort n (List.mem_append_right _ hn)
  · rintro ⟨n, hn, hlong⟩
    cases x with
    | error e =>
      -- The first step fails only because of a long number.
      by_cases hns : ∃ m ∈ ns, ¬ IsShort m
      · rw [hx.long hns]; rfl
      · obtain ⟨a, ha⟩ := hx.short fun m hm => by_contra fun hs => hns ⟨m, hm, hs⟩
        cases ha
    | ok a =>
      have hms : n ∈ ms := by
        refine (List.mem_append.mp hn).resolve_left fun hmem => ?_
        cases hx.long ⟨n, hmem, hlong⟩
      exact (hf a).long ⟨n, hms, hlong⟩

/-- A step for every item of a list writes the numbers of all items. -/
theorem mapM {f : α → Except Misfit β} {ns : α → List Int} (h : ∀ a, Writes (f a) (ns a))
    (xs : List α) : Writes (xs.mapM f) (xs.flatMap ns) := by
  induction xs with
  | nil => exact pure []
  | cons x xs ih =>
    rw [List.mapM_cons, List.flatMap_cons]
    refine (h x).bind fun b => ?_
    rw [← List.append_nil (xs.flatMap ns)]
    exact ih.bind fun bs => pure (b :: bs)

end Writes

/-- A number is written. -/
theorem writes_numeral (n : Int) : Writes (numeral n) [n] := by
  have hshort : (Nat.toDigits 10 n.natAbs).length ≤ Numeral.maxDigits ↔ IsShort n :=
    Nat.length_toDigits_le_iff (by omega) (by simp [Numeral.maxDigits])
  constructor
  · intro h
    exact ⟨_, if_pos (hshort.mpr (h n List.mem_cons_self))⟩
  · rintro ⟨m, hm, hlong⟩
    cases List.mem_singleton.mp hm
    exact if_neg (mt hshort.mp hlong)

/-- The numbers of a rectangle. -/
def boundsNumbers (b : Diagram.Bounds) : List Int := [b.x, b.y, b.width, b.height]

/-- The numbers of a point. -/
def pointNumbers (p : Diagram.Point) : List Int := [p.x, p.y]

/-- The numbers in the diagram of a layout: those of the pool, the lanes, the nodes and the
    routes. -/
def diagramNumbers (layout : Diagram.Layout) (ids : List (String × String))
    (flows : List SequenceFlow) : List Int :=
  boundsNumbers layout.pool ++ (layout.bands.flatMap (boundsNumbers ·.bounds) ++
    ((placed layout ids).flatMap (boundsNumbers ·.2.bounds) ++
      flows.flatMap fun f => (flowRoute (placed layout ids) f).flatMap pointNumbers))

/-- The numbers in the diagram of a flow. -/
def numbers (g : Graph) (settings : Settings) : Except Failure (List Int) := do
  let layout ← Diagram.layout g settings.geometry settings.defaultLane
  let ids ← elementIds g
  return diagramNumbers layout ids (← flows g ids)

/-- The shape of an element has the numbers of its rectangle. -/
theorem writes_shape (id : String) (attributes : List (String × String)) (b : Diagram.Bounds) :
    Writes (shape id attributes b) (boundsNumbers b) := by
  have hbounds : Writes (boundsElement b) (boundsNumbers b) :=
    (writes_numeral b.x).bind fun _ => (writes_numeral b.y).bind fun _ =>
      (writes_numeral b.width).bind fun _ => (writes_numeral b.height).bind fun _ => .pure _
  rw [← List.append_nil (boundsNumbers b)]
  exact hbounds.bind fun _ => .pure _

/-- The line of a sequence flow has the numbers of its points. -/
theorem writes_flowLine (nodes : List (String × Diagram.Node)) (f : SequenceFlow) :
    Writes (flowLine nodes f) ((flowRoute nodes f).flatMap pointNumbers) := by
  have hpoint : ∀ p, Writes (waypoint p) (pointNumbers p) := fun p =>
    (writes_numeral p.x).bind fun _ => (writes_numeral p.y).bind fun _ => .pure _
  rw [← List.append_nil (List.flatMap _ _)]
  exact (Writes.mapM hpoint _).bind fun _ => .pure _

/-- A diagram has the numbers of its parts. -/
theorem writes_diagram (layout : Diagram.Layout) (ids : List (String × String))
    (flows : List SequenceFlow) :
    Writes (diagram layout ids flows) (diagramNumbers layout ids flows) := by
  have hband : ∀ band : Diagram.Band,
      Writes (horizontalShape band.lane.id band.bounds) (boundsNumbers band.bounds) :=
    fun _ => writes_shape _ _ _
  have hnode : ∀ node, Writes (nodeShape node) (boundsNumbers node.2.bounds) :=
    fun _ => writes_shape _ _ _
  refine (writes_shape _ _ _).bind fun _ => ?_
  refine (Writes.mapM hband _).bind fun _ => ?_
  refine (Writes.mapM hnode _).bind fun _ => ?_
  rw [← List.append_nil (List.flatMap _ flows)]
  exact (Writes.mapM (writes_flowLine _) flows).bind fun _ => .pure _

/-- The document of a well-formed graph can be written if the numbers in its diagram can, and a
    long number is the only reason why it cannot. -/
theorem document_of_wellFormed {g : Graph} (h : g.WellFormed) (settings : Settings) :
    ∃ ns, numbers g settings = .ok ns ∧
      ((∀ n ∈ ns, IsShort n) → ∃ text, document g settings = .ok text) ∧
      ((∃ n ∈ ns, ¬ IsShort n) → document g settings = .error (.misfit .longInteger)) := by
  obtain ⟨layout, hlayout⟩ :=
    Diagram.exists_layout_of_wellFormed h settings.geometry settings.defaultLane
  obtain ⟨flows, hflows⟩ := exists_flows h
  obtain ⟨process, hprocess⟩ := exists_process h settings.executable
    ("Process_" ++ flowSlug g.name) layout (g.nodes.map elementOf) flows
  have hdiagram := writes_diagram layout (g.nodes.map elementOf) flows
  -- All steps in front of the diagram succeed, so the diagram decides.
  refine ⟨diagramNumbers layout (g.nodes.map elementOf) flows, ?_, fun hshort => ?_,
    fun hlong => ?_⟩
  · simp only [numbers, hlayout, elementIds_of_wellFormed h, hflows, bind, Except.bind]
    rfl
  · obtain ⟨x, hx⟩ := hdiagram.short hshort
    simp only [document, definitions, hlayout, elementIds_of_wellFormed h, hflows, hprocess, hx,
      bind, Except.bind, Except.mapError]
    exact ⟨_, rfl⟩
  · simp only [document, definitions, hlayout, elementIds_of_wellFormed h, hflows, hprocess,
      hdiagram.long hlong, bind, Except.bind, Except.mapError]

end Swimlane.Bpmn

namespace Swimlane.Graph

/-! ## Stories -/

/-- A story that cannot be read is refused for what is wrong with it. -/
theorem ofStory_of_error {story : String} {e : Story.Error} (h : Story.parse story = .error e) :
    ofStory story = .error (.story e) := by
  rw [ofStory, h]
  rfl

/-- Every story that can be read is built into a well-formed graph, which gets its forms. -/
theorem ofStory_of_parse {story : String} {statements : List Story.Statement}
    (h : Story.parse story = .ok statements) :
    ∃ built, ofStatements statements = .ok built ∧ built.WellFormed ∧
      ofStory story = .ok built.formed := by
  obtain ⟨built, hbuilt⟩ := Story.ofStatements_of_parse h
  have hwell := Story.wellFormed_of_ofStatements hbuilt
  refine ⟨built, hbuilt, hwell, ?_⟩
  simp only [ofStory, h, hbuilt, attachForms_of_wellFormed hwell, bind, Except.bind,
    Except.mapError]
  rfl

/-- A story that compiles has a well-formed graph, with the warnings that its validation gives. -/
theorem wellFormed_of_ofStory {story : String} {g : Graph} (h : ofStory story = .ok g) :
    g.WellFormed ∧ g.validate = .ok g.warnings := by
  cases hparse : Story.parse story with
  | error e => rw [ofStory_of_error hparse] at h; cases h
  | ok statements =>
    obtain ⟨built, hbuilt, hwell, hstory⟩ := ofStory_of_parse hparse
    cases hstory.symm.trans h
    -- The forms that are attached do not matter for the warnings.
    exact ⟨hwell.formed, hwell.formed_validate.trans (Story.validate_of_ofStatements hbuilt)⟩

/-- A well-formed graph can be written as a script. -/
theorem WellFormed.writeMisfit? {g : Graph} (h : g.WellFormed) : g.writeMisfit? = none := by
  refine List.findSome?_eq_none_iff.mpr fun s hs => ?_
  rw [State.writeMisfit?]
  split
  · rename_i misfit hform
    obtain ⟨_, hok, _⟩ := Bpmn.form?_of_textual (h.textual s hs) hform
    cases hok
  · exact (h.textual s hs).edgeMisfit?

/-- The forms of a well-formed graph can be listed. -/
theorem WellFormed.formsMisfit? {g : Graph} (h : g.WellFormed) : g.formsMisfit? = none := by
  refine List.findSome?_eq_none_iff.mpr fun s hs => ?_
  split
  · rfl
  · rename_i misfit hform
    obtain ⟨_, hok, _⟩ := Bpmn.form?_of_textual (h.textual s hs) hform
    cases hok
  · rw [(h.textual s hs).id_eq]
    rfl

/-- A story is refused because it cannot be read, or it is compiled: it is built, gets its forms
    and has a script, and its diagram can be written unless one of the numbers in it has too many
    digits. -/
theorem compile_total (story : String) (settings : Settings) :
    (∃ e, Story.parse story = .error e ∧ ofStory story = .error (.story e)) ∨
    ∃ statements built g ns, Story.parse story = .ok statements ∧
      ofStatements statements = .ok built ∧ ofStory story = .ok g ∧
      g.writeMisfit? = none ∧ g.formsMisfit? = none ∧ Bpmn.numbers g settings = .ok ns ∧
      ((∀ n ∈ ns, Bpmn.IsShort n) →
        (∃ text, Bpmn.document g settings = .ok text) ∧ ∃ v, g.artifacts settings = .ok v) ∧
      ((∃ n ∈ ns, ¬ Bpmn.IsShort n) →
        Bpmn.document g settings = .error (.misfit .longInteger) ∧
        g.artifacts settings = .error (.misfit .longInteger)) := by
  cases hparse : Story.parse story with
  | error e => exact Or.inl ⟨e, rfl, ofStory_of_error hparse⟩
  | ok statements =>
    right
    obtain ⟨built, hbuilt, hwell, hstory⟩ := ofStory_of_parse hparse
    obtain ⟨ns, hns, hshort, hlong⟩ := Bpmn.document_of_wellFormed hwell.formed settings
    refine ⟨statements, built, built.formed, ns, rfl, hbuilt, hstory, hwell.formed.writeMisfit?,
      hwell.formed.formsMisfit?, hns, fun h => ?_, fun h => ?_⟩
    · obtain ⟨text, htext⟩ := hshort h
      exact ⟨⟨text, htext⟩, _, Except.bind_eq_ok.mpr ⟨text, htext, rfl⟩⟩
    · refine ⟨hlong h, ?_⟩
      rw [artifacts, hlong h]
      rfl

/-! ## A document that cannot be written -/

/-- The pool is as wide as the head of the lanes and at least one column. -/
theorem width_of_layout {g : Graph} {geometry : Geometry} {default : String} {l : Diagram.Layout}
    (h : Diagram.layout g geometry default = .ok l) : ∃ columns : Nat, 0 < columns ∧
      l.pool.width = geometry.laneHeaderWidth + columns * geometry.columnWidth := by
  obtain ⟨⟨lanes, places⟩, hplaces, h⟩ := Except.bind_eq_ok.mp h
  obtain ⟨nodes, _, h⟩ := Except.bind_eq_ok.mp (Except.mapError_eq_ok.mp h)
  cases h
  rw [Diagram.placesOf] at hplaces
  obtain ⟨⟨lanes', assignment⟩, _, hplaces⟩ := Except.bind_eq_ok.mp hplaces
  obtain ⟨columns, _, hplaces⟩ := Except.bind_eq_ok.mp hplaces
  split at hplaces
  · cases hplaces
  · obtain ⟨placed, _, hplaces⟩ := Except.bind_eq_ok.mp hplaces
    cases hplaces
    -- The start event is in the first column.
    exact ⟨_, Diagram.lt_above List.mem_cons_self, rfl⟩

/-- A flow without statements cannot be drawn if the head of the lanes is as wide as an integer
    can be written. -/
theorem document_fails : ∃ g, ofStory "Flow: A" = .ok g ∧
    Bpmn.document g { geometry := { laneHeaderWidth := 10 ^ Numeral.maxDigits - 1 } } =
      .error (.misfit .longInteger) := by
  have hparse : Story.parse "Flow: A" = .ok [.header ⟨1, "Flow: A"⟩ "A"] := by cbv
  obtain ⟨built, _, hwell, hstory⟩ := ofStory_of_parse hparse
  refine ⟨built.formed, hstory, ?_⟩
  -- The width is kept folded: as a numeral it has thousands of digits.
  generalize hs : (({ geometry := { laneHeaderWidth := 10 ^ Numeral.maxDigits - 1 } }) : Settings)
    = settings
  obtain ⟨ns, hns, _, hlong⟩ := Bpmn.document_of_wellFormed hwell.formed settings
  refine hlong ?_
  obtain ⟨layout, hlayout, hns⟩ := Except.bind_eq_ok.mp hns
  obtain ⟨ids, _, hns⟩ := Except.bind_eq_ok.mp hns
  obtain ⟨flows, _, hns⟩ := Except.bind_eq_ok.mp hns
  cases hns
  -- One column more, and the width of the pool is too long.
  obtain ⟨columns, hpos, hwidth⟩ := width_of_layout hlayout
  refine ⟨layout.pool.width, by simp [Bpmn.diagramNumbers, Bpmn.boundsNumbers], ?_⟩
  rw [Bpmn.IsShort, hwidth, ← hs]
  have hpow : ((10 ^ Numeral.maxDigits : Nat) : Int) = 10 ^ Numeral.maxDigits := by
    rw [Int.natCast_pow]; rfl
  show ¬ (10 ^ Numeral.maxDigits - 1 + (columns : Int) * 180).natAbs < 10 ^ Numeral.maxDigits
  rw [← hpow]
  omega

end Swimlane.Graph
