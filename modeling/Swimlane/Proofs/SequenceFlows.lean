import Mathlib
import Swimlane.Graph.Edit
import Swimlane.Proofs.DocumentParts
import Swimlane.Proofs.Grouping

/-!
# Sequence flows are edges

The edges of a graph are listed by the graph itself, and once more on the way to its document,
where each of them becomes a sequence flow between two elements.  An element tells which flows
lead to it and which leave it, and a gateway which one it takes in the end.  All of this tells the
same edges, however many of them lead from one state to another.

## Key results

- `flows_ends`, `flows_ids`: the sequence flows are the edges of the graph, numbered in order
- `flows_branches`, `flows_otherwise`: what the flows of choices carry
- `Parts.Of.collect_refs`: which elements refer to sequence flows
- `document_flows`: sequence flows in documents
-/

namespace Swimlane

/-- The branches of a choice; other states have none. -/
def State.branchList (s : State) : List State.Branch :=
  match s.body with
  | .choice branches _ => branches.items
  | _ => []

/-- The last resort of a choice, if it has one; other states have none. -/
def State.otherwiseList (s : State) : List Json :=
  match s.body with
  | .choice _ otherwise => if otherwise.isGiven then [otherwise] else []
  | _ => []

namespace Bpmn

variable {g : Graph} {ids : List (String × String)} {fs : List SequenceFlow}

/-! ## The edges of a graph -/

theorem edgesOf_source {source : String} {s : State} {e : Edge} (h : e ∈ edgesOf source s) :
    e.source = source := by
  unfold edgesOf at h
  split at h
  · rcases List.mem_append.mp h with h | h
    · obtain ⟨b, _, rfl⟩ := List.mem_map.mp h
      rfl
    · split at h
      · rw [List.mem_singleton.mp h]
      · cases h
  · cases h
  · split at h
    · rw [List.mem_singleton.mp h]
    · cases h

theorem edgesOf_ends (source : String) (s : State) :
    (edgesOf source s).map (fun e => (e.source, e.target)) = s.targets.map (source, ·) := by
  unfold edgesOf State.targets
  cases s.body with
  | choice branches otherwise =>
    by_cases hgiven : otherwise.isGiven = true <;> simp [hgiven, Function.comp_def]
  | stop reason => rfl
  | _ => by_cases hgiven : s.next.isGiven = true <;> simp [hgiven]

/-- Only the edges to branches of a choice have conditions. -/
theorem edgesOf_conditional (source : String) (s : State) :
    (edgesOf source s).filter (·.condition.isSome) =
      s.branchList.map fun b => ⟨source, b.next, some b.condition, false⟩ := by
  unfold edgesOf State.branchList
  cases s.body with
  | choice branches otherwise =>
    have hall : ∀ e ∈ branches.items.map
        fun b => (⟨source, b.next, some b.condition, false⟩ : Edge),
        e.condition.isSome = true := by simp
    rw [List.filter_append, List.filter_eq_self.mpr hall]
    by_cases hgiven : otherwise.isGiven = true <;> simp [hgiven]
  | stop reason => rfl
  | _ => by_cases hgiven : s.next.isGiven = true <;> simp [hgiven]

/-- Only the edge to the last resort of a choice is a default. -/
theorem edgesOf_default (source : String) (s : State) :
    (edgesOf source s).filter (·.isDefault) =
      s.otherwiseList.map fun target => ⟨source, target, none, true⟩ := by
  unfold edgesOf State.otherwiseList
  cases s.body with
  | choice branches otherwise =>
    have hnone : ∀ e ∈ branches.items.map
        fun b => (⟨source, b.next, some b.condition, false⟩ : Edge),
        ¬ e.isDefault = true := by simp
    rw [List.filter_append, List.filter_eq_nil_iff.mpr hnone]
    by_cases hgiven : otherwise.isGiven = true <;> simp [hgiven]
  | stop reason => rfl
  | _ => by_cases hgiven : s.next.isGiven = true <;> simp [hgiven]

/-- All edges, the one from the start event first. -/
def allEdges (g : Graph) (ids : List (String × String)) : List Edge :=
  ⟨startEventId, g.start, none, false⟩ :: edgesFrom ids g.nodes

/-! ## The sequence flows of a graph -/

/-- What does not depend on the numbers of flows can be read off the edges. -/
theorem flows_map {α : Type} (h : flows g ids = .ok fs) {p : SequenceFlow → α} {q : Edge → α}
    (hpq : ∀ e n, p (e.flow ids n) = q e) : fs.map p = (allEdges g ids).map q := by
  rw [flows_eq_ok h, List.map_map]
  have hcomp : (p ∘ fun x : Edge × Nat => x.1.flow ids x.2) = q ∘ Prod.fst :=
    funext fun x => hpq x.1 x.2
  rw [hcomp, ← List.map_map, List.zipIdx_map_fst]
  rfl

/-- The same for the flows that pass a test. -/
theorem flows_filter_map {α : Type} (h : flows g ids = .ok fs) {t : SequenceFlow → Bool}
    {u : Edge → Bool} (htu : ∀ e n, t (e.flow ids n) = u e) {p : SequenceFlow → α}
    {q : Edge → α} (hpq : ∀ e n, p (e.flow ids n) = q e) :
    (fs.filter t).map p = ((allEdges g ids).filter u).map q := by
  have hmap := flows_map h (p := fun f => if t f then [p f] else [])
    (q := fun e => if u e then [q e] else []) fun e n => by rw [htu, hpq]
  have hflat := congrArg List.flatten hmap
  rw [← List.flatMap_def, ← List.flatMap_def] at hflat
  have hgather : ∀ {β : Type} (xs : List β) (v : β → Bool) (r : β → α),
      (xs.flatMap fun x => if v x then [r x] else []) = (xs.filter v).map r := by
    intro β xs v r
    induction xs with
    | nil => rfl
    | cons x rest ih =>
      rw [List.flatMap_cons, ih, List.filter_cons]
      cases v x <;> rfl
  rw [hgather, hgather] at hflat
  exact hflat

/-- The sequence flows are the edges of the graph, behind one to the start state. -/
theorem flows_ends (h : flows g ids = .ok fs) :
    fs.map (fun f => (f.source, f.target)) =
      (startEventId, idOf ids g.start) :: g.edges.map fun e => (idOf ids e.1, idOf ids e.2) := by
  rw [flows_map h (q := fun e => (e.source, idOf ids e.target)) fun _ _ => rfl, allEdges,
    List.map_cons, edgesFrom, Graph.edges, List.map_flatMap, List.map_flatMap]
  congr 1
  refine List.flatMap_congr fun s _ => ?_
  -- Both lists tell the targets of the state.
  have hends := congrArg (List.map fun p => (p.1, idOf ids p.2)) (edgesOf_ends (idOf ids s.id) s)
  simpa [Function.comp_def] using hends

/-- Sequence flows are numbered in order, from one on. -/
theorem flows_ids (h : flows g ids = .ok fs) :
    fs.map (·.id) = (List.range' 1 fs.length).map fun n => s!"Flow_{n}" := by
  rw [flows_eq_ok h, List.map_map, List.length_map, List.length_zipIdx]
  have hcomp : ((·.id) ∘ fun x : Edge × Nat => x.1.flow ids x.2) =
      (fun n : Nat => s!"Flow_{n}") ∘ Prod.snd := rfl
  rw [hcomp, ← List.map_map, List.zipIdx_map_snd]

/-- A sequence flow leaves the start event or a state. -/
theorem source_of_flows (h : flows g ids = .ok fs) {f : SequenceFlow} (hf : f ∈ fs) :
    f.source ∈ startEventId :: g.nodes.map fun s => idOf ids s.id := by
  have hmem := List.mem_map_of_mem (f := (·.source)) hf
  rw [flows_map h (q := (·.source)) fun _ _ => rfl] at hmem
  obtain ⟨e, he, heq⟩ := List.mem_map.mp hmem
  rw [← heq]
  rcases List.mem_cons.mp he with rfl | he
  · exact List.mem_cons_self
  · obtain ⟨s, hs, he⟩ := List.mem_flatMap.mp he
    rw [edgesOf_source he]
    exact List.mem_cons_of_mem _ (List.mem_map.mpr ⟨s, hs, rfl⟩)

/-- A sequence flow leads to the element of a state. -/
theorem target_of_flowsFrom {number : Nat} {edges : List Edge}
    (h : flowsFrom ids number edges = .ok fs) : ∀ f ∈ fs, f.target ∈ ids.map (·.2) := by
  induction edges generalizing number fs with
  | nil => cases h; exact fun _ hf => nomatch hf
  | cons e rest ih =>
    rw [flowsFrom] at h
    obtain ⟨first, hfirst, h⟩ := Except.bind_eq_ok.mp h
    obtain ⟨more, hmore, h⟩ := Except.bind_eq_ok.mp h
    cases h
    intro f hf
    rcases List.mem_cons.mp hf with rfl | hf
    · obtain ⟨condition, _, hfirst⟩ := Except.bind_eq_ok.mp hfirst
      obtain ⟨target, htarget, hfirst⟩ := Except.bind_eq_ok.mp hfirst
      obtain ⟨key, _, hget⟩ := targetOf_eq_ok htarget
      cases hfirst
      exact Assoc.mem_values_of_get? hget
    · exact ih hmore f hf

theorem target_of_flows (h : flows g ids = .ok fs) {f : SequenceFlow} (hf : f ∈ fs) :
    f.target ∈ ids.map (·.2) := by
  obtain ⟨all, hall, h⟩ := Except.bind_eq_ok.mp h
  split at h
  · cases h
  · cases h
    exact target_of_flowsFrom hall f hf

section Distinct

variable (hd : Distinct g ids) (h : flows g ids = .ok fs) {s : State} (hs : s ∈ g.nodes)

include hd hs

/-- The edges from an element are those of its state. -/
theorem allEdges_from : (allEdges g ids).filter (·.source == idOf ids s.id) =
    edgesOf (idOf ids s.id) s := by
  have hnodup := hd.nodup_elements
  rw [List.nodup_cons] at hnodup
  have hstart : startEventId ≠ idOf ids s.id := fun heq =>
    hnodup.1 (heq ▸ List.mem_map.mpr ⟨s, hs, rfl⟩)
  rw [allEdges, List.filter_cons, edgesFrom]
  simp only [beq_eq_false_iff_ne.mpr hstart, Bool.false_eq_true, ↓reduceIte]
  exact List.filter_flatMap_key hnodup.2 (fun _ _ _ he => edgesOf_source he) hs

include h

/-- The flows with conditions from an element are the branches of its state, in their order. -/
theorem flows_branches :
    (fs.filter fun f => f.condition.isSome && f.source == idOf ids s.id).map
        (fun f => (f.target, f.name, f.condition)) =
      s.branchList.map fun b => (idOf ids b.next, b.condition.display,
        some (conditionExpression b.condition.display)) := by
  rw [flows_filter_map h
      (u := fun e => e.condition.isSome && e.source == idOf ids s.id)
      (q := fun e => (idOf ids e.target, if e.isDefault then "Otherwise" else
        (e.condition.map Json.display).getD "",
        e.condition.map fun c => conditionExpression c.display))
      (fun e n => by simp [Edge.flow]) (fun _ _ => rfl)]
  rw [← List.filter_filter, allEdges_from hd hs, edgesOf_conditional, List.map_map]
  rfl

/-- The default flow of an element leads to the last resort of its state, without a condition. -/
theorem flows_otherwise :
    (fs.filter fun f => f.isDefault && f.source == idOf ids s.id).map
        (fun f => (f.target, f.condition)) =
      s.otherwiseList.map fun target => (idOf ids target, none) := by
  rw [flows_filter_map h
      (u := fun e => e.isDefault && e.source == idOf ids s.id)
      (q := fun e => (idOf ids e.target, e.condition.map fun c => conditionExpression c.display))
      (fun _ _ => rfl) (fun _ _ => rfl)]
  rw [← List.filter_filter, allEdges_from hd hs, edgesOf_default, List.map_map]
  rfl

end Distinct

/-! ## References in documents -/

/-- The texts of elements with the given tag, each next to the same id. -/
def tagged (tag : String) (id : Option String) (xs : List Xml) : List (Option String × String) :=
  xs.flatMap fun x => if x.tag = tag then [(id, x.content)] else []

theorem tagged_append (tag : String) (id : Option String) (xs ys : List Xml) :
    tagged tag id (xs ++ ys) = tagged tag id xs ++ tagged tag id ys :=
  List.flatMap_append

theorem tagged_eq_map {tag : String} {xs : List Xml} (h : ∀ x ∈ xs, x.tag = tag)
    (id : Option String) : tagged tag id xs = xs.map fun x => (id, x.content) := by
  rw [List.map_eq_flatMap]
  refine List.flatMap_congr fun x hx => ?_
  simp [h x hx]

theorem tagged_eq_nil {tag : String} {xs : List Xml} (h : ∀ x ∈ xs, x.tag ≠ tag)
    (id : Option String) : tagged tag id xs = [] := by
  unfold tagged
  rw [List.flatMap_eq_nil_iff]
  intro x hx
  simp [h x hx]

/-- The texts in an element that have the given tag, each with the id of the element. -/
def refs (tag : String) (x : Xml) : List (Option String × String) :=
  tagged tag (x.attribute? "id") x.children

/-- The tags of texts that refer to elements. -/
def refTags : List String := ["bpmn:incoming", "bpmn:outgoing", "bpmn:flowNodeRef"]

theorem refTags_not_mem : ∀ tag ∈ refTags,
    ∀ words ∈ [frameWords, formWords, bodyWords, flowWords, drawingWords],
      tag ∉ words.map (·.1) := by
  decide

theorem collect_refs_eq_nil {tag : String} {words : Xml.Vocabulary} (ht : tag ∉ words.map (·.1))
    {x : Xml} (h : x.Speaks words) : x.collect (refs tag) = [] := by
  apply Xml.collect_children_eq_nil h
  intro e he
  apply tagged_eq_nil
  rintro c hc rfl
  exact ht (he c hc).tag_mem

variable {p : Parts} {settings : Settings}

/-- The children of a process are no references. -/
theorem Parts.Of.tag_process (h : p.Of g settings) :
    ∀ c ∈ (p.process g settings).children, c.tag ∉ refTags := by
  intro c hc
  simp only [Parts.process, Xml.children_block, List.mem_append, List.mem_cons, List.not_mem_nil,
    or_false] at hc
  rcases hc with ((rfl | rfl | rfl) | hc) | hc
  · simp [Parts.formBlock, refTags]
  · simp [laneSet, refTags]
  · simp [startEvent, refTags]
  · obtain ⟨s, _, hs⟩ := Except.exists_of_mem_mapM h.elements hc
    obtain ⟨kind, hkind⟩ := tag_of_element hs
    rw [hkind]
    cases kind <;> simp [tagOf, refTags]
  · obtain ⟨f, _, rfl⟩ := List.mem_map.mp hc
    simp [tag_flowElement, refTags]

/-- References stand in lanes, in the start event and in the elements of states. -/
theorem Parts.Of.collect_refs (h : p.Of g settings) {tag : String} (ht : tag ∈ refTags) :
    (p.root g settings).collect (refs tag) =
      (laneSet p.layout p.ids).collect (refs tag) ++ ((startEvent p.flows).collect (refs tag) ++
        p.elements.flatMap (Xml.collect (refs tag))) := by
  have hframe : tag ∉ frameWords.map (·.1) := refTags_not_mem _ ht _ (by simp)
  have hdrawing : tag ∉ drawingWords.map (·.1) := refTags_not_mem _ ht _ (by simp)
  -- The frames of the document have other elements in them.
  have hroot : refs tag (p.root g settings) = [] := by
    apply tagged_eq_nil
    rintro c hc rfl
    simp only [Parts.root, Xml.children_block, List.mem_cons, List.not_mem_nil, or_false] at hc
    rcases hc with rfl | rfl | rfl <;> exact hframe (by simp [frameWords, Parts.collaboration,
      Parts.process, Parts.diagram])
  have hcollaboration : (Parts.collaboration g).collect (refs tag) = [] := by
    have hchild : refs tag (Parts.collaboration g) = [] := by
      apply tagged_eq_nil
      rintro c hc rfl
      rw [List.mem_singleton.mp hc] at hframe
      exact hframe (by simp [frameWords])
    rw [Parts.collaboration, Xml.collect_block]
    exact List.append_eq_nil_iff.mpr ⟨hchild, rfl⟩
  have hprocess : refs tag (p.process g settings) = [] :=
    tagged_eq_nil (fun c hc heq => h.tag_process c hc (heq ▸ ht)) _
  have hdiagram : refs tag p.diagram = [] := by
    apply tagged_eq_nil
    rintro c hc rfl
    rw [List.mem_singleton.mp hc] at hframe
    exact hframe (by simp [frameWords, Parts.plane])
  have hplane : refs tag p.plane = [] := by
    apply tagged_eq_nil
    rintro c hc rfl
    exact hdrawing (h.speaks_drawing c hc c (Xml.self_mem_elements c)).tag_mem
  have hdrawn : ∀ x ∈ p.pool :: p.bands ++ p.shapes ++ p.lines, x.collect (refs tag) = [] :=
    fun x hx => collect_refs_eq_nil hdrawing (h.speaks_drawing x hx)
  have hflows : (p.flows.flatMap fun f => (flowElement f).collect (refs tag)) = [] :=
    List.flatMap_eq_nil_iff.mpr fun f _ =>
      collect_refs_eq_nil (refTags_not_mem _ ht _ (by simp)) (speaks_flowElement f)
  rw [Parts.collect_root, hroot, hcollaboration, hprocess, hdiagram, hplane, hflows,
    collect_refs_eq_nil (refTags_not_mem _ ht _ (by simp)) h.speaks_formBlock,
    List.flatMap_eq_nil_iff.mpr hdrawn]
  simp

/-! ### References of elements -/

theorem tagged_incoming (owner : Option String) (id : String) :
    tagged "bpmn:incoming" owner (incoming fs id) =
      (fs.filter (·.target == id)).map fun f => (owner, f.id) := by
  rw [incoming, tagged_eq_map, List.map_map]
  · rfl
  · intro c hc
    obtain ⟨f, _, rfl⟩ := List.mem_map.mp hc
    rfl

theorem tagged_outgoing (owner : Option String) (id : String) :
    tagged "bpmn:outgoing" owner (outgoing fs id) =
      (fs.filter (·.source == id)).map fun f => (owner, f.id) := by
  rw [outgoing, tagged_eq_map, List.map_map]
  · rfl
  · intro c hc
    obtain ⟨f, _, rfl⟩ := List.mem_map.mp hc
    rfl

theorem tag_incoming (id : String) : ∀ c ∈ incoming fs id, c.tag ≠ "bpmn:outgoing" := by
  intro c hc
  obtain ⟨f, _, rfl⟩ := List.mem_map.mp hc
  simp

theorem tag_outgoing (id : String) : ∀ c ∈ outgoing fs id, c.tag ≠ "bpmn:incoming" := by
  intro c hc
  obtain ⟨f, _, rfl⟩ := List.mem_map.mp hc
  simp

/-- There are no references inside of texts. -/
theorem refs_incoming (tag id : String) : (incoming fs id).flatMap (refs tag) = [] := by
  rw [List.flatMap_eq_nil_iff]
  intro c hc
  obtain ⟨f, _, rfl⟩ := List.mem_map.mp hc
  rfl

theorem refs_outgoing (tag id : String) : (outgoing fs id).flatMap (refs tag) = [] := by
  rw [List.flatMap_eq_nil_iff]
  intro c hc
  obtain ⟨f, _, rfl⟩ := List.mem_map.mp hc
  rfl

theorem refs_terminator (tag : String) (s : State) : (terminator s).flatMap (refs tag) = [] := by
  unfold terminator
  split <;> rfl

/-- In the element of a state the references to sequence flows are found. -/
theorem collect_refs_element {s : State} {x : Xml} (h : element ids fs s = .ok x) {tag : String}
    (ht : tag ∈ refTags) : x.collect (refs tag) =
      tagged tag (some (idOf ids s.id)) (incoming fs (idOf ids s.id)) ++
        tagged tag (some (idOf ids s.id)) (outgoing fs (idOf ids s.id)) := by
  obtain ⟨kind, name, body, _, _, hbody, rfl⟩ := element_eq_ok h
  have hfar : tag ∉ bodyWords.map (·.1) := refTags_not_mem _ ht _ (by simp)
  -- Neither the body of the element nor the mark of its end refers to flows.
  have hbodyTags : ∀ c ∈ body, c.tag ≠ tag := by
    rintro c hc rfl
    exact hfar (speaks_body hbody c hc c (Xml.self_mem_elements c)).tag_mem
  have hmarkTags : ∀ c ∈ terminator s, c.tag ≠ tag := by
    intro c hc
    unfold terminator at hc
    split at hc
    · rw [List.mem_singleton.mp hc]
      rintro rfl
      revert ht
      decide
    · cases hc
  have hinside : body.flatMap (Xml.collect (refs tag)) = [] :=
    List.flatMap_eq_nil_iff.mpr fun c hc => collect_refs_eq_nil hfar (speaks_body hbody c hc)
  have hid : ∀ more children, (Xml.block (tagOf kind) ([("id", idOf ids s.id)] ++ name ++ more)
      children).attribute? "id" = some (idOf ids s.id) := by
    simp [Xml.attribute?, Assoc.get?]
  rw [Xml.collect_block]
  simp only [List.flatMap_append, hinside, collect_incoming, collect_outgoing, collect_terminator,
    refs_incoming, refs_outgoing, refs_terminator, List.append_nil]
  unfold refs
  rw [hid, Xml.children_block]
  simp only [tagged_append, tagged_eq_nil hbodyTags, tagged_eq_nil hmarkTags, List.nil_append,
    List.append_nil]

/-- The sequence flows with an end at the given elements, element by element. -/
theorem perm_refs {keys : List String} (hn : keys.Nodup) {k : SequenceFlow → String}
    (h : ∀ f ∈ fs, k f ∈ keys) :
    (keys.flatMap fun key => (fs.filter (k · == key)).map fun f => (some key, f.id)).Perm
      (fs.map fun f => (some (k f), f.id)) := by
  have hkey : (keys.flatMap fun key => (fs.filter (k · == key)).map fun f => (some key, f.id)) =
      (keys.flatMap fun key => fs.filter (k · == key)).map fun f => (some (k f), f.id) := by
    rw [List.map_flatMap]
    refine List.flatMap_congr fun key _ => List.map_congr_left fun f hf => ?_
    rw [beq_iff_eq.mp (List.mem_filter.mp hf).2]
  rw [hkey]
  exact (List.perm_flatMap_filter hn h).map _

theorem collect_refs_startEvent (tag : String) : (startEvent fs).collect (refs tag) =
    tagged tag (some startEventId) (outgoing fs startEventId) := by
  rw [startEvent, Xml.collect_block, collect_outgoing, refs_outgoing]
  simp [refs, Xml.attribute?, Assoc.get?]

/-- Every sequence flow is told once by the element that it leaves, and by no other. -/
theorem Parts.Of.outgoing_perm (h : p.Of g settings) (hd : Distinct g p.ids) :
    ((p.root g settings).collect (refs "bpmn:outgoing")).Perm
      (p.flows.map fun f => (some f.source, f.id)) := by
  have hlanes : (laneSet p.layout p.ids).collect (refs "bpmn:outgoing") = [] :=
    collect_refs_eq_nil (by decide) (speaks_laneSet _ _)
  have helements : p.elements.flatMap (Xml.collect (refs "bpmn:outgoing")) =
      g.nodes.flatMap fun s => (p.flows.filter (·.source == idOf p.ids s.id)).map
        fun f => (some (idOf p.ids s.id), f.id) := by
    refine Except.flatMap_eq_of_mapM (fun s _ x hx => ?_) h.elements
    rw [collect_refs_element hx (by decide), tagged_eq_nil (tag_incoming _), tagged_outgoing,
      List.nil_append]
  have hmem : ∀ f ∈ p.flows, f.source ∈ startEventId :: g.nodes.map fun s => idOf p.ids s.id :=
    fun f hf => source_of_flows h.flows hf
  rw [h.collect_refs (by decide), hlanes, collect_refs_startEvent, tagged_outgoing, helements]
  simpa only [List.nil_append, List.flatMap_cons, List.flatMap_map] using
    perm_refs hd.nodup_elements hmem

/-- Every sequence flow is told once by the element that it leads to, and by no other. -/
theorem Parts.Of.incoming_perm (h : p.Of g settings) (hd : Distinct g p.ids) :
    ((p.root g settings).collect (refs "bpmn:incoming")).Perm
      (p.flows.map fun f => (some f.target, f.id)) := by
  have hlanes : (laneSet p.layout p.ids).collect (refs "bpmn:incoming") = [] :=
    collect_refs_eq_nil (by decide) (speaks_laneSet _ _)
  have helements : p.elements.flatMap (Xml.collect (refs "bpmn:incoming")) =
      g.nodes.flatMap fun s => (p.flows.filter (·.target == idOf p.ids s.id)).map
        fun f => (some (idOf p.ids s.id), f.id) := by
    refine Except.flatMap_eq_of_mapM (fun s _ x hx => ?_) h.elements
    rw [collect_refs_element hx (by decide), tagged_eq_nil (tag_outgoing _), tagged_incoming,
      List.append_nil]
  have hmem : ∀ f ∈ p.flows, f.target ∈ g.nodes.map fun s => idOf p.ids s.id := by
    intro f hf
    rw [hd.map_idOf]
    exact target_of_flows h.flows hf
  rw [h.collect_refs (by decide), hlanes, collect_refs_startEvent, tagged_eq_nil (tag_outgoing _),
    helements]
  simpa only [List.nil_append, List.flatMap_map] using
    perm_refs (List.nodup_cons.mp hd.nodup_elements).2 hmem

/-! ### Default flows -/

/-- The flow that an element takes in the end, next to the id of the element. -/
def defaultRef (x : Xml) : List (Option String × String) :=
  (x.attribute? "default").toList.map (x.attribute? "id", ·)

theorem silent_defaultRef {words : Xml.Vocabulary} (hw : ∀ w ∈ words, "default" ∉ w.2) :
    words.Silent defaultRef := by
  intro e he
  simp [defaultRef, he.attribute? hw]

theorem defaultFlow?_eq (fs : List SequenceFlow) (id : String) :
    defaultFlow? fs id =
      (fs.filter fun f => f.isDefault && f.source == id).getLast?.map (·.id) := by
  rw [defaultFlow?, ← List.head?_filter, List.filter_reverse, List.head?_reverse]

/-- A choice with a last resort has one default flow, and no other state has one. -/
theorem defaultFlow?_toList (hd : Distinct g ids) (h : flows g ids = .ok fs) {s : State}
    (hs : s ∈ g.nodes) : (defaultFlow? fs (idOf ids s.id)).toList =
      (fs.filter fun f => f.isDefault && f.source == idOf ids s.id).map (·.id) := by
  have hlength : (fs.filter fun f => f.isDefault && f.source == idOf ids s.id).length ≤ 1 := by
    have heq := congrArg List.length (flows_otherwise hd h hs)
    rw [List.length_map, List.length_map] at heq
    rw [heq]
    unfold State.otherwiseList
    split
    · split <;> simp
    · simp
  rw [defaultFlow?_eq]
  generalize (fs.filter fun f => f.isDefault && f.source == idOf ids s.id) = found at hlength ⊢
  cases found with
  | nil => rfl
  | cons f rest =>
    have hrest : rest = [] := List.length_eq_zero_iff.mp (by simpa using hlength)
    rw [hrest]
    rfl

theorem collect_defaultRef_element {s : State} {x : Xml} (h : element ids fs s = .ok x) :
    x.collect defaultRef =
      (defaultFlow? fs (idOf ids s.id)).toList.map (some (idOf ids s.id), ·) := by
  obtain ⟨kind, name, body, _, hname, hbody, rfl⟩ := element_eq_ok h
  have hinner := List.flatMap_eq_nil_iff.mpr fun c hc =>
    Xml.collect_eq_nil (speaks_inner fs hbody (idOf ids s.id) c hc) (silent_defaultRef (by decide))
  rw [Xml.collect_block, hinner, List.append_nil]
  have hnames : name = [] ∨ ∃ text, name = [("name", text)] := by
    rcases nameAttribute_eq_ok hname with ⟨_, hname⟩ | ⟨text, _, _, hname⟩
    · exact Or.inl hname
    · exact Or.inr ⟨text, hname⟩
  unfold defaultRef defaultAttribute
  cases defaultFlow? fs (idOf ids s.id) with
  | none => rcases hnames with rfl | ⟨text, rfl⟩ <;> simp [Xml.attribute?, Assoc.get?]
  | some flow => rcases hnames with rfl | ⟨text, rfl⟩ <;> simp [Xml.attribute?, Assoc.get?]

/-- Elements with a default flow tell it, and no other element has one. -/
theorem Parts.Of.collect_defaultRef (h : p.Of g settings) (hd : Distinct g p.ids) :
    (p.root g settings).collect defaultRef = g.nodes.flatMap fun s =>
      (p.flows.filter fun f => f.isDefault && f.source == idOf p.ids s.id).map
        fun f => (some (idOf p.ids s.id), f.id) := by
  have hforms : p.formBlock.collect defaultRef = [] :=
    Xml.collect_eq_nil h.speaks_formBlock (silent_defaultRef (by decide))
  have hlanes : (laneSet p.layout p.ids).collect defaultRef = [] :=
    Xml.collect_eq_nil (speaks_laneSet _ _) (silent_defaultRef (by decide))
  have hstart : (startEvent p.flows).collect defaultRef = [] := by
    have hinner := List.flatMap_eq_nil_iff.mpr fun c hc =>
      Xml.collect_eq_nil (speaks_outgoing p.flows startEventId c hc) (silent_defaultRef (by decide))
    rw [startEvent, Xml.collect_block, hinner]
    simp [defaultRef, Xml.attribute?, Assoc.get?]
  have helements : p.elements.flatMap (Xml.collect defaultRef) = g.nodes.flatMap fun s =>
      (p.flows.filter fun f => f.isDefault && f.source == idOf p.ids s.id).map
        fun f => (some (idOf p.ids s.id), f.id) := by
    refine Except.flatMap_eq_of_mapM (fun s hs x hx => ?_) h.elements
    rw [collect_defaultRef_element hx, defaultFlow?_toList hd h.flows hs, List.map_map]
    rfl
  rw [Parts.collect_root_inside p g settings (silent_defaultRef (by decide)), hforms, hlanes,
    hstart, helements, p.collect_flows_eq_nil (silent_defaultRef (by decide)),
    h.collect_drawing_eq_nil (silent_defaultRef (by decide))]
  simp

/-! ### The elements of sequence flows -/

/-- What the element of a sequence flow says: its attributes and the texts in it. -/
def flowEntry (x : Xml) : List (List (String × String) × List (String × String)) :=
  if x.tag = "bpmn:sequenceFlow" then
    [(x.attributes, x.children.map fun c => (c.tag, c.content))]
  else []

theorem silent_flowEntry {words : Xml.Vocabulary}
    (hw : "bpmn:sequenceFlow" ∉ words.map (·.1)) : words.Silent flowEntry := by
  intro e he
  have hne : e.tag ≠ "bpmn:sequenceFlow" := fun heq => hw (heq ▸ he.tag_mem)
  simp [flowEntry, hne]

/-- The element of a sequence flow tells its ends, its name and its condition. -/
theorem collect_flowEntry_flowElement (f : SequenceFlow) : (flowElement f).collect flowEntry =
    [([("id", f.id), ("sourceRef", f.source), ("targetRef", f.target)] ++
        (if f.name = "" then [] else [("name", f.name)]),
      f.condition.toList.map fun c => ("bpmn:conditionExpression", c))] := by
  unfold flowElement
  cases f.condition <;> simp [flowEntry]

/-- There is one element for each sequence flow, in their order. -/
theorem Parts.Of.collect_flowEntry (h : p.Of g settings) :
    (p.root g settings).collect flowEntry = p.flows.map fun f =>
      ([("id", f.id), ("sourceRef", f.source), ("targetRef", f.target)] ++
          (if f.name = "" then [] else [("name", f.name)]),
        f.condition.toList.map fun c => ("bpmn:conditionExpression", c)) := by
  have hforms : p.formBlock.collect flowEntry = [] :=
    Xml.collect_eq_nil h.speaks_formBlock (silent_flowEntry (by decide))
  have hlanes : (laneSet p.layout p.ids).collect flowEntry = [] :=
    Xml.collect_eq_nil (speaks_laneSet _ _) (silent_flowEntry (by decide))
  have hstart : (startEvent p.flows).collect flowEntry = [] :=
    Xml.collect_eq_nil (speaks_startEvent _) (silent_flowEntry (by decide))
  rw [Parts.collect_root_inside p g settings (silent_flowEntry (by decide)), hforms, hlanes,
    hstart, h.collect_elements_eq_nil (silent_flowEntry (by decide)),
    h.collect_drawing_eq_nil (silent_flowEntry (by decide)), List.map_eq_flatMap]
  simp only [collect_flowEntry_flowElement, List.nil_append, List.append_nil]

/-! ## Documents -/

/-- The sequence flows of a document are the edges of its graph, behind one to the start state;
    they are numbered in their order, and each of them has an element. -/
structure FlowsFollow (g : Graph) (ids : List (String × String)) (flows : List SequenceFlow)
    (root : Xml) : Prop where
  ends : flows.map (fun f => (f.source, f.target)) =
    (startEventId, idOf ids g.start) :: g.edges.map fun e => (idOf ids e.1, idOf ids e.2)
  numbers : flows.map (·.id) = (List.range' 1 flows.length).map fun n => s!"Flow_{n}"
  entries : root.collect flowEntry = flows.map fun f =>
    ([("id", f.id), ("sourceRef", f.source), ("targetRef", f.target)] ++
        (if f.name = "" then [] else [("name", f.name)]),
      f.condition.toList.map fun c => ("bpmn:conditionExpression", c))

/-- The elements of a document tell the sequence flows at them: each flow is told once where it
    starts and once where it ends, the flows of a choice carry its conditions in their order, and
    a choice with a last resort, and nothing else, names the one flow to it as its default. -/
structure FlowsTold (g : Graph) (ids : List (String × String)) (flows : List SequenceFlow)
    (root : Xml) : Prop where
  outgoing : (root.collect (refs "bpmn:outgoing")).Perm (flows.map fun f => (some f.source, f.id))
  incoming : (root.collect (refs "bpmn:incoming")).Perm (flows.map fun f => (some f.target, f.id))
  branches : ∀ s ∈ g.nodes,
    (flows.filter fun f => f.condition.isSome && f.source == idOf ids s.id).map
        (fun f => (f.target, f.name, f.condition)) =
      s.branchList.map fun b => (idOf ids b.next, b.condition.display,
        some (conditionExpression b.condition.display))
  otherwise : ∀ s ∈ g.nodes,
    (flows.filter fun f => f.isDefault && f.source == idOf ids s.id).map
        (fun f => (f.target, f.condition)) =
      s.otherwiseList.map fun target => (idOf ids target, none)
  defaults : root.collect defaultRef = g.nodes.flatMap fun s =>
    (flows.filter fun f => f.isDefault && f.source == idOf ids s.id).map
      fun f => (some (idOf ids s.id), f.id)

/-- The sequence flows of a document are the edges of its graph, and if no two states have the same
    id, then the elements tell these flows. -/
theorem document_flows {text : String} (h : document g settings = .ok text) :
    ∃ root ids flows, definitions g settings = .ok root ∧ text = root.document ∧
      elementIds g = .ok ids ∧ Bpmn.flows g ids = .ok flows ∧ FlowsFollow g ids flows root ∧
      ((g.nodes.map (·.id)).Nodup → FlowsTold g ids flows root) := by
  obtain ⟨root, hroot, htext⟩ := Except.bind_eq_ok.mp h
  obtain ⟨p, hp, rfl⟩ := parts_of_definitions hroot
  cases htext
  refine ⟨_, p.ids, p.flows, hroot, rfl, hp.ids, hp.flows, ?_, fun hn => ?_⟩
  · exact ⟨flows_ends hp.flows, flows_ids hp.flows, hp.collect_flowEntry⟩
  · have hd := distinct_of_elementIds hp.ids hn
    exact ⟨hp.outgoing_perm hd, hp.incoming_perm hd, fun s hs => flows_branches hd hp.flows hs,
      fun s hs => flows_otherwise hd hp.flows hs, hp.collect_defaultRef hd⟩

/-- A choice with two ways to the same state, and one way back to itself. -/
def choosingFlow : Graph :=
  { name := "F"
    start := .str "g"
    states := [
      ("g", State.make "g" (.choice (.list [⟨.str "x", .str "b"⟩, ⟨.str "y", .str "g"⟩]) (.str "b"))
        .null),
      ("b", State.make "b" (.stop (.str "")) .null)]
    warnings := [] }

/-- The document of this graph can be written. -/
theorem definitions_choosingFlow : ∃ root, definitions choosingFlow {} = .ok root := by
  have hmade : (definitions choosingFlow {}).isOk = true := by cbv
  cases hroot : definitions choosingFlow {} with
  | error e => rw [hroot] at hmade; cases hmade
  | ok root => exact ⟨root, rfl⟩

theorem nodup_choosingFlow : (choosingFlow.nodes.map (·.id)).Nodup := by
  simp [choosingFlow, Graph.nodes, State.make]

/-- None of these ways is lost, and the last one is the default. -/
theorem document_flows_choosingFlow : ∃ root ids flows,
    definitions choosingFlow {} = .ok root ∧ FlowsFollow choosingFlow ids flows root ∧
    FlowsTold choosingFlow ids flows root ∧
    flows.map (fun f => (f.id, f.source, f.target, f.isDefault)) =
      [("Flow_1", "StartEvent_1", "GW_g", false), ("Flow_2", "GW_g", "End_b", false),
        ("Flow_3", "GW_g", "GW_g", false), ("Flow_4", "GW_g", "End_b", true)] := by
  have hflows : (do
      let ids ← elementIds choosingFlow
      let fs ← flows choosingFlow ids
      return fs.map fun f : SequenceFlow => (f.id, f.source, f.target, f.isDefault)) =
      .ok [("Flow_1", "StartEvent_1", "GW_g", false), ("Flow_2", "GW_g", "End_b", false),
        ("Flow_3", "GW_g", "GW_g", false), ("Flow_4", "GW_g", "End_b", true)] := by cbv
  obtain ⟨root, hroot⟩ := definitions_choosingFlow
  have hdocument : document choosingFlow {} = .ok root.document := by rw [document, hroot]; rfl
  obtain ⟨root', ids, fs, hroot', _, hids, hfs, hfollow, htold⟩ := document_flows hdocument
  cases hroot.symm.trans hroot'
  obtain ⟨ids', hids', hflows⟩ := Except.bind_eq_ok.mp hflows
  cases hids.symm.trans hids'
  obtain ⟨fs', hfs', hflows⟩ := Except.bind_eq_ok.mp hflows
  cases hfs.symm.trans hfs'
  exact ⟨root, ids, fs, hroot, hfollow, htold nodup_choosingFlow, Except.ok.inj hflows⟩

/-- A graph in which a state takes the id of another state after both were added. -/
def sharedFlow : Except Failure Graph := do
  let g ← [State.make "a" (.userTask (.str "p") (.str "") none) (.str "b"),
    State.make "b" (.stop (.str "")) .null,
    State.make "c" (.task (.str "t")) (.str "b")].foldlM Graph.add (Graph.empty "F")
  g.set (.str "c") "id" (.str "a")

/-- The graph is accepted, but both states have the same element, and each of the two tells the
    flows of both. -/
theorem outgoing_of_sharedFlow :
    (do
      let g ← sharedFlow
      let warnings ← g.validate
      let root ← definitions g {}
      return (warnings, root.collect (refs "bpmn:outgoing"))) =
    .ok ([], [(some "StartEvent_1", "Flow_1"), (some "ST_a", "Flow_2"), (some "ST_a", "Flow_3"),
      (some "ST_a", "Flow_2"), (some "ST_a", "Flow_3")]) := by
  cbv

end Bpmn

end Swimlane
