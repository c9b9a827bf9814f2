import Swimlane.Proofs.DocumentIds
import Swimlane.Proofs.Pipeline

/-!
# When the ids of a document differ

The id of a shape or a line is the id of what it shows with a suffix.  Nothing keeps another element
from having just this id: the ids of states and lanes are kept apart from each other, but not from
those of shapes.  In the document of a story, two ids are the same in this case only.

## Key results

- `nodup_append_suffix`: when ids and their suffixed forms differ
- `collect_forms`: the ids of forms
- `ids_nodup_iff`: when the ids of a document differ
- `ids_of_doubledStory`: a story whose document has an id twice
-/

namespace Swimlane.Bpmn

/-- All values of the attribute `id`. -/
def idValues (x : Xml) : List String := (x.attribute? "id").toList

theorem collect_idValues (x : Xml) : x.collect idValues = (x.collect identified).map (·.2) := by
  simp only [Xml.collect, List.map_flatMap]
  refine List.flatMap_congr fun e _ => ?_
  simp [idValues, identified, Function.comp_def]

/-! ## Suffixes -/

/-- Different ids with their suffixed forms differ unless one of them is the suffixed form of
    another one. -/
theorem nodup_append_suffix {ids : List String} (hn : ids.Nodup) :
    (ids ++ ids.map (· ++ "_di")).Nodup ↔ ∀ id ∈ ids, id ++ "_di" ∉ ids := by
  have hmap : (ids.map (· ++ "_di")).Nodup := by
    exact hn.map fun a b hab => (String.append_left_inj _).mp hab
  rw [List.nodup_append]
  constructor
  · rintro ⟨_, _, hdisjoint⟩ id hid hmem
    exact hdisjoint _ hmem _ (List.mem_map.mpr ⟨id, hid, rfl⟩) rfl
  · intro hfree
    refine ⟨hn, hmap, fun a ha b hb hab => ?_⟩
    obtain ⟨id, hid, rfl⟩ := List.mem_map.mp hb
    exact hfree id hid (hab ▸ ha)

/-- A suffix does not change the family of an id. -/
theorem IsFamily.append_suffix {words ids : List String} (h : IsFamily words ids)
    (hfree : ∀ id ∈ ids, id ++ "_di" ∉ ids) : IsFamily words (ids ++ ids.map (· ++ "_di")) := by
  refine ⟨(nodup_append_suffix h.1).mpr hfree, fun id hid => ?_⟩
  rcases List.mem_append.mp hid with hid | hid
  · exact h.2 id hid
  · obtain ⟨id', hid', rfl⟩ := List.mem_map.mp hid
    exact (h.2 id' hid').append "_di"

/-- No number ends with a suffix. -/
theorem flows_suffix_free {g : Graph} {ids : List (String × String)} {fs : List SequenceFlow}
    (h : flows g ids = .ok fs) : ∀ id ∈ fs.map (·.id), id ++ "_di" ∉ fs.map (·.id) := by
  rw [flows_ids h]
  intro id hid hmem
  obtain ⟨m, _, rfl⟩ := List.mem_map.mp hid
  obtain ⟨n, _, heq⟩ := List.mem_map.mp hmem
  have hchars := congrArg String.toList heq
  simp only [toString, String.toList_append, Nat.toList_repr, List.append_assoc,
    List.append_cancel_left_eq] at hchars
  have hmark : '_' ∈ Nat.toDigits 10 n := by
    rw [hchars]
    exact List.mem_append_right _ (by decide)
  have hdigit := Nat.isDigit_of_mem_toDigits (by omega) (by omega) hmark
  revert hdigit
  decide

/-- The element of one state is the suffixed element of another one if both are of one kind and
    their ids are such. -/
theorem elementId_suffix_iff {kind kind' : Kind} {a b : String} (ha : Text.IsIdentifier a)
    (hb : Text.IsIdentifier b) :
    elementId kind a ++ "_di" = elementId kind' b ↔ kind = kind' ∧ b = a ++ "_di" := by
  rw [elementId, elementId, Text.xmlId_of_isIdentifier ha, Text.xmlId_of_isIdentifier hb]
  constructor
  · intro heq
    have hkind : kind = kind' := by
      have hfamily : ∀ (k : Kind) (rest : String), InFamily [markOf k] (markOf k ++ "_" ++ rest) :=
        fun k rest => ⟨markOf k, by simp, by cases k <;> decide, rest, rfl⟩
      obtain ⟨word, hword, hword'⟩ :=
        ((hfamily kind a).append "_di").inter (heq ▸ hfamily kind' b)
      have hmark : markOf kind = markOf kind' :=
        (List.mem_singleton.mp hword).symm.trans (List.mem_singleton.mp hword')
      revert hmark
      cases kind <;> cases kind' <;> decide
    subst hkind
    refine ⟨rfl, ?_⟩
    rw [String.append_assoc] at heq
    exact ((String.append_right_inj _).mp heq).symm
  · rintro ⟨rfl, rfl⟩
    rw [String.append_assoc]

/-! ## Forms -/

/-- A form has the id of its state, with a word in front. -/
theorem id_of_infer? {stateId prompt : String} {exclude : List String} {f : Form}
    (h : Form.infer? stateId prompt exclude = some f) : f.id = .str ("form_" ++ stateId) := by
  rw [Form.infer?] at h
  split at h
  · cases h
  · cases h
    rfl

/-- The forms of states have the ids of their states. -/
def FormsNamed (states : List State) : Prop :=
  ∀ s ∈ states, ∀ form, s.form? = some form →
    ∃ f, form = .ok f ∧ f.id = .str ("form_" ++ s.id.display)

theorem formsNamed_of_ofStory {story : String} {g : Graph} (h : Graph.ofStory story = .ok g) :
    FormsNamed g.nodes := by
  cases hparse : Story.parse story with
  | error e => rw [Graph.ofStory_of_error hparse] at h; cases h
  | ok statements =>
    obtain ⟨built, _, hwell, hstory⟩ := Graph.ofStory_of_parse hparse
    cases hstory.symm.trans h
    intro s hs form hform
    rw [Graph.formed_nodes] at hs
    obtain ⟨s', hs', rfl⟩ := List.mem_map.mp hs
    rw [State.formed_id]
    have htextual := hwell.textual s' hs'
    cases htextual with
    | userTask id prompt assignee form' next _ =>
      obtain ⟨f, hf, rfl⟩ := Option.map_eq_some_iff.mp hform
      exact ⟨f, rfl, id_of_infer? hf⟩
    | _ => cases hform

theorem isIdentifier_form {id : String} (h : Text.IsIdentifier id) :
    Text.IsIdentifier ("form_" ++ id) where
  chars := by
    intro c hc
    rw [String.toList_append, List.mem_append] at hc
    rcases hc with hc | hc
    · have hword : "form_".toList = ['f', 'o', 'r', 'm', '_'] := by decide
      simp only [hword, List.mem_cons, List.not_mem_nil, or_false] at hc
      rcases hc with rfl | rfl | rfl | rfl | rfl <;> decide
    · exact h.chars c hc
  starts := ⟨'f', _, by rw [String.toList_append]; rfl, by decide⟩
  ends := by
    obtain ⟨front, c, hend, hc⟩ := h.ends
    exact ⟨"form_".toList ++ front, c, by rw [String.toList_append, hend, List.append_assoc], hc⟩

theorem formId_eq {f : Form} {name : String} (h : f.id = .str name) :
    formId f = .ok (Text.xmlId name) := by
  rw [formId, h]
  rfl

/-- The ids of the forms in a document. -/
theorem collect_forms {states : List State} (hforms : FormsNamed states)
    (hids : ∀ s ∈ states, Text.IsIdentifier s.id.display) {forms : List Xml}
    (h : (states.filterMap (·.form?)).mapM (fun form => do formElement (← form)) = .ok forms) :
    forms.flatMap (Xml.collect identified) =
      (states.filter (·.form?.isSome)).map fun s => (.form, "form_" ++ s.id.display) := by
  have hrole : roleOf "zeebe:userTaskForm" = .form := by decide
  induction states generalizing forms with
  | nil => cases h; rfl
  | cons s rest ih =>
    have hrest := @ih (fun s hs => hforms s (List.mem_cons_of_mem _ hs))
      (fun s hs => hids s (List.mem_cons_of_mem _ hs))
    cases hform : s.form? with
    | none =>
      simp only [List.filterMap_cons, hform] at h
      simp only [List.filter_cons, hform, Option.isSome_none]
      exact hrest h
    | some form =>
      obtain ⟨f, rfl, hf⟩ := hforms s List.mem_cons_self form hform
      simp only [List.filterMap_cons, hform, List.mapM_cons] at h
      obtain ⟨x, hx, h⟩ := Except.bind_eq_ok.mp h
      obtain ⟨more, hmore, h⟩ := Except.bind_eq_ok.mp h
      cases h
      obtain ⟨f', hf', hx⟩ := Except.bind_eq_ok.mp hx
      cases hf'
      obtain ⟨id, hid, hx⟩ := Except.bind_eq_ok.mp hx
      cases hx
      -- The id of the form is an XML id as it is.
      have hid : id = "form_" ++ s.id.display := by
        have hplain := isIdentifier_form (hids s List.mem_cons_self)
        rw [formId_eq hf, Text.xmlId_of_isIdentifier hplain] at hid
        exact (Except.ok.inj hid).symm
      rw [List.flatMap_cons, hrest hmore, List.filter_cons]
      simp [hform, hid, identified, hrole, Xml.attribute?, Assoc.get?]

/-! ## Documents -/

section Document

variable {g : Graph} {settings : Settings} {p : Parts}

/-- The ids with their suffixed forms. -/
def withSuffixed (ids : List String) : List String := ids ++ ids.map (· ++ "_di")

/-- Ids in the order of a document, and the same ids group by group. -/
theorem perm_regrouped (d c p p' r s t t' x y : String)
    (forms lanes lanes' elements elements' flows flows' : List String) :
    ([d, c, p, r] ++ forms ++ [s] ++ lanes ++ t :: elements ++ flows ++
      ([x, y] ++ (p' :: lanes' ++ t' :: elements') ++ flows')).Perm
    ([d, c, p, p', r] ++ forms ++ [s] ++ (lanes ++ lanes') ++ [t, t'] ++ (elements ++ elements') ++
      (flows ++ flows') ++ [x, y]) := by
  rw [List.perm_iff_count]
  intro id
  simp only [List.count_append, List.count_cons, List.count_nil]
  ac_rfl

/-- All ids in a document, in their families. -/
theorem Parts.Of.ids_perm (h : p.Of g settings) (hd : Distinct g p.ids)
    (hl : Diagram.Drawn g p.layout) {forms : List String}
    (hforms : p.forms.flatMap (Xml.collect identified) = forms.map (.form, ·)) :
    ((p.root g settings).collect idValues).Perm
      ((idGroups (flowSlug g.name) (withSuffixed ["Participant_1"])
        (withSuffixed (p.layout.bands.map (·.lane.id))) (withSuffixed [startEventId])
        (withSuffixed (p.ids.map (·.2))) (withSuffixed (p.flows.map (·.id))) forms).flatMap
          (·.2)) := by
  have hperm := perm_regrouped ("Definitions_" ++ flowSlug g.name) "Collaboration_1"
    "Participant_1" ("Participant_1" ++ "_di") (Parts.processId g) "LaneSet_1" startEventId
    (startEventId ++ "_di") "BPMNDiagram_1" "BPMNPlane_1" forms
    (p.layout.bands.map (·.lane.id)) ((p.layout.bands.map (·.lane.id)).map (· ++ "_di"))
    (p.ids.map (·.2)) ((p.ids.map (·.2)).map (· ++ "_di"))
    (p.flows.map (·.id)) ((p.flows.map (·.id)).map (· ++ "_di"))
  rw [collect_idValues, h.collect_identified, Parts.modelIds, Parts.diagramIds, hforms,
    placed_ids hd hl, nodeIds, hd.map_idOf]
  simp only [List.map_append, List.map_cons, List.map_nil, List.map_map, Function.comp_def,
    List.map_id'] at hperm ⊢
  simpa only [idGroups, withSuffixed, Parts.processId, List.flatMap_cons, List.flatMap_nil,
    List.map_cons, List.map_nil, List.map_map, Function.comp_def, List.cons_append,
    List.nil_append, List.append_assoc, List.append_nil] using hperm

/-- Two states of one kind have ids of which one is the suffixed form of the other. -/
def StatesCollide (g : Graph) : Prop :=
  ∃ s ∈ g.nodes, ∃ t ∈ g.nodes, s.body.kind = t.body.kind ∧ t.id.display = s.id.display ++ "_di"

/-- Two lanes have ids of which one is the suffixed form of the other. -/
def LanesCollide (layout : Diagram.Layout) : Prop :=
  ∃ a ∈ layout.bands, ∃ b ∈ layout.bands, b.lane.id = a.lane.id ++ "_di"

theorem elements_suffix_free_iff (h : g.WellFormed) :
    (∀ id ∈ (g.nodes.map elementOf).map (·.2), id ++ "_di" ∉ (g.nodes.map elementOf).map (·.2)) ↔
      ¬ StatesCollide g := by
  have hnamed : ∀ s ∈ g.nodes, Text.IsIdentifier s.id.display := fun s hs =>
    h.named _ (h.display_mem_keys hs)
  rw [List.map_map]
  constructor
  · rintro hfree ⟨s, hs, t, ht, hkind⟩
    have heq := (elementId_suffix_iff (hnamed s hs) (hnamed t ht)).mpr hkind
    exact hfree _ (List.mem_map_of_mem hs) (heq ▸ List.mem_map_of_mem ht)
  · intro hfree id hid hmem
    obtain ⟨s, hs, rfl⟩ := List.mem_map.mp hid
    obtain ⟨t, ht, heq⟩ := List.mem_map.mp hmem
    exact hfree ⟨s, hs, t, ht, (elementId_suffix_iff (hnamed s hs) (hnamed t ht)).mp heq.symm⟩

theorem lanes_suffix_free_iff (layout : Diagram.Layout) :
    (∀ id ∈ layout.bands.map (·.lane.id), id ++ "_di" ∉ layout.bands.map (·.lane.id)) ↔
      ¬ LanesCollide layout := by
  constructor
  · rintro hfree ⟨a, ha, b, hb, heq⟩
    exact hfree _ (List.mem_map_of_mem ha) (heq ▸ List.mem_map_of_mem hb)
  · intro hfree id hid hmem
    obtain ⟨a, ha, rfl⟩ := List.mem_map.mp hid
    obtain ⟨b, hb, heq⟩ := List.mem_map.mp hmem
    exact hfree ⟨a, ha, b, hb, heq⟩

/-- The ids in the document of a graph with named forms differ from each other unless two states
    or two lanes collide. -/
theorem Parts.Of.nodup_ids_iff (h : p.Of g settings) (hwell : g.WellFormed)
    (hforms : FormsNamed g.nodes) :
    ((p.root g settings).collect idValues).Nodup ↔
      ¬ StatesCollide g ∧ ¬ LanesCollide p.layout := by
  have hnamed : ∀ s ∈ g.nodes, Text.IsIdentifier s.id.display := fun s hs =>
    hwell.named _ (hwell.display_mem_keys hs)
  have hn : (g.nodes.map (·.id)).Nodup := by
    rw [hwell.ids]
    exact hwell.nodup.map fun a b hab => Json.str.inj hab
  have hd := distinct_of_elementIds h.ids hn
  have hl := hd.drawn h.layout
  have hids : p.ids = g.nodes.map elementOf :=
    Except.ok.inj (h.ids.symm.trans (elementIds_of_wellFormed hwell))
  let forms := (g.nodes.filter (·.form?.isSome)).map fun s => "form_" ++ s.id.display
  have hformIds : p.forms.flatMap (Xml.collect identified) = forms.map (.form, ·) := by
    rw [collect_forms hforms hnamed h.forms, List.map_map]
    rfl
  have hformFamily : IsFamily ["form"] forms := by
    constructor
    · have hsub : forms.Sublist (g.keys.map ("form_" ++ ·)) := by
        rw [← hwell.map_display, List.map_map]
        exact List.filter_sublist.map _
      exact hsub.nodup (hwell.nodup.map fun a b hab => (String.append_right_inj _).mp hab)
    · intro id hid
      obtain ⟨s, _, rfl⟩ := List.mem_map.mp hid
      exact ⟨"form", by simp, by decide, s.id.display, by simp⟩
  rw [(h.ids_perm hd hl hformIds).nodup_iff, ← elements_suffix_free_iff hwell,
    ← lanes_suffix_free_iff, ← hids]
  constructor
  · intro hnodup
    have hgroup := (List.nodup_flatMap.mp hnodup).1
    constructor
    · have helements := hgroup (marks, withSuffixed (p.ids.map (·.2))) (by simp [idGroups])
      exact (nodup_append_suffix hd.isFamily.1).mp helements
    · have hlanes := hgroup (["Lane"], withSuffixed (p.layout.bands.map (·.lane.id)))
        (by simp [idGroups])
      exact (nodup_append_suffix hl.lanes).mp hlanes
  · rintro ⟨helements, hlanes⟩
    have hparticipant : IsFamily ["Participant"] ["Participant_1"] :=
      isFamily_singleton "1" (by decide) (by decide)
    have hstart : IsFamily ["StartEvent"] [startEventId] :=
      isFamily_singleton "1" (by decide) (by decide)
    exact nodup_idGroups _ (hparticipant.append_suffix (by decide))
      ((isFamily_lanes hl).append_suffix hlanes) (hstart.append_suffix (by decide))
      (hd.isFamily.append_suffix helements)
      ((isFamily_flows h.flows).append_suffix (flows_suffix_free h.flows)) hformFamily

/-- In the document of a story all ids differ from each other unless two states of one kind, or two
    lanes, have ids of which one is the other one with the suffix of shapes. -/
theorem ids_nodup_iff {story text : String} (hg : Graph.ofStory story = .ok g)
    (h : document g settings = .ok text) :
    ∃ root layout, definitions g settings = .ok root ∧ text = root.document ∧
      Diagram.layout g settings.geometry settings.defaultLane = .ok layout ∧
      ((root.collect idValues).Nodup ↔ ¬ StatesCollide g ∧ ¬ LanesCollide layout) := by
  obtain ⟨root, hroot, htext⟩ := Except.bind_eq_ok.mp h
  obtain ⟨p, hp, rfl⟩ := parts_of_definitions hroot
  cases htext
  exact ⟨_, p.layout, hroot, rfl, hp.layout,
    hp.nodup_ids_iff (Graph.wellFormed_of_ofStory hg).1 (formsNamed_of_ofStory hg)⟩

theorem statesCollide_iff {pairs : List (Kind × String)}
    (h : g.nodes.map (fun s => (s.body.kind, s.id.display)) = pairs) :
    StatesCollide g ↔ ∃ a ∈ pairs, ∃ b ∈ pairs, a.1 = b.1 ∧ b.2 = a.2 ++ "_di" := by
  subst h
  simp [StatesCollide]

/-- The ids of the document of a story differ from each other. -/
theorem ids_nodup_of_plainStory : ∃ g root,
    Graph.ofStory "Flow: F\nDo: x\nDo: y di" = .ok g ∧ definitions g {} = .ok root ∧
    ¬ StatesCollide g ∧ (root.collect idValues).Nodup := by
  have hmade : (do
      let g ← Graph.ofStory "Flow: F\nDo: x\nDo: y di"
      let layout ← Diagram.layout g {} "System"
      let _ ← definitions g {}
      return (g.nodes.map fun s : State => (s.body.kind, s.id.display),
        layout.bands.map fun band : Diagram.Band => band.lane.id)) =
      .ok ([(Kind.task, "do_x"), (Kind.task, "do_y_di"), (Kind.stop, "end")], ["Lane_system"]) := by
    cbv
  obtain ⟨g, hg, hmade⟩ := Except.bind_eq_ok.mp hmade
  obtain ⟨layout, hlayout, hmade⟩ := Except.bind_eq_ok.mp hmade
  obtain ⟨root, hroot, hmade⟩ := Except.bind_eq_ok.mp hmade
  obtain ⟨hnodes, hlanes⟩ := Prod.mk.inj (Except.ok.inj hmade)
  have hstates : ¬ StatesCollide g := by
    rw [statesCollide_iff hnodes]
    decide
  have hfree : ¬ LanesCollide layout := by
    rw [← lanes_suffix_free_iff, hlanes]
    decide
  have hdocument : document g {} = .ok root.document := by rw [document, hroot]; rfl
  obtain ⟨root', layout', hroot', _, hlayout', hiff⟩ := ids_nodup_iff hg hdocument
  cases hroot.symm.trans hroot'
  cases hlayout.symm.trans hlayout'
  exact ⟨g, root, hg, hroot, hstates, hiff.mpr ⟨hstates, hfree⟩⟩

/-- A story whose second state has the id of the shape of the first one. -/
def doubledStory : String := "Flow: F\nDo: x\nDo: x di"

/-- The document of the story has an id twice. -/
theorem ids_of_doubledStory : ∃ g root, Graph.ofStory doubledStory = .ok g ∧
    definitions g {} = .ok root ∧ ¬ (root.collect idValues).Nodup := by
  have hmade : (do
      let g ← Graph.ofStory doubledStory
      let _ ← definitions g {}
      return g.nodes.map fun s : State => (s.body.kind, s.id.display)) =
      .ok [(Kind.task, "do_x"), (Kind.task, "do_x_di"), (Kind.stop, "end")] := by cbv
  obtain ⟨g, hg, hmade⟩ := Except.bind_eq_ok.mp hmade
  obtain ⟨root, hroot, hmade⟩ := Except.bind_eq_ok.mp hmade
  have hstates : StatesCollide g := by
    rw [statesCollide_iff (Except.ok.inj hmade)]
    decide
  refine ⟨g, root, hg, hroot, fun hnodup => ?_⟩
  obtain ⟨p, hp, rfl⟩ := parts_of_definitions hroot
  have hfree := hp.nodup_ids_iff (Graph.wellFormed_of_ofStory hg).1 (formsNamed_of_ofStory hg)
  exact (hfree.mp hnodup).1 hstates

end Document

end Swimlane.Bpmn
