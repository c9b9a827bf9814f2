import Mathlib
import Swimlane.Proofs.ActingLanes
import Swimlane.Proofs.LegalForms
import Swimlane.Proofs.LegalMarkup
import Swimlane.Proofs.MarkupSafety
import Swimlane.Proofs.Slugs

/-!
# Legal parts of documents

Ids, forms, numbers and the kinds of messages are written in legal characters, whatever the texts
of a graph are.  The names of lanes and elements, the conditions and the assignees are made of these
texts: no illegal character comes into a document that is not in one of them.

## Key results

- `Diagram.keeps_layout`: the names of the lanes
- `Bpmn.keeps_flows`, `Bpmn.keeps_element`: sequence flows and elements
- `Bpmn.Parts.Of.keeps_root`: the texts in a document
-/

namespace Swimlane

open Text

/-! ## Ids -/

namespace Text

theorem all_isXmlChar_append {s t : String} (hs : s.toList.all isXmlChar = true)
    (ht : t.toList.all isXmlChar = true) : (s ++ t).toList.all isXmlChar = true := by
  rw [String.toList_append, List.all_append, hs, ht]
  rfl

theorem all_isXmlChar_of_isIdentifier {s : String} (h : IsIdentifier s) :
    s.toList.all isXmlChar = true :=
  List.all_eq_true.mpr fun c hc => isXmlChar_of_isXmlIdChar (h.chars c hc)

theorem all_isXmlChar_xmlId (s : String) : (xmlId s).toList.all isXmlChar = true :=
  all_isXmlChar_of_isIdentifier (isIdentifier_xmlId s)

theorem all_isXmlChar_numbered {base : String} (h : base.toList.all isXmlChar = true) (n : Nat) :
    (s!"{base}_{n}").toList.all isXmlChar = true := by
  have hdigits : (toString (Int.ofNat n)).toList.all isXmlChar = true :=
    Json.all_isXmlChar_toString (Int.ofNat n)
  have hmark : isXmlChar '_' = true := by decide
  have hlist : (s!"{base}_{n}").toList = base.toList ++ '_' :: Nat.toDigits 10 n := by
    simp [toString, Nat.toList_repr]
  rw [Json.toList_toString_ofNat] at hdigits
  rw [hlist, List.all_append, List.all_cons, h, hmark, hdigits]
  rfl

end Text

/-! ## Lanes -/

namespace Diagram

variable {source : List Char}

/-- The id of a lane is legal, and its name has no illegal characters but those of a text. -/
def Lane.Keeps (source : List Char) (l : Lane) : Prop :=
  l.id.toList.all isXmlChar = true ∧ Within source l.name.toList

theorem all_isXmlChar_laneId (lanes : List Lane) (name : String) :
    (laneId lanes name).toList.all isXmlChar = true := by
  obtain ⟨slug, hslug⟩ : ∃ slug, laneId lanes name =
      Text.fresh ("Lane_" ++ Text.xmlId slug) (lanes.map (·.id)) := ⟨_, rfl⟩
  have hbase : ("Lane_" ++ Text.xmlId slug).toList.all isXmlChar = true :=
    all_isXmlChar_append (by decide) (all_isXmlChar_xmlId slug)
  rw [hslug]
  rcases Text.fresh_eq ("Lane_" ++ Text.xmlId slug) (lanes.map (·.id)) with heq | ⟨m, heq⟩
  · rw [heq]
    exact hbase
  · rw [heq]
    exact all_isXmlChar_numbered hbase m

/-- A state enters a lane. -/
theorem keeps_enter {lanes : List Lane} (h : ∀ l ∈ lanes, l.Keeps source) {name : String}
    (hname : Within source name.toList) (id : Json) :
    ∀ l ∈ (enter name id [] lanes).1, l.Keeps source := by
  intro l hl
  cases enter_cases name id [] lanes with
  | inl hjoins =>
    obtain ⟨front, lane, back, rfl, _, heq⟩ := hjoins
    rw [heq, List.mem_append, List.mem_cons] at hl
    rcases hl with hl | rfl | hl
    · exact h l (by simp [hl])
    · exact h lane (by simp)
    · exact h l (by simp [hl])
  | inr hopens =>
    rw [hopens.2, List.mem_append, List.mem_singleton] at hl
    rcases hl with hl | rfl
    · exact h l hl
    · exact ⟨all_isXmlChar_laneId ([] ++ lanes) name, hname⟩

/-- The lanes of states, by the names of their actors. -/
theorem keeps_enterAll {known : List String} {default : Json} {states : List State}
    (hname : ∀ s ∈ states, ∀ name, nameOf known default s = .ok name → Within source name.toList)
    {a a' : Assignment} (h : ∀ l ∈ a.1, l.Keeps source)
    (he : enterAll known default a states = .ok a') : ∀ l ∈ a'.1, l.Keeps source := by
  induction states generalizing a with
  | nil => cases he; exact h
  | cons s rest ih =>
    rw [enterAll] at he
    obtain ⟨actor, hactor, he⟩ := Except.bind_eq_ok.mp he
    have hlane := hname s List.mem_cons_self (laneName default actor) (by rw [nameOf, hactor]; rfl)
    cases hid : s.id.isName with
    | false => simp only [hid] at he; cases he
    | true =>
      simp only [hid] at he
      exact ih (fun t ht => hname t (List.mem_cons_of_mem _ ht)) (keeps_enter h hlane s.id) he

end Diagram

/-! ## States -/

/-- The texts of a state that are shown. -/
def State.shown (s : State) : List String :=
  match s.body with
  | .userTask prompt assignee _ => [prompt.display, assignee.display]
  | .task action => [action.display]
  | .choice branches _ => branches.items.map (·.condition.display)
  | .send _ recipient message => [message.display, recipient.display]
  | .stop reason => [reason.display]

/-- The texts of a graph have no illegal characters but those of another text; its ids and its forms
    have none. -/
structure Graph.Keeps (source : List Char) (g : Graph) : Prop where
  name : Within source g.name.toList
  states : ∀ s ∈ g.nodes, ∀ t ∈ s.shown, Within source t.toList
  ids : ∀ s ∈ g.nodes, s.id.display.toList.all isXmlChar = true
  forms : ∀ s ∈ g.nodes, ∀ f, s.form? = some (.ok f) → f.toJson.isXml = true

namespace Diagram

variable {source : List Char}

theorem within_laneName {default actor : String} (h : Within source actor.toList) :
    Within source (laneName (.str default) actor).toList := by
  rw [laneName]
  split
  · exact h
  · exact h.label

/-- The actors that are asked. -/
theorem within_askedActors {states : List State}
    (h : ∀ s ∈ states, ∀ t ∈ s.shown, Within source t.toList) {actors : List String}
    (hactors : askedActors states = .ok actors) : ∀ t ∈ actors, Within source t.toList := by
  induction states generalizing actors with
  | nil => cases hactors; exact fun _ ht => absurd ht List.not_mem_nil
  | cons s rest ih =>
    obtain ⟨hs, hrest⟩ := List.forall_mem_cons.mp h
    rw [askedActors] at hactors
    cases hbody : s.body with
    | userTask prompt assignee form =>
      simp only [hbody] at hactors
      split at hactors
      · obtain ⟨actor, hactor, hactors⟩ := Except.bind_eq_ok.mp hactors
        obtain ⟨more, hmore, hactors⟩ := Except.bind_eq_ok.mp hactors
        rw [← Except.ok.inj hactors]
        refine List.forall_mem_cons.mpr ⟨?_, ih hrest hmore⟩
        have hassignee : Within source assignee.display.toList :=
          hs _ (by simp [State.shown, hbody])
        rw [Bpmn.asText_eq_ok hactor] at hassignee
        rw [lowered, String.toList_ofList]
        exact (Placeholder.within_unbraced hassignee).lower
      · exact ih hrest hactors
    | _ =>
      simp only [hbody] at hactors
      exact ih hrest hactors

/-- The name of the lane of a state. -/
theorem within_nameOf {known : List String} (hknown : ∀ t ∈ known, Within source t.toList)
    {default : String} (hdefault : default.toList.all isXmlChar = true) {s : State}
    (hs : ∀ t ∈ s.shown, Within source t.toList) {name : String}
    (h : nameOf known (.str default) s = .ok name) : Within source name.toList := by
  obtain ⟨actor, hactor, rfl⟩ := Except.map_eq_ok.mp h
  refine within_laneName ?_
  have hown : Within source default.toList := .of_all hdefault
  rw [actorOf] at hactor
  cases hbody : s.body with
  | userTask prompt assignee form =>
    simp only [hbody] at hactor
    obtain ⟨text, htext, hactor⟩ := Except.bind_eq_ok.mp hactor
    have hassignee : Within source assignee.display.toList := hs _ (by simp [State.shown, hbody])
    rw [Bpmn.asText_eq_ok htext] at hassignee
    split at hactor
    · rw [← Except.ok.inj hactor]
      exact hown
    · rw [← Except.ok.inj hactor]
      exact Placeholder.within_unbraced hassignee
  | task action =>
    simp only [hbody] at hactor
    obtain ⟨text, _, hactor⟩ := Except.bind_eq_ok.mp hactor
    split at hactor
    · rename_i hword
      rw [← Except.ok.inj hactor]
      exact hknown _ (List.contains_iff_mem.mp hword)
    · rw [← Except.ok.inj hactor]
      exact hown
  | _ =>
    simp only [hbody] at hactor
    rw [← Except.ok.inj hactor]
    exact hown

end Diagram

namespace Diagram

variable {source : List Char}

/-- The lanes in a layout. -/
theorem keeps_layout {g : Graph} (hg : g.Keeps source) {geometry : Geometry} {default : String}
    (hdefault : default.toList.all isXmlChar = true) {l : Layout}
    (h : layout g geometry default = .ok l) : ∀ band ∈ l.bands, band.lane.Keeps source := by
  obtain ⟨⟨lanes, places⟩, hplaces, h⟩ := Except.bind_eq_ok.mp h
  obtain ⟨nodes, _, h⟩ := Except.bind_eq_ok.mp (Except.mapError_eq_ok.mp h)
  obtain ⟨⟨a, hlanes, rfl⟩, _, _⟩ := placesOf_eq_ok hplaces
  obtain ⟨actors, hactors, henter⟩ := Except.bind_eq_ok.mp hlanes
  -- An actor is known by a fixed name, or is asked somewhere in the graph.
  have hknown : ∀ t ∈ knownActors ++ actors, Within source t.toList := by
    have hfixed : (knownActors.all fun t => t.toList.all isXmlChar) = true := by decide +kernel
    rw [List.forall_mem_append]
    exact ⟨fun t ht => .of_all (List.all_eq_true.mp hfixed t ht),
      within_askedActors hg.states hactors⟩
  have hkeeps : ∀ lane ∈ a.1, lane.Keeps source :=
    keeps_enterAll (fun s hs name hname => within_nameOf hknown hdefault (hg.states s hs) hname)
      (List.forall_mem_nil _) henter
  have hbands : (bandsOf geometry a.1 places).map (·.lane) = a.1 := stack_lanes
  cases h
  intro band hband
  refine hkeeps band.lane ?_
  rw [← hbands]
  exact List.mem_map_of_mem hband

end Diagram

namespace Bpmn

variable {source : List Char} {g : Graph} {settings : Settings} {ids : List (String × String)}
  {fs : List SequenceFlow} {p : Parts}

theorem all_isXmlChar_idOf (hd : Distinct g ids) (id : Json) :
    (idOf ids id).toList.all isXmlChar = true := by
  rw [idOf]
  cases hget : Assoc.get? id.display ids with
  | none => rfl
  | some element =>
    obtain ⟨kind, hkind⟩ := hd.kinds (id.display, element) (Assoc.mem_of_get? hget)
    replace hkind : element = elementId kind id.display := hkind
    have hmark : (markOf kind).toList.all isXmlChar = true := by cases kind <;> decide
    rw [Option.getD_some, hkind]
    exact all_isXmlChar_append (all_isXmlChar_append hmark (by decide)) (all_isXmlChar_xmlId _)

/-- A sequence flow has legal ids, and its name and its condition have no illegal characters but
    those of a text. -/
structure SequenceFlow.Keeps (source : List Char) (f : SequenceFlow) : Prop where
  id : f.id.toList.all isXmlChar = true
  ends : f.source.toList.all isXmlChar = true ∧ f.target.toList.all isXmlChar = true
  name : Within source f.name.toList
  condition : ∀ c, f.condition = some c → Within source c.toList

/-- The sequence flow of an edge. -/
theorem Edge.keeps_flow (hd : Distinct g ids) {e : Edge}
    (hsource : e.source.toList.all isXmlChar = true)
    (hcondition : ∀ c, e.condition = some c → Within source c.display.toList) (number : Nat) :
    (e.flow ids number).Keeps source where
  id := by
    have hflow : "Flow".toList.all isXmlChar = true := by decide
    exact all_isXmlChar_numbered hflow number
  ends := ⟨hsource, all_isXmlChar_idOf hd e.target⟩
  name := by
    change Within source (if e.isDefault then "Otherwise" else
      (e.condition.map Json.display).getD "").toList
    split
    · exact .of_all (by decide)
    · cases hc : e.condition with
      | none => exact within_nil
      | some c => exact hcondition c hc
  condition := by
    intro expression hexpression
    obtain ⟨c, hc, rfl⟩ := Option.map_eq_some_iff.mp hexpression
    exact within_conditionExpression (hcondition c hc)

/-- An edge of a state starts there, and its condition is shown in the state. -/
theorem mem_edgesOf {start : String} {s : State} {e : Edge} (h : e ∈ edgesOf start s) :
    e.source = start ∧ ∀ c, e.condition = some c → c.display ∈ s.shown := by
  unfold edgesOf at h
  unfold State.shown
  -- Only the edges to the branches of a choice have conditions.
  cases hbody : s.body with
  | choice branches otherwise =>
    simp only [hbody, List.mem_append] at h
    rcases h with h | h
    · obtain ⟨b, hb, rfl⟩ := List.mem_map.mp h
      refine ⟨rfl, fun c hc => ?_⟩
      cases hc
      exact List.mem_map_of_mem hb
    · split at h
      · rw [List.mem_singleton.mp h]
        exact ⟨rfl, fun c hc => by cases hc⟩
      · exact absurd h List.not_mem_nil
  | stop reason =>
    simp only [hbody] at h
    exact absurd h List.not_mem_nil
  | _ =>
    simp only [hbody] at h
    split at h
    · rw [List.mem_singleton.mp h]
      exact ⟨rfl, fun c hc => by cases hc⟩
    · exact absurd h List.not_mem_nil

theorem keeps_flows (hg : g.Keeps source) (hd : Distinct g ids) (h : flows g ids = .ok fs) :
    ∀ f ∈ fs, f.Keeps source := by
  intro f hf
  rw [flows_eq_ok h] at hf
  obtain ⟨⟨e, n⟩, he, rfl⟩ := List.mem_map.mp hf
  -- The first edge leads from the start event, every other one from a state.
  rcases List.mem_cons.mp (List.fst_mem_of_mem_zipIdx he) with heq | hmem
  · have hstart : startEventId.toList.all isXmlChar = true := by decide
    refine Edge.keeps_flow hd ?_ ?_ n
    · rwa [heq]
    · rw [heq]
      exact fun c hc => by cases hc
  · obtain ⟨s, hs, hmem⟩ := List.mem_flatMap.mp hmem
    obtain ⟨hsource, hcondition⟩ := mem_edgesOf hmem
    refine Edge.keeps_flow hd ?_ (fun c hc => hg.states s hs _ (hcondition c hc)) n
    rw [hsource]
    exact all_isXmlChar_idOf hd s.id

/-! ### Elements -/

theorem keeps_incoming (hf : ∀ f ∈ fs, f.Keeps source) (id : String) :
    ∀ x ∈ incoming fs id, x.Keeps source := by
  intro x hx
  obtain ⟨f, hmem, rfl⟩ := List.mem_map.mp hx
  exact Xml.keeps_text.mpr ⟨by simp, .of_all (hf f (List.mem_of_mem_filter hmem)).id⟩

theorem keeps_outgoing (hf : ∀ f ∈ fs, f.Keeps source) (id : String) :
    ∀ x ∈ outgoing fs id, x.Keeps source := by
  intro x hx
  obtain ⟨f, hmem, rfl⟩ := List.mem_map.mp hx
  exact Xml.keeps_text.mpr ⟨by simp, .of_all (hf f (List.mem_of_mem_filter hmem)).id⟩

theorem keeps_flowElement {f : SequenceFlow} (hf : f.Keeps source) :
    (flowElement f).Keeps source := by
  have hattributes : ∀ a ∈ [("id", f.id), ("sourceRef", f.source), ("targetRef", f.target)] ++
      (if f.name = "" then [] else [("name", f.name)]), Within source a.2.toList := by
    have hname : ∀ a ∈ (if f.name = "" then [] else [("name", f.name)]),
        Within source a.2.toList := by
      split
      · exact List.forall_mem_nil _
      · exact List.forall_mem_singleton.mpr hf.name
    simp only [List.forall_mem_append, List.forall_mem_cons]
    exact ⟨⟨.of_all hf.id, .of_all hf.ends.1, .of_all hf.ends.2,
      List.forall_mem_nil _⟩, hname⟩
  rw [flowElement]
  split
  · exact Xml.keeps_leaf.mpr hattributes
  · rename_i condition hcondition
    refine Xml.keeps_block.mpr ⟨hattributes, List.forall_mem_singleton.mpr ?_⟩
    have htype : Within source "bpmn:tFormalExpression".toList := .of_all (by decide)
    exact Xml.keeps_text.mpr ⟨List.forall_mem_singleton.mpr htype,
      hf.condition condition hcondition⟩

/-- The name of an element. -/
theorem within_caption {s : State} (hs : ∀ t ∈ s.shown, Within source t.toList) :
    ∀ name ∈ caption s, Within source name.toList := by
  have hgiven : ∀ v : Json, Within source v.display.toList →
      ∀ name ∈ v.given?, Within source name.toList := by
    intro v hv name hname
    rw [Json.given?] at hname
    split at hname
    · rwa [← Option.some.inj hname]
    · cases hname
  intro name hname
  unfold caption at hname
  unfold State.shown at hs
  cases hbody : s.body with
  | userTask prompt assignee form =>
    simp only [hbody] at hname hs
    exact hgiven prompt (hs _ (by simp)) name hname
  | task action =>
    simp only [hbody] at hname hs
    exact hgiven action (hs _ (by simp)) name hname
  | choice branches otherwise =>
    simp only [hbody] at hname hs
    obtain ⟨b, hb, rfl⟩ := Option.map_eq_some_iff.mp hname
    rw [String.toList_append]
    exact within_append.mpr
      ⟨hs _ (List.mem_map_of_mem (List.mem_of_mem_head? hb)), .of_all (by decide)⟩
  | send channel recipient message =>
    simp only [hbody] at hname hs
    rw [← Option.some.inj hname, String.toList_append]
    exact within_append.mpr ⟨.of_all (by decide), hs _ (by simp)⟩
  | stop reason =>
    simp only [hbody] at hname hs
    rw [← Option.some.inj hname]
    cases hreason : reason.given? with
    | none => exact .of_all (by decide)
    | some text => exact hgiven reason (hs _ (by simp)) text hreason

theorem all_isXmlChar_channelType (channel : String) :
    (channelType channel).toList.all isXmlChar = true := by
  unfold channelType
  split
  · decide
  · rename_i hne
    rcases isSlug_slugWithin 40 channel with hnil | hslug
    · exact absurd (String.toList_eq_nil_iff.mp hnil) hne
    · exact all_isXmlChar_append (by decide) (all_isXmlChar_of_isIdentifier hslug.isIdentifier)

theorem keeps_extension {children : List Xml} (h : ∀ x ∈ children, x.Keeps source) :
    (extension children).Keeps source :=
  Xml.keeps_block.mpr ⟨List.forall_mem_nil _, h⟩

theorem keeps_taskDefinition {type : String} (h : type.toList.all isXmlChar = true) :
    (taskDefinition type).Keeps source :=
  Xml.keeps_leaf.mpr (List.forall_mem_singleton.mpr (.of_all h))

theorem keeps_assignment {assignee : Json} (hassignee : Within source assignee.display.toList)
    {assigned : List Xml} (h : assignment assignee = .ok assigned) :
    ∀ x ∈ assigned, x.Keeps source := by
  unfold assignment at h
  split at h
  · obtain ⟨name, hname, h⟩ := Except.bind_eq_ok.mp h
    rw [asSearchable_eq_ok hname] at hassignee
    cases h
    exact List.forall_mem_singleton.mpr (Xml.keeps_leaf.mpr
      (List.forall_mem_singleton.mpr (within_assigneeExpression hassignee)))
  · cases h
    exact List.forall_mem_nil _

theorem keeps_formDefinition {form : Option (Except Misfit Form)} {formed : List Xml}
    (h : formDefinition form = .ok formed) : ∀ x ∈ formed, x.Keeps source := by
  cases form with
  | none => cases h; exact List.forall_mem_nil _
  | some form =>
    obtain ⟨f, _, h⟩ := Except.bind_eq_ok.mp h
    obtain ⟨id, hid, h⟩ := Except.bind_eq_ok.mp h
    cases h
    refine List.forall_mem_singleton.mpr (Xml.keeps_leaf.mpr (List.forall_mem_singleton.mpr ?_))
    rw [formId_eq_ok hid]
    exact .of_all (all_isXmlChar_append (by decide) (all_isXmlChar_xmlId _))

/-- To whom something is sent, and what. -/
theorem toList_sending (recipient message : String) : (s!"To {recipient}: {message}").toList =
    "To ".toList ++ recipient.toList ++ ": ".toList ++ message.toList := by
  simp [toString]

/-- What stands in an element. -/
theorem keeps_body {s : State} (hs : ∀ t ∈ s.shown, Within source t.toList)
    (hid : s.id.display.toList.all isXmlChar = true) {body : List Xml}
    (h : elementBody s = .ok body) : ∀ x ∈ body, x.Keeps source := by
  unfold elementBody at h
  unfold State.shown at hs
  cases hbody : s.body with
  | send channel recipient message =>
    simp only [hbody] at h hs
    obtain ⟨text, _, h⟩ := Except.bind_eq_ok.mp h
    cases h
    have hmessage := hs message.display (by simp)
    have hrecipient := hs recipient.display (by simp)
    have hnote : Within source
        (s!"To {recipient.display}: {message.display}").toList := by
      rw [toList_sending, within_append, within_append, within_append]
      exact ⟨⟨⟨.of_all (by decide), hrecipient⟩, .of_all (by decide)⟩, hmessage⟩
    refine List.forall_mem_cons.mpr ⟨Xml.keeps_text.mpr ⟨by simp, hnote⟩, ?_⟩
    exact List.forall_mem_singleton.mpr (keeps_extension (List.forall_mem_singleton.mpr
      (keeps_taskDefinition (all_isXmlChar_channelType text))))
  | task action =>
    simp only [hbody] at h
    cases h
    exact List.forall_mem_singleton.mpr (keeps_extension (List.forall_mem_singleton.mpr
      (keeps_taskDefinition hid)))
  | userTask prompt assignee form =>
    simp only [hbody] at h hs
    obtain ⟨assigned, hassigned, h⟩ := Except.bind_eq_ok.mp h
    obtain ⟨formed, hformed, h⟩ := Except.bind_eq_ok.mp h
    -- There is no extension around nothing.
    have hboth : ∀ x ∈ assigned ++ formed, x.Keeps source := by
      rw [List.forall_mem_append]
      exact ⟨keeps_assignment (hs _ (by simp)) hassigned, keeps_formDefinition hformed⟩
    split at h
    · cases h
      exact List.forall_mem_nil _
    · cases h
      exact List.forall_mem_singleton.mpr (keeps_extension hboth)
  | _ =>
    simp only [hbody] at h
    cases h
    exact List.forall_mem_nil _

/-- The element of a state. -/
theorem keeps_element (hd : Distinct g ids) (hf : ∀ f ∈ fs, f.Keeps source) {s : State}
    (hs : ∀ t ∈ s.shown, Within source t.toList) (hid : s.id.display.toList.all isXmlChar = true)
    {x : Xml} (h : element ids fs s = .ok x) : x.Keeps source := by
  obtain ⟨kind, name, body, _, hname, hbody, rfl⟩ := element_eq_ok h
  -- The name is the caption of the state; the other attributes are ids.
  have hnamed : ∀ a ∈ name, Within source a.2.toList := by
    rcases nameAttribute_eq_ok hname with ⟨_, rfl⟩ | ⟨text, htext, hgiven, rfl⟩
    · exact List.forall_mem_nil _
    · have hcaption : caption s = some text := by
        rw [← given?_elementName, given?_of_isGiven htext hgiven]
      exact List.forall_mem_singleton.mpr (within_caption hs text hcaption)
  have hdefault : ∀ a ∈ defaultAttribute fs (idOf ids s.id), Within source a.2.toList := by
    unfold defaultAttribute
    split
    · rename_i flow hflow
      obtain ⟨f, hfind, rfl⟩ := Option.map_eq_some_iff.mp hflow
      have hmem : f ∈ fs := List.mem_reverse.mp (List.mem_of_find?_eq_some hfind)
      exact List.forall_mem_singleton.mpr (.of_all (hf f hmem).id)
    · exact List.forall_mem_nil _
  have hend : ∀ x ∈ terminator s, x.Keeps source := by
    unfold terminator
    split
    · exact List.forall_mem_singleton.mpr
        (Xml.keeps_leaf.mpr (List.forall_mem_nil _))
    · exact List.forall_mem_nil _
  refine Xml.keeps_block.mpr ⟨?_, ?_⟩
  · simp only [List.forall_mem_append, List.forall_mem_singleton]
    exact ⟨⟨.of_all (all_isXmlChar_idOf hd s.id), hnamed⟩, hdefault⟩
  · simp only [List.forall_mem_append]
    exact ⟨⟨⟨keeps_body hs hid hbody, keeps_incoming hf _⟩, keeps_outgoing hf _⟩, hend⟩

/-! ### Lanes -/

theorem all_isXmlChar_startEventId : startEventId.toList.all isXmlChar = true := by decide

theorem keeps_laneSet (hd : Distinct g ids) {layout : Diagram.Layout}
    (h : ∀ band ∈ layout.bands, band.lane.Keeps source) : (laneSet layout ids).Keeps source := by
  rw [laneSet_eq]
  refine Xml.keeps_block.mpr ⟨List.forall_mem_singleton.mpr (.of_all (by decide)), ?_⟩
  refine List.forall_mem_map.mpr fun band hband => Xml.keeps_block.mpr ⟨?_, ?_⟩
  · simp only [List.forall_mem_cons]
    exact ⟨.of_all (h band hband).1, (h band hband).2, List.forall_mem_nil _⟩
  · refine List.forall_mem_map.mpr fun id hid => Xml.keeps_text.mpr ⟨by simp, .of_all ?_⟩
    unfold members at hid
    rcases List.mem_append.mp hid with hid | hid
    · split at hid
      · rw [List.mem_singleton.mp hid]
        exact all_isXmlChar_startEventId
      · exact absurd hid List.not_mem_nil
    · obtain ⟨key, _, rfl⟩ := List.mem_map.mp hid
      exact all_isXmlChar_idOf hd key

/-! ### Drawings -/

theorem within_numeral {n : Int} {text : String} (h : numeral n = .ok text) :
    Within source text.toList := by
  unfold numeral at h
  split at h
  · rw [← Except.ok.inj h]
    exact .of_all (Json.all_isXmlChar_toString n)
  · cases h

theorem keeps_shape {id : String} (hid : id.toList.all isXmlChar = true)
    {attributes : List (String × String)} (ha : ∀ a ∈ attributes, Within source a.2.toList)
    {b : Diagram.Bounds} {x : Xml} (h : shape id attributes b = .ok x) : x.Keeps source := by
  obtain ⟨bounds, hbounds, h⟩ := Except.bind_eq_ok.mp h
  obtain ⟨left, hleft, hbounds⟩ := Except.bind_eq_ok.mp hbounds
  obtain ⟨top, htop, hbounds⟩ := Except.bind_eq_ok.mp hbounds
  obtain ⟨width, hwidth, hbounds⟩ := Except.bind_eq_ok.mp hbounds
  obtain ⟨height, hheight, hbounds⟩ := Except.bind_eq_ok.mp hbounds
  cases hbounds
  cases h
  refine Xml.keeps_block.mpr ⟨?_, List.forall_mem_singleton.mpr (Xml.keeps_leaf.mpr ?_)⟩
  · simp only [List.forall_mem_append, List.forall_mem_cons]
    exact ⟨⟨.of_all (all_isXmlChar_append hid (by decide)), .of_all hid,
      List.forall_mem_nil _⟩, ha⟩
  · simp only [List.forall_mem_cons]
    exact ⟨within_numeral hleft, within_numeral htop, within_numeral hwidth,
      within_numeral hheight, List.forall_mem_nil _⟩

theorem keeps_flowLine {nodes : List (String × Diagram.Node)} {f : SequenceFlow}
    (hf : f.Keeps source) {x : Xml} (h : flowLine nodes f = .ok x) : x.Keeps source := by
  obtain ⟨waypoints, hwaypoints, h⟩ := Except.bind_eq_ok.mp h
  cases h
  refine Xml.keeps_block.mpr ⟨?_, fun x hx => ?_⟩
  · simp only [List.forall_mem_cons]
    exact ⟨.of_all (all_isXmlChar_append hf.id (by decide)), .of_all hf.id,
      List.forall_mem_nil _⟩
  · obtain ⟨point, _, hpoint⟩ := Except.exists_of_mem_mapM hwaypoints hx
    obtain ⟨left, hleft, hpoint⟩ := Except.bind_eq_ok.mp hpoint
    obtain ⟨top, htop, hpoint⟩ := Except.bind_eq_ok.mp hpoint
    cases hpoint
    refine Xml.keeps_leaf.mpr ?_
    simp only [List.forall_mem_cons]
    exact ⟨within_numeral hleft, within_numeral htop, List.forall_mem_nil _⟩

/-- The nodes of a layout stand under legal ids. -/
theorem all_isXmlChar_placed (hd : Distinct g ids) {layout : Diagram.Layout}
    {node : String × Diagram.Node} (h : node ∈ placed layout ids) :
    node.1.toList.all isXmlChar = true := by
  obtain ⟨entry, hentry, hnode⟩ := List.mem_filterMap.mp h
  obtain ⟨found, _, rfl⟩ := Option.map_eq_some_iff.mp hnode
  rcases List.mem_cons.mp hentry with rfl | hentry
  · exact all_isXmlChar_startEventId
  · obtain ⟨key, hkey, rfl⟩ := List.mem_map.mp hentry
    change key.2.toList.all isXmlChar = true
    rw [← hd.idOf_key hkey]
    exact all_isXmlChar_idOf hd _

theorem Parts.Of.keeps_drawing (h : p.Of g settings) (hd : Distinct g p.ids)
    (hbands : ∀ band ∈ p.layout.bands, band.lane.Keeps source)
    (hf : ∀ f ∈ p.flows, f.Keeps source) :
    ∀ x ∈ p.pool :: p.bands ++ p.shapes ++ p.lines, x.Keeps source := by
  have htrue : Within source "true".toList := .of_all (by decide)
  intro x hx
  rcases List.mem_append.mp hx with hx | hx
  · rcases List.mem_append.mp hx with hx | hx
    · rcases List.mem_cons.mp hx with rfl | hx
      · exact keeps_shape (by decide) (List.forall_mem_singleton.mpr htrue) h.pool
      · obtain ⟨band, hband, hx⟩ := Except.exists_of_mem_mapM h.bands hx
        exact keeps_shape (hbands band hband).1 (List.forall_mem_singleton.mpr htrue) hx
    · obtain ⟨node, hnode, hx⟩ := Except.exists_of_mem_mapM h.shapes hx
      refine keeps_shape (all_isXmlChar_placed hd hnode) ?_ hx
      split
      · exact List.forall_mem_singleton.mpr htrue
      · exact List.forall_mem_nil _
  · obtain ⟨f, hmem, hx⟩ := Except.exists_of_mem_mapM h.lines hx
    exact keeps_flowLine (hf f hmem) hx

/-! ### Documents -/

theorem Parts.Of.keeps_formBlock (h : p.Of g settings) (hg : g.Keeps source) :
    p.formBlock.Keeps source := by
  refine Xml.keeps_block.mpr ⟨List.forall_mem_nil _, ?_⟩
  refine List.forall_mem_cons.mpr ⟨?_, ?_⟩
  · exact Xml.keeps_leaf.mpr (List.forall_mem_singleton.mpr (.of_all (by decide)))
  · obtain ⟨forms, hasked, hforms⟩ := forms_eq_ok h.forms
    rw [hforms]
    refine List.forall_mem_map.mpr fun f hf => Xml.keeps_text.mpr ⟨?_, ?_⟩
    · exact List.forall_mem_singleton.mpr (.of_all (all_isXmlChar_xmlId _))
    · -- Every form that is written is the form of a state.
      have hmem : Except.ok f ∈ g.nodes.filterMap (·.form?) := by
        rw [hasked]
        exact List.mem_map_of_mem hf
      obtain ⟨s, hs, hform⟩ := List.mem_filterMap.mp hmem
      exact .of_all (Json.all_isXmlChar_dense (hg.forms s hs f hform))

theorem all_isXmlChar_processId (g : Graph) :
    (Parts.processId g).toList.all isXmlChar = true :=
  all_isXmlChar_append (by decide) (all_isXmlChar_xmlId _)

theorem within_definitionsAttributes (name : String) :
    ∀ a ∈ definitionsAttributes (flowSlug name), Within source a.2.toList := by
  have hid : ("Definitions_" ++ flowSlug name).toList.all isXmlChar = true :=
    all_isXmlChar_append (by decide) (all_isXmlChar_xmlId _)
  -- The others do not depend on the name of the flow.
  have hfixed : ((definitionsAttributes "").all fun a => a.2.toList.all isXmlChar) = true := by
    decide +kernel
  have hset : definitionsAttributes (flowSlug name) =
      (definitionsAttributes "").set 7 ("id", "Definitions_" ++ flowSlug name) := rfl
  intro a ha
  rw [hset] at ha
  rcases List.mem_or_eq_of_mem_set ha with ha | rfl
  · exact .of_all (List.all_eq_true.mp hfixed a ha)
  · exact .of_all hid

theorem keeps_collaboration (hg : g.Keeps source) : (Parts.collaboration g).Keeps source := by
  refine Xml.keeps_block.mpr ⟨List.forall_mem_singleton.mpr (.of_all (by decide)), ?_⟩
  refine List.forall_mem_singleton.mpr (Xml.keeps_leaf.mpr ?_)
  simp only [List.forall_mem_cons]
  exact ⟨.of_all (by decide), hg.name, .of_all (all_isXmlChar_processId g), List.forall_mem_nil _⟩

theorem keeps_startEvent (hf : ∀ f ∈ fs, f.Keeps source) : (startEvent fs).Keeps source := by
  refine Xml.keeps_block.mpr ⟨?_, keeps_outgoing hf _⟩
  simp only [List.forall_mem_cons]
  exact ⟨.of_all all_isXmlChar_startEventId, .of_all (by decide), List.forall_mem_nil _⟩

theorem Parts.Of.keeps_process (h : p.Of g settings) (hg : g.Keeps source) (hd : Distinct g p.ids)
    (hbands : ∀ band ∈ p.layout.bands, band.lane.Keeps source)
    (hf : ∀ f ∈ p.flows, f.Keeps source) : (p.process g settings).Keeps source := by
  have hexecutable : (if settings.executable then "true" else "false").toList.all isXmlChar =
      true := by
    split <;> decide
  have helements : ∀ x ∈ p.elements, x.Keeps source := by
    intro x hx
    obtain ⟨s, hs, hx⟩ := Except.exists_of_mem_mapM h.elements hx
    exact keeps_element hd hf (hg.states s hs) (hg.ids s hs) hx
  refine Xml.keeps_block.mpr ⟨?_, ?_⟩
  · simp only [List.forall_mem_cons]
    exact ⟨.of_all (all_isXmlChar_processId g), hg.name, .of_all hexecutable,
      List.forall_mem_nil _⟩
  · simp only [List.forall_mem_append, List.forall_mem_cons]
    exact ⟨⟨⟨h.keeps_formBlock hg, keeps_laneSet hd hbands, keeps_startEvent hf,
      List.forall_mem_nil _⟩, helements⟩,
      List.forall_mem_map.mpr fun f hmem => keeps_flowElement (hf f hmem)⟩

theorem Parts.Of.keeps_diagram (h : p.Of g settings) (hd : Distinct g p.ids)
    (hbands : ∀ band ∈ p.layout.bands, band.lane.Keeps source)
    (hf : ∀ f ∈ p.flows, f.Keeps source) : p.diagram.Keeps source := by
  refine Xml.keeps_block.mpr ⟨List.forall_mem_singleton.mpr (.of_all (by decide)), ?_⟩
  refine List.forall_mem_singleton.mpr (Xml.keeps_block.mpr ⟨?_, h.keeps_drawing hd hbands hf⟩)
  simp only [List.forall_mem_cons]
  exact ⟨.of_all (by decide), .of_all (by decide), List.forall_mem_nil _⟩

/-- No text of a document has illegal characters but those of the texts of its graph. -/
theorem Parts.Of.keeps_root (h : p.Of g settings) (hg : g.Keeps source) (hd : Distinct g p.ids)
    (hlane : settings.defaultLane.toList.all isXmlChar = true) :
    (p.root g settings).Keeps source := by
  have hbands := Diagram.keeps_layout hg hlane h.layout
  have hf := keeps_flows hg hd h.flows
  refine Xml.keeps_block.mpr ⟨within_definitionsAttributes g.name, ?_⟩
  simp only [List.forall_mem_cons]
  exact ⟨keeps_collaboration hg, h.keeps_process hg hd hbands hf, h.keeps_diagram hd hbands hf,
    List.forall_mem_nil _⟩

end Bpmn

end Swimlane
