import Mathlib
import Swimlane.Proofs.LegalParts
import Swimlane.Proofs.StatementTexts

/-!
# Legal documents

Texts are written with entities for markup characters, and nothing else is changed in them.  So a
control character in the text of a statement comes into the document of its story, where no XML
reader takes it.  This is the only way: the illegal characters of a document are those of the texts
of the statements, and a story in which every illegal character ends a line has a legal document.

## Key results

- `Graph.keeps_of_ofStory`: the texts in the graph of a story come from its statements
- `Bpmn.TextsKept.exists_of_matches`: the texts of a statement are in the document
- `Bpmn.illegal_mem_document_iff`: the illegal characters in the document of a story
-/

namespace Swimlane

open Text

/-! ## Stories -/

namespace Story

/-- The characters of the texts of statements. -/
def textChars (statements : List Statement) : List Char :=
  (preorderAll statements).flatMap fun t => t.parts.flatMap String.toList

theorem mem_textChars {statements : List Statement} {c : Char} :
    c ∈ textChars statements ↔
      ∃ t ∈ preorderAll statements, ∃ part ∈ t.parts, c ∈ part.toList := by
  simp [textChars]

theorem within_textChars {statements : List Statement} {t : Statement}
    (ht : t ∈ preorderAll statements) {part : String} (hpart : part ∈ t.parts) :
    Within (textChars statements) part.toList :=
  fun _ hc => Or.inr (mem_textChars.mpr ⟨t, ht, part, hpart, hc⟩)

end Story

@[simp] theorem State.formed_shown (s : State) : s.formed.shown = s.shown := by
  obtain ⟨id, label, body, next⟩ := s; cases body <;> rfl

/-- The form that a state gets is legal if its id is. -/
theorem State.isXml_formed {s : State} (hid : s.id.display.toList.all isXmlChar = true) {f : Form}
    (h : s.formed.form? = some (.ok f)) : f.toJson.isXml = true := by
  obtain ⟨id, label, body, next⟩ := s
  cases body with
  | userTask prompt assignee form =>
    obtain ⟨found, hfound, heq⟩ := Option.map_eq_some_iff.mp h
    cases heq
    exact Form.isXml_infer? hid hfound
  | _ => cases h

/-- What a state shows is what its statement says. -/
theorem Story.Statement.Matches.within_shown {source : List Char} {t : Statement} {s : State}
    (h : t.Matches s) {ls : List Line} (hstands : t.Stands ls)
    (hparts : ∀ part ∈ t.parts, Within source part.toList) :
    ∀ text ∈ s.shown, Within source text.toList := by
  unfold State.shown
  cases t with
  | ask src subject prompt =>
    rw [show s.body = _ from h]
    have hprompt : Within source prompt.toList := hparts _ (by simp [parts])
    -- The subject stands at the front of the prompt.
    have hsubject : Within source subject.toList := by
      obtain ⟨l, _, hsays, _⟩ := hstands
      cases hsays with
      | ask _ => exact hprompt.of_subset fun c hc => by simp [hc]
    simpa [Json.display] using ⟨hprompt, hsubject⟩
  | perform src action =>
    rw [show s.body = _ from h]
    simpa [Json.display] using hparts _ (by simp [parts])
  | send src message recipient channel =>
    rw [show s.body = _ from h]
    simpa [parts, Json.display] using hparts
  | stop src reason =>
    rw [show s.body = _ from h]
    simpa [parts, Json.display] using hparts
  | conditional src branches otherwise =>
    obtain ⟨exits, last, hbody, hconditions⟩ := h
    have hshown : exits.map (·.condition.display) = branches.map (·.condition) := by
      simpa [Function.comp_def, Json.display] using congrArg (List.map Json.display) hconditions
    rw [hbody]
    change ∀ text ∈ exits.map (·.condition.display), Within source text.toList
    rw [hshown]
    exact hparts
  | header => exact h.elim
  | foreign => exact h.elim

/-- The texts in the graph of a story come from the story. -/
theorem Graph.keeps_of_ofStory {story : String} {g : Graph} (h : ofStory story = .ok g)
    {statements : List Story.Statement} (hparse : Story.parse story = .ok statements) :
    g.Keeps (Story.textChars statements) := by
  obtain ⟨hwell, _⟩ := wellFormed_of_ofStory h
  obtain ⟨source, body, told, ending, hparse', hmatches, hnodes, hending⟩ := matches_of_ofStory h
  cases hparse.symm.trans hparse'
  have hids : ∀ s ∈ g.nodes, s.id.display.toList.all isXmlChar = true := by
    intro s hs
    have hmem : s.id ∈ g.nodes.map (·.id) := List.mem_map_of_mem hs
    rw [hwell.toKeyed.ids] at hmem
    obtain ⟨key, hkey, hid⟩ := List.mem_map.mp hmem
    rw [← hid]
    exact all_isXmlChar_of_isIdentifier (hwell.named key hkey)
  refine ⟨?_, fun s hs => ?_, hids, fun s hs f hf => ?_⟩
  · exact Story.within_textChars List.mem_cons_self List.mem_cons_self
  · rw [hnodes] at hs
    obtain ⟨u, hu, rfl⟩ := List.mem_map.mp hs
    rw [State.formed_shown]
    rcases List.mem_append.mp hu with hu | hu
    · obtain ⟨t, ht, hmatch⟩ := Story.exists_of_forall₂ hmatches hu
      have hmem : t ∈ Story.preorderAll (.header source g.name :: body) :=
        List.mem_cons_of_mem _ ht
      exact hmatch.within_shown (Story.stands_of_parse hparse hmem)
        fun part hpart => Story.within_textChars hmem hpart
    · -- The end that is added has a fixed text.
      rcases hending with rfl | rfl
      · exact absurd hu List.not_mem_nil
      · rw [List.mem_singleton.mp hu]
        exact List.forall_mem_singleton.mpr (.of_all (by decide))
  · rw [hnodes] at hs
    obtain ⟨u, hu, rfl⟩ := List.mem_map.mp hs
    have hid := hids u.formed (by rw [hnodes]; exact List.mem_map_of_mem hu)
    rw [State.formed_id] at hid
    exact State.isXml_formed hid hf

/-! ## Documents -/

namespace Bpmn

variable {g : Graph} {settings : Settings} {layout : Diagram.Layout} {ids : List (String × String)}
  {root e : Xml}

/-- The text of a note is a text. -/
theorem mem_texts_of_note (he : e ∈ root.elements) {n : String × String}
    (h : n ∈ e.collect note) : n.2 ∈ root.collect Xml.texts := by
  obtain ⟨y, hy, hn⟩ := List.mem_flatMap.mp h
  refine List.mem_flatMap.mpr ⟨y, Xml.elements_subset root e he hy, ?_⟩
  unfold note at hn
  split at hn
  · rw [List.mem_singleton.mp hn]
    exact List.mem_append_right _ (List.mem_singleton.mpr rfl)
  · split at hn
    · obtain ⟨a, ha, rfl⟩ := List.mem_map.mp hn
      exact List.mem_append_left _ (List.mem_map.mpr ⟨a, ha, rfl⟩)
    · exact absurd hn List.not_mem_nil

theorem mem_elements_of_mem_elementsOf {role : Role} (h : e ∈ elementsOf role root) :
    e ∈ root.elements := by
  obtain ⟨y, hy, hpick⟩ := List.mem_flatMap.mp h
  unfold pick at hpick
  split at hpick
  · rwa [List.mem_singleton.mp hpick]
  · exact absurd hpick List.not_mem_nil

namespace TextsKept

/-- The name of the flow is a text in its document. -/
theorem mem_name (h : TextsKept g layout ids root) : g.name ∈ root.collect Xml.texts := by
  have hmem : some g.name ∈ (elementsOf .process root).map (·.attribute? "name") := by
    rw [h.flow .process (by simp)]
    exact List.mem_singleton.mpr rfl
  obtain ⟨e, he, hname⟩ := List.mem_map.mp hmem
  exact Xml.mem_texts_of_attribute? (mem_elements_of_mem_elementsOf he) hname

/-- The element of a state has its name and its notes. -/
theorem exists_node (h : TextsKept g layout ids root) {s : State} (hs : s ∈ g.nodes) :
    ∃ e ∈ root.elements, e.attribute? "name" = caption s ∧ e.collect note = notes s := by
  have hmem : (some (idOf ids s.id), caption s, notes s) ∈ (elementsOf .node root).map
      (fun e => (e.attribute? "id", e.attribute? "name", e.collect note)) := by
    rw [h.states]
    exact List.mem_cons_of_mem _ (List.mem_map_of_mem hs)
  obtain ⟨e, he, heq⟩ := List.mem_map.mp hmem
  have hrest := (Prod.mk.inj heq).2
  exact ⟨e, mem_elements_of_mem_elementsOf he, (Prod.mk.inj hrest).1, (Prod.mk.inj hrest).2⟩

theorem mem_caption (h : TextsKept g layout ids root) {s : State} (hs : s ∈ g.nodes)
    {name : String} (hname : caption s = some name) : name ∈ root.collect Xml.texts := by
  obtain ⟨e, he, hcaption, _⟩ := h.exists_node hs
  exact Xml.mem_texts_of_attribute? he (hcaption.trans hname)

theorem mem_note (h : TextsKept g layout ids root) {s : State} (hs : s ∈ g.nodes)
    {n : String × String} (hn : n ∈ notes s) : n.2 ∈ root.collect Xml.texts := by
  obtain ⟨e, he, _, hnotes⟩ := h.exists_node hs
  rw [← hnotes] at hn
  exact mem_texts_of_note he hn

theorem mem_edgeText (h : TextsKept g layout ids root) {s : State} (hs : s ∈ g.nodes)
    {name : String} (hname : some name ∈ (edgeTexts s).map (·.1)) :
    name ∈ root.collect Xml.texts := by
  obtain ⟨entry, hentry, hfirst⟩ := List.mem_map.mp hname
  have hmem : entry ∈ (elementsOf .flow root).map
      (fun e => (e.attribute? "name", e.collect note)) := by
    rw [h.edges]
    exact List.mem_cons_of_mem _ (List.mem_flatMap.mpr ⟨s, hs, hentry⟩)
  obtain ⟨e, he, rfl⟩ := List.mem_map.mp hmem
  exact Xml.mem_texts_of_attribute? (mem_elements_of_mem_elementsOf he) hfirst

/-- The texts of a statement are in the texts of the document, with all their characters. -/
theorem exists_of_matches (h : TextsKept g layout ids root) {t : Story.Statement} {s : State}
    (hs : s.formed ∈ g.nodes) (hmatches : t.Matches s) {part : String} (hpart : part ∈ t.parts)
    {c : Char} (hc : c ∈ part.toList) : ∃ text ∈ root.collect Xml.texts, c ∈ text.toList := by
  -- A text with a character in it is given, and what is given is written.
  have hgiven : (Json.str part).given? = some part := by
    rw [given?_str, if_neg]
    rintro rfl
    exact absurd hc List.not_mem_nil
  obtain ⟨id, label, body, next⟩ := s
  cases t with
  | ask source subject prompt =>
    obtain rfl : body = _ := hmatches
    cases List.mem_singleton.mp hpart
    exact ⟨part, h.mem_caption hs hgiven, hc⟩
  | perform source action =>
    obtain rfl : body = _ := hmatches
    cases List.mem_singleton.mp hpart
    exact ⟨part, h.mem_caption hs hgiven, hc⟩
  | stop source reason =>
    obtain rfl : body = _ := hmatches
    cases List.mem_singleton.mp hpart
    refine ⟨part, h.mem_caption hs ?_, hc⟩
    change some ((Json.str part).given?.getD "End") = some part
    rw [hgiven]
    rfl
  | send source message recipient channel =>
    obtain rfl : body = _ := hmatches
    refine ⟨_, h.mem_note hs List.mem_cons_self, ?_⟩
    change c ∈ (s!"To {recipient}: {message}").toList
    rw [toList_sending]
    rcases List.mem_cons.mp hpart with rfl | hpart
    · simp [hc]
    · rw [List.mem_singleton.mp hpart] at hc
      simp [hc]
  | conditional source branches otherwise =>
    obtain ⟨exits, last, rfl, hconditions⟩ := hmatches
    obtain ⟨b, hb, rfl⟩ := List.mem_map.mp hpart
    have hmem : Json.str b.condition ∈ exits.map (·.condition) := by
      rw [hconditions]
      exact List.mem_map.mpr ⟨b, hb, rfl⟩
    obtain ⟨exit, hexit, hcondition⟩ := List.mem_map.mp hmem
    refine ⟨b.condition, h.mem_edgeText hs ?_, hc⟩
    refine List.mem_map.mpr ⟨_, List.mem_append_left _ (List.mem_map_of_mem hexit), ?_⟩
    rw [hcondition]
    exact hgiven
  | header => exact hmatches.elim
  | foreign => exact hmatches.elim

end TextsKept

/-- The illegal characters in the document of a story are those in the texts of its statements. -/
theorem mem_document_iff_mem_textChars {story text : String} (h : Graph.ofStory story = .ok g)
    {statements : List Story.Statement} (hparse : Story.parse story = .ok statements)
    (hlane : settings.defaultLane.toList.all isXmlChar = true)
    (hdoc : document g settings = .ok text) {c : Char} (hc : isXmlChar c = false) :
    c ∈ text.toList ↔ c ∈ Story.textChars statements := by
  obtain ⟨root, hroot, htext⟩ := Except.bind_eq_ok.mp hdoc
  obtain ⟨p, hp, rfl⟩ := parts_of_definitions hroot
  rw [← Except.ok.inj htext, Xml.mem_document_iff hc isNamed_words hp.speaks_root]
  constructor
  · -- The texts of the document are made of those of the graph, and these come from the story.
    rintro ⟨t, ht, hmem⟩
    obtain ⟨hwell, _⟩ := Graph.wellFormed_of_ofStory h
    have hnodup : (g.nodes.map (·.id)).Nodup := by
      rw [hwell.toKeyed.ids]
      exact hwell.nodup.map fun _ _ heq => Json.str.inj heq
    have hkeeps := hp.keeps_root (Graph.keeps_of_ofStory h hparse)
      (distinct_of_elementIds hp.ids hnodup) hlane
    refine (hkeeps t ht c hmem).resolve_left fun hlegal => ?_
    rw [hlegal] at hc
    cases hc
  · -- The header is the name of the flow, and every other statement has a state.
    intro hchars
    obtain ⟨t, ht, part, hpart, hmem⟩ := Story.mem_textChars.mp hchars
    obtain ⟨source, body, told, ending, hparse', hmatches, hnodes, _⟩ := Graph.matches_of_ofStory h
    cases hparse.symm.trans hparse'
    rcases List.mem_cons.mp ht with rfl | ht
    · rw [List.mem_singleton.mp hpart] at hmem
      exact ⟨g.name, hp.textsKept.mem_name, hmem⟩
    · obtain ⟨s, hs, hmatch⟩ := Story.exists_of_forall₂ hmatches.flip ht
      refine hp.textsKept.exists_of_matches ?_ hmatch hpart hmem
      rw [hnodes]
      exact List.mem_map_of_mem (List.mem_append_left _ hs)

/-- A document has the illegal characters that the texts of its story have, and no others: they
    stand in the story, and none of them ends a line there. -/
theorem illegal_mem_document_iff {story text : String} (h : Graph.ofStory story = .ok g)
    (hlane : settings.defaultLane.toList.all isXmlChar = true)
    (hdoc : document g settings = .ok text) :
    ∃ statements, Story.parse story = .ok statements ∧ ∀ c, isXmlChar c = false →
      (c ∈ text.toList ↔
        ∃ t ∈ Story.preorderAll statements, ∃ part ∈ t.parts, c ∈ part.toList) ∧
      (c ∈ text.toList → c ∈ story.toList ∧ isLineBreak c = false) := by
  obtain ⟨source, body, _, _, hparse, _⟩ := Graph.matches_of_ofStory h
  refine ⟨_, hparse, fun c hc => ?_⟩
  have hiff := (mem_document_iff_mem_textChars h hparse hlane hdoc hc).trans Story.mem_textChars
  refine ⟨hiff, fun hmem => ?_⟩
  obtain ⟨t, ht, part, hpart, hmem⟩ := hiff.mp hmem
  have hblank : c ≠ ' ' := by
    rintro rfl
    cases hc
  exact Story.mem_story_of_mem_parts hparse ht hpart hmem hblank

/-- A story with two control characters, one of which ends a line. -/
def controlStory : String := "Flow: F\x0cDo: a\x01b"

theorem parse_controlStory : Story.parse controlStory = .ok [.header ⟨1, "Flow: F"⟩ "F",
    .perform ⟨2, "Do: a\x01b"⟩ "a\x01b"] := by cbv

theorem exists_document_controlStory :
    ∃ g text, Graph.ofStory controlStory = .ok g ∧ document g {} = .ok text := by
  have hmade : (do
      let g ← Graph.ofStory controlStory
      let _ ← definitions g {}
      return ()) = .ok () := by cbv
  obtain ⟨g, hg, hmade⟩ := Except.bind_eq_ok.mp hmade
  obtain ⟨root, hroot, _⟩ := Except.bind_eq_ok.mp hmade
  exact ⟨g, root.document, hg, by rw [document, hroot]; rfl⟩

/-- The one that ends a line does not come into the document, and the other one does. -/
theorem illegal_mem_controlStory : ∃ g text, Graph.ofStory controlStory = .ok g ∧
    document g {} = .ok text ∧ '\x01' ∈ text.toList ∧ '\x0c' ∉ text.toList := by
  obtain ⟨g, text, hg, hdoc⟩ := exists_document_controlStory
  obtain ⟨statements, hparse, hillegal⟩ := illegal_mem_document_iff hg (by decide) hdoc
  cases parse_controlStory.symm.trans hparse
  refine ⟨g, text, hg, hdoc, (hillegal '\x01' (by decide)).1.mpr ?_, fun hmem => ?_⟩
  · exact ⟨_, List.mem_cons_of_mem _ List.mem_cons_self, _, List.mem_cons_self, by decide⟩
  · exact absurd ((hillegal '\x0c' (by decide)).2 hmem).2 (by decide)

/-- So the document of a story need not be legal. -/
theorem not_legal_controlStory : ∃ g text, Graph.ofStory controlStory = .ok g ∧
    document g {} = .ok text ∧ text.toList.all isXmlChar = false := by
  obtain ⟨g, text, hg, hdoc⟩ := exists_document_controlStory
  have hmem : '\x01' ∈ text.toList :=
    (mem_document_iff_mem_textChars hg parse_controlStory (by decide) hdoc (by decide)).mpr
      (by decide)
  exact ⟨g, text, hg, hdoc, List.all_eq_false.mpr ⟨_, hmem, by decide⟩⟩

end Bpmn

end Swimlane
