import Mathlib
import Swimlane.Proofs.Mentions
import Swimlane.Proofs.Pipeline
import Swimlane.Proofs.SequenceFlows
import Swimlane.Proofs.Spacing

/-!
# The expressions of conditions

A branch of a conditional becomes a sequence flow with an expression, in which the variables of the
condition stand by their bare names.  The conditions of a story have no stray braces, so no brace is
left over in the expression.

## Key results

- `Placeholder.bares_of_tidy`: in a text without stray braces all braces are replaced
- `Sentence.OpensBranch.isSnug`: a condition is not empty and has no white space around it
- `holds_of_opensBranch`: the expression of such a condition
- `expressed_of_matches`: the flows of a choice have the expressions of its statement
-/

namespace Swimlane

/-- A text that is not empty and has no white space around it. -/
structure Text.IsSnug (cs : List Char) : Prop where
  ne_nil : cs ≠ []
  first : ∀ c ∈ cs.head?, isBlank c = false
  last : ∀ c ∈ cs.getLast?, isBlank c = false

/-! ## Bare names -/

namespace Placeholder

open Text

/-- The second text is the first one with bare names: in place of every placeholder it has the name
    of the placeholder, and all else, which has no braces, is the same.  The names are listed in
    order. -/
inductive Bares : List Char → List Char → List String → Prop
  | nil : Bares [] [] []
  | char {c : Char} {cs out : List Char} {names : List String} (hopening : c ≠ '{')
      (hclosing : c ≠ '}') (h : Bares cs out names) : Bares (c :: cs) (c :: out) names
  | placeholder {name written cs out : List Char} {names : List String} (hs : Spells name written)
      (h : Bares cs out names) : Bares (written ++ cs) (name ++ out) (String.ofList name :: names)

/-- A text without stray braces has all its placeholders replaced. -/
theorem bares_of_tidy {cs : List Char} (h : Tidy cs) : Bares cs (bare cs) (bracedNames cs) := by
  unfold Tidy braced at h
  unfold bare bracedNames braced
  fun_induction parts cs with
  | case1 => exact .nil
  | case2 cs name rest hfound _ ih =>
    obtain ⟨written, hspells, hcs⟩ :=
      front?_eq_some_iff.mp (show front? ('{' :: cs) = some (name, rest) from hfound)
    rw [List.filter_cons_of_pos rfl, List.forall_mem_cons] at h
    rw [hcs, List.filter_cons_of_pos rfl]
    exact .placeholder hspells (ih h.2)
  | case3 cs _ ih => exact absurd (h (.char '{') (by simp [Part.isBraced])) (by decide)
  | case4 c cs hc ih =>
    have hclosing : c ≠ '}' := by
      rintro rfl
      exact absurd (h (.char '}') (by simp [Part.isBraced])) (by decide)
    rw [List.filter_cons_of_neg (by simp [Part.isBraced, hc, hclosing])] at h ⊢
    exact .char hc hclosing (ih h)

namespace Bares

variable {cs out : List Char} {names : List String}

/-- There are no braces among bare names. -/
theorem braceless (h : Bares cs out names) : Braceless out := by
  induction h with
  | nil => exact braceless_nil
  | char hopening hclosing _ ih =>
    exact ⟨List.not_mem_cons_of_ne_of_not_mem hopening.symm ih.1,
      List.not_mem_cons_of_ne_of_not_mem hclosing.symm ih.2⟩
  | placeholder hs _ ih => exact hs.1.braceless.append ih

theorem eq_nil_iff (h : Bares cs out names) : out = [] ↔ cs = [] := by
  cases h with
  | nil => rfl
  | char => simp
  | placeholder hs _ =>
    have hname := hs.1.isSolid.1
    obtain ⟨_, before, after, _, _, rfl⟩ := hs
    simp [hname]

/-- Names have no white space at their ends. -/
theorem isSnug (h : Bares cs out names) (hcs : IsSnug cs) : IsSnug out := by
  refine ⟨fun hnil => hcs.ne_nil (h.eq_nil_iff.mp hnil), ?_, ?_⟩
  · have hfirst := hcs.first
    cases h with
    | nil => exact hfirst
    | char => exact hfirst
    | placeholder hs _ =>
      intro c hc
      rw [List.head?_append_of_ne_nil _ hs.1.isSolid.1] at hc
      exact hs.1.isSolid.2 c (List.mem_of_mem_head? hc)
  · -- The end is that of the last part which is not empty, by induction on the parts.
    have hlast := hcs.last
    clear hcs
    induction h with
    | nil => exact hlast
    | @char c cs out names hopening hclosing h ih =>
      by_cases hnil : cs = []
      · rwa [h.eq_nil_iff.mpr hnil, ← hnil]
      · obtain ⟨d, more, rfl⟩ := List.exists_cons_of_ne_nil hnil
        obtain ⟨d', more', rfl⟩ := List.exists_cons_of_ne_nil (mt h.eq_nil_iff.mp hnil)
        rw [List.getLast?_cons_cons] at hlast ⊢
        exact ih hlast
    | @placeholder name written cs out names hs h ih =>
      by_cases hnil : cs = []
      · intro c hc
        rw [h.eq_nil_iff.mpr hnil, List.append_nil] at hc
        exact hs.1.isSolid.2 c (List.mem_of_getLast? hc)
      · rw [List.getLast?_append_of_ne_nil _ hnil] at hlast
        rw [List.getLast?_append_of_ne_nil _ (mt h.eq_nil_iff.mp hnil)]
        exact ih hlast

end Bares

end Placeholder

/-! ## Conditions of stories -/

namespace Story.Sentence

open Text

/-- A condition is not empty and has no white space around it. -/
theorem OpensBranch.isSnug {line condition : String} {s : Sentence} (hs : s.OpensBranch condition)
    (h : ofText? line = some s) : IsSnug condition.toList := by
  have htaken : ∀ rest : List Char, rest ≠ [] → (∀ c ∈ rest.head?, isBlank c = false) →
      IsSnug (trimmed (takeCondition rest)).toList := by
    intro rest hne hhead
    obtain ⟨c, more, rfl⟩ := List.exists_cons_of_ne_nil hne
    -- The first character is always taken, and it is not blank.
    have htake : ∃ taken, takeCondition (c :: more) = c :: taken := by
      rw [takeCondition]
      split
      · exact ⟨[], rfl⟩
      · exact ⟨_, rfl⟩
    obtain ⟨taken, htake⟩ := htake
    rw [trimmed, String.toList_ofList]
    refine ⟨fun hnil => ?_, fun c hc => eq_false_of_mem_head?_trim hc,
      fun c hc => eq_false_of_mem_getLast?_trim hc⟩
    have hwords := blankWords_trim (takeCondition (c :: more))
    rw [hnil, htake] at hwords
    refine blankWords_ne_nil (List.cons_ne_nil c taken) ?_ (hwords.symm.trans rfl)
    intro d hd
    cases hd
    exact hhead c rfl
  have hread := reader_of_ofText? h
  rcases hs with rfl | rfl
  · simp only [reader, condition?, Option.bind_eq_bind, Option.bind_eq_some_iff] at hread
    obtain ⟨behind, _, rest, hrest, hread⟩ := hread
    cases hread
    obtain ⟨_, _, _, _, hne, hhead⟩ := behindBlanks?_eq_some_iff.mp hrest
    exact htaken rest hne hhead
  · simp only [reader, otherwise?, Option.bind_eq_bind, Option.bind_eq_some_iff] at hread
    obtain ⟨behind, _, hread⟩ := hread
    split at hread
    · rename_i rest hrest
      cases hread
      obtain ⟨_, _, _, _, _, _, _, _, _, hne, hhead⟩ :=
        (behindWord?_eq_some_iff (by simp [keywords])).mp hrest
      exact htaken rest hne hhead
    · split at hread <;> cases hread

end Story.Sentence

/-! ## Expressions -/

namespace Story

/-- The conditions of a statement. -/
def Statement.conditions : Statement → List String
  | .conditional _ branches _ => branches.map (·.condition)
  | _ => []

/-- A state has the conditions of its statement. -/
theorem Statement.Matches.conditions_eq {t : Statement} {s : State} (h : t.Matches s) :
    s.branchList.map (·.condition.display) = t.conditions := by
  cases t with
  | ask | perform | send | stop =>
    rw [State.branchList, show s.body = _ from h]
    rfl
  | conditional source branches last =>
    obtain ⟨exits, otherwise, hbody, hconditions⟩ := h
    have hdisplay := congrArg (List.map Json.display) hconditions
    rw [List.map_map, List.map_map] at hdisplay
    rw [State.branchList, hbody]
    exact hdisplay
  | header => exact h.elim
  | foreign => exact h.elim

end Story

@[simp] theorem State.formed_branchList (s : State) : s.formed.branchList = s.branchList := by
  obtain ⟨id, label, body, next⟩ := s; cases body <;> rfl

namespace Bpmn

open Placeholder Story

/-- A condition, the expression that it became, and the names that were put into it. -/
structure Substitution where
  condition : String
  expression : String
  names : List String

/-- The expression is the condition with bare names; it is not empty and has no braces. -/
def Substitution.Holds (s : Substitution) : Prop :=
  ∃ out : List Char, s.expression = "= " ++ String.ofList out ∧ out ≠ [] ∧ Braceless out ∧
    Bares s.condition.toList out s.names

/-- The sequence flows from an element have the conditions of a statement, as expressions and in
    order, and the names in these are the variables of the statement.  They have no conditions if
    the statement has none. -/
def Expressed (flows : List SequenceFlow) (element : String) : Statement → Prop
  | .conditional source branches last =>
    ∃ subs : List Substitution, (∀ s ∈ subs, s.Holds) ∧
      subs.map (·.condition) = branches.map (·.condition) ∧
      (flows.filter fun f => f.condition.isSome && f.source == element).map (·.condition) =
        subs.map (some ·.expression) ∧
      (subs.flatMap (·.names)).eraseDups = (Statement.conditional source branches last).mentioned
  | _ => ∀ f ∈ flows, f.source = element → f.condition = none

/-- The expression of a condition. -/
theorem holds_of_opensBranch {line condition : String} {s : Sentence}
    (hs : s.OpensBranch condition) (h : Sentence.ofText? line = some s)
    (hbraces : hasStrayBrace condition = false) :
    Substitution.Holds
      ⟨condition, conditionExpression condition, bracedNames condition.toList⟩ := by
  have hbares := bares_of_tidy (tidy_iff.mpr hbraces)
  have hsnug := hbares.isSnug (hs.isSnug h)
  refine ⟨bare condition.toList, ?_, hsnug.ne_nil, hbares.braceless, hbares⟩
  rw [conditionExpression, Text.trim_eq_self hsnug.first hsnug.last]

/-- Flows with the conditions of a statement of a story express it. -/
theorem expressed_of_stands {t : Statement} {ls : List Line} (ht : t.Stands ls)
    {flows : List SequenceFlow} {element : String}
    (h : (flows.filter fun f => f.condition.isSome && f.source == element).map (·.condition) =
      t.conditions.map fun c => some (conditionExpression c)) : Expressed flows element t := by
  have hnone : t.conditions = [] → ∀ f ∈ flows, f.source = element → f.condition = none := by
    intro hnil f hf hsource
    rw [hnil, List.map_nil, List.map_eq_nil_iff, List.filter_eq_nil_iff] at h
    simpa [hsource] using h f hf
  cases t with
  | conditional source branches last =>
    obtain ⟨heads, _, hopens⟩ := ht
    refine ⟨branches.map fun b => ⟨b.condition, conditionExpression b.condition,
      bracedNames b.condition.toList⟩, ?_, by simp, ?_, ?_⟩
    · intro s hs
      obtain ⟨b, hb, rfl⟩ := List.mem_map.mp hs
      obtain ⟨line, sentence, hline, hsentence, hbraces⟩ := hopens.exists_sentence b hb
      exact holds_of_opensBranch hsentence hline hbraces
    · rw [h, Statement.conditions, List.map_map, List.map_map]
      rfl
    · rw [mentioned_eq (hopens.isMalformed last), Statement.parts, List.flatMap_map,
        List.flatMap_map, ← eraseDups_flatMap_eraseDups]
      exact congrArg List.eraseDups
        (List.flatMap_congr fun b _ => (names_eq_bracedNames b.condition).symm)
  | _ => exact hnone rfl

/-- A flow with a condition leaves a state with branches. -/
theorem exists_of_condition {g : Graph} {ids : List (String × String)} {fs : List SequenceFlow}
    (h : flows g ids = .ok fs) {f : SequenceFlow} (hf : f ∈ fs) (hcondition : f.condition.isSome) :
    ∃ s ∈ g.nodes, s.branchList ≠ [] ∧ f.source = idOf ids s.id := by
  have hmap := flows_filter_map h (t := fun f => f.condition.isSome)
    (u := fun e => e.condition.isSome) (fun e n => by simp [Edge.flow]) (p := (·.source))
    (q := (·.source)) fun _ _ => rfl
  have hmem : f.source ∈ (fs.filter fun f => f.condition.isSome).map (·.source) :=
    List.mem_map_of_mem (List.mem_filter.mpr ⟨hf, hcondition⟩)
  rw [hmap, allEdges, List.filter_cons_of_neg (by simp), edgesFrom, List.filter_flatMap] at hmem
  obtain ⟨e, he, hsource⟩ := List.mem_map.mp hmem
  obtain ⟨s, hs, he⟩ := List.mem_flatMap.mp he
  rw [edgesOf_conditional] at he
  obtain ⟨b, hb, rfl⟩ := List.mem_map.mp he
  exact ⟨s, hs, List.ne_nil_of_mem hb, hsource.symm⟩

/-- Where states stand for statements of a story, their flows express the statements. -/
theorem expressed_of_matches {g : Graph} {ids : List (String × String)} {fs : List SequenceFlow}
    {ls : List Line} {body : List Statement} {told : List State} (hd : Distinct g ids)
    (h : flows g ids = .ok fs) (hstands : ∀ t ∈ preorderAll body, t.Stands ls)
    (htold : ∀ s ∈ told, s.formed ∈ g.nodes)
    (hmatches : List.Forall₂ Statement.Matches (preorderAll body) told) :
    List.Forall₂ (fun t s => Expressed fs (idOf ids s.id) t) (preorderAll body)
      (told.map State.formed) := by
  rw [List.forall₂_map_right_iff]
  refine List.forall₂_iff_zip.mpr ⟨hmatches.length_eq, fun {t s} hmem => ?_⟩
  obtain ⟨ht, hs⟩ := List.of_mem_zip hmem
  refine expressed_of_stands (hstands t ht) ?_
  have hconditions := congrArg (List.map fun f => f.2.2) (flows_branches hd h (htold s hs))
  rw [List.map_map, List.map_map] at hconditions
  rw [← (List.forall₂_zip hmatches hmem).conditions_eq, List.map_map, ← State.formed_branchList]
  exact hconditions

/-- The sequence flows of a story that is compiled: for every statement there is a state, in order,
    whose flows express the conditions of the statement, and there are no other flows with
    conditions.  These flows stand in all documents of the story. -/
theorem conditions_expressed {story : String} {g : Graph} (h : Graph.ofStory story = .ok g) :
    ∃ statements ids flows told rest, Story.parse story = .ok statements ∧
      elementIds g = .ok ids ∧ Bpmn.flows g ids = .ok flows ∧ g.nodes = told ++ rest ∧
      List.Forall₂ (fun t s => Expressed flows (idOf ids s.id) t) (preorderAll statements.tail)
        told ∧
      (∀ f ∈ flows, f.condition.isSome → ∃ s ∈ told, f.source = idOf ids s.id) ∧
      ∀ settings text, document g settings = .ok text → ∃ root,
        definitions g settings = .ok root ∧ text = root.document ∧
        root.collect flowEntry = flows.map fun f =>
          ([("id", f.id), ("sourceRef", f.source), ("targetRef", f.target)] ++
              (if f.name = "" then [] else [("name", f.name)]),
            f.condition.toList.map fun c => ("bpmn:conditionExpression", c)) := by
  obtain ⟨hwell, _⟩ := Graph.wellFormed_of_ofStory h
  have hids := elementIds_of_wellFormed hwell
  obtain ⟨fs, hfs⟩ := exists_flows hwell
  have hnodup : (g.nodes.map (·.id)).Nodup := by
    rw [hwell.toKeyed.ids]
    exact hwell.nodup.map (fun _ _ heq => Json.str.inj heq)
  have hdistinct := distinct_of_elementIds hids hnodup
  cases hparse : Story.parse story with
  | error e => rw [Graph.ofStory_of_error hparse] at h; cases h
  | ok statements =>
    obtain ⟨built, hbuilt, _, hstory⟩ := Graph.ofStory_of_parse hparse
    cases hstory.symm.trans h
    obtain ⟨source, name, body, nodes, used, warnings, rfl, hname, rfl, _⟩ :=
      Story.ofStatements_eq_ok hbuilt
    obtain ⟨told, hmatches, hnodes⟩ := (Story.isBuiltFrom_graphOf hname name warnings).states
    have hstands : ∀ t ∈ preorderAll body, t.Stands (lines story) :=
      fun t ht => stands_of_parse hparse (List.mem_cons_of_mem _ ht)
    have hsplit : (graphOf name nodes used warnings).formed.nodes = told.map State.formed ++
        (if blockOpen body then [endState "end"] else []).map State.formed := by
      rw [Graph.formed_nodes, hnodes, List.map_append]
    have htold : ∀ s ∈ told, s.formed ∈ (graphOf name nodes used warnings).formed.nodes := by
      intro s hs
      rw [hsplit]
      exact List.mem_append_left _ (List.mem_map_of_mem hs)
    refine ⟨_, _, fs, told.map State.formed, _, rfl, hids, hfs, hsplit,
      expressed_of_matches hdistinct hfs hstands htold hmatches, fun f hf hcondition => ?_,
      fun settings text htext => ?_⟩
    · obtain ⟨s, hs, hbranches, hsource⟩ := exists_of_condition hfs hf hcondition
      rw [hsplit, List.mem_append] at hs
      rcases hs with hs | hs
      · exact ⟨s, hs, hsource⟩
      · -- The end has no branches.
        split at hs
        · rw [List.mem_singleton.mp hs] at hbranches
          exact absurd rfl hbranches
        · exact absurd hs List.not_mem_nil
    · obtain ⟨root, hroot, htext⟩ := Except.bind_eq_ok.mp htext
      obtain ⟨p, hp, rfl⟩ := parts_of_definitions hroot
      cases htext
      have hpids : p.ids = _ := Except.ok.inj (hp.ids.symm.trans hids)
      have hpflows : p.flows = fs := by
        have hflows := hp.flows
        rw [hpids] at hflows
        exact Except.ok.inj (hflows.symm.trans hfs)
      exact ⟨_, hroot, rfl, by rw [hp.collect_flowEntry, hpflows]⟩

/-- A story with variables in its conditions, one of them twice. -/
def gatedStory : String := "Flow: F\nIf { a } is {b.c}:\n  Do: x\nElse if {b.c} over {d}\n  Stop"

theorem parse_gatedStory : Story.parse gatedStory = .ok [.header ⟨1, "Flow: F"⟩ "F",
    .conditional ⟨2, "If { a } is {b.c}:"⟩
      [⟨"{ a } is {b.c}", [.perform ⟨3, "Do: x"⟩ "x"], 2⟩,
        ⟨"{b.c} over {d}", [.stop ⟨5, "Stop"⟩ ""], 4⟩] none] := by cbv

/-- The flows of its choice have the two conditions as expressions. -/
theorem conditions_expressed_gatedStory : ∃ g ids flows choice rest,
    Graph.ofStory gatedStory = .ok g ∧ elementIds g = .ok ids ∧ Bpmn.flows g ids = .ok flows ∧
    g.nodes = choice :: rest ∧ Expressed flows (idOf ids choice.id)
      (.conditional ⟨2, "If { a } is {b.c}:"⟩
        [⟨"{ a } is {b.c}", [.perform ⟨3, "Do: x"⟩ "x"], 2⟩,
          ⟨"{b.c} over {d}", [.stop ⟨5, "Stop"⟩ ""], 4⟩] none) := by
  obtain ⟨built, _, _, hstory⟩ := Graph.ofStory_of_parse parse_gatedStory
  obtain ⟨statements, ids, flows, told, rest, hparse, hids, hflows, hnodes, hexpressed, _⟩ :=
    conditions_expressed hstory
  cases parse_gatedStory.symm.trans hparse
  cases hexpressed with
  | cons hfirst _ => exact ⟨_, ids, flows, _, _, hstory, hids, hflows, hnodes, hfirst⟩

end Bpmn

end Swimlane
