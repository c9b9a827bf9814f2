import Swimlane.Proofs.Labels
import Swimlane.Proofs.LanePartition
import Swimlane.Proofs.Pipeline
import Swimlane.Proofs.Subjects

/-!
# The lanes of actions

An action that begins with the name of somebody who is asked in the same story goes to a lane of
that name.  The name is looked up in lower case, and the lane is named by what was looked up, while
the lane of the one who is asked is named by the name as it is written.  These are the same lane
unless the label of the name gets lost in lower case.

## Key results

- `matches_of_ofStory`: the states of a story stand for its statements
- `told_of_ofStory`: the states of a story have the actions and the subjects of its statements
- `same_lane_iff_laneKey`: when an action shares the lane of the one whom it names
- `laneKey_lowered_iff`: a plain name has another lane in lower case only if it is in camel case
- `acting_lanes`: the lanes of the actions of a story
-/

namespace Swimlane

/-! ## Actions and subjects -/

/-- The action of a task. -/
def State.action? (s : State) : Option String :=
  match s.body with
  | .task (.str action) => some action
  | _ => none

/-- Who is asked in a state. -/
def State.asked? (s : State) : Option String :=
  match s.body with
  | .userTask _ (.str subject) _ => some subject
  | _ => none

theorem State.action?_eq_some_iff {s : State} {action : String} :
    s.action? = some action ↔ s.body = .task (.str action) := by
  rw [State.action?]
  constructor
  · intro h
    split at h
    · cases h; assumption
    · cases h
  · intro h
    rw [h]

theorem State.asked?_eq_some_iff {s : State} {subject : String} :
    s.asked? = some subject ↔ ∃ prompt form, s.body = .userTask prompt (.str subject) form := by
  rw [State.asked?]
  constructor
  · intro h
    split at h
    · cases h; exact ⟨_, _, by assumption⟩
    · cases h
  · rintro ⟨prompt, form, h⟩
    rw [h]

@[simp] theorem State.formed_action? (s : State) : s.formed.action? = s.action? := by
  obtain ⟨id, label, body, next⟩ := s; cases body <;> rfl

@[simp] theorem State.formed_asked? (s : State) : s.formed.asked? = s.asked? := by
  obtain ⟨id, label, body, next⟩ := s
  cases body with
  | userTask prompt assignee form => cases assignee <;> rfl
  | _ => rfl

namespace Story

/-- The action that a statement says. -/
def Statement.action? : Statement → Option String
  | .perform _ action => some action
  | _ => none

/-- Whom a statement asks. -/
def Statement.asked? : Statement → Option String
  | .ask _ subject _ => some subject
  | _ => none

/-- A state has the action or the subject of its statement. -/
theorem Statement.Matches.told {t : Statement} {s : State} (h : t.Matches s) :
    s.action? = t.action? ∧ s.asked? = t.asked? := by
  cases t with
  | ask | perform | send | stop =>
    rw [State.action?, State.asked?, show s.body = _ from h]
    exact ⟨rfl, rfl⟩
  | conditional =>
    obtain ⟨exits, otherwise, h, _⟩ := h
    rw [State.action?, State.asked?, h]
    exact ⟨rfl, rfl⟩
  | header => exact h.elim
  | foreign => exact h.elim

/-- States that stand for statements have what the statements have. -/
theorem filterMap_of_matches {α : Type} {ofStatement : Statement → Option α}
    {ofState : State → Option α} {statements : List Statement} {states : List State}
    (h : List.Forall₂ Statement.Matches statements states)
    (hsame : ∀ t s, t.Matches s → ofState s = ofStatement t) :
    states.filterMap ofState = statements.filterMap ofStatement := by
  induction h with
  | nil => rfl
  | cons hmatches _ ih => rw [List.filterMap_cons, List.filterMap_cons, hsame _ _ hmatches, ih]

end Story

/-- The states of a story stand for its statements, in order; an end may come behind them. -/
theorem Graph.matches_of_ofStory {story : String} {g : Graph} (h : ofStory story = .ok g) :
    ∃ source body told ending, Story.parse story = .ok (.header source g.name :: body) ∧
      List.Forall₂ Story.Statement.Matches (Story.preorderAll body) told ∧
      g.nodes = (told ++ ending).map State.formed ∧
      (ending = [] ∨ ending = [Story.endState "end"]) := by
  cases hparse : Story.parse story with
  | error e => rw [ofStory_of_error hparse] at h; cases h
  | ok statements =>
    obtain ⟨built, hbuilt, _, hstory⟩ := ofStory_of_parse hparse
    cases hstory.symm.trans h
    obtain ⟨source, name, body, nodes, used, warnings, rfl, hname, rfl, _⟩ :=
      Story.ofStatements_eq_ok hbuilt
    obtain ⟨told, hmatches, hnodes⟩ := (Story.isBuiltFrom_graphOf hname name warnings).states
    refine ⟨source, body, told, _, rfl, hmatches, by rw [formed_nodes, hnodes], ?_⟩
    split
    · exact Or.inr rfl
    · exact Or.inl rfl

/-- The states of a story have the actions of its `Do` statements and the subjects of its `Ask`
    statements, in order. -/
theorem Graph.told_of_ofStory {story : String} {g : Graph} (h : ofStory story = .ok g) :
    ∃ statements, Story.parse story = .ok statements ∧
      g.nodes.filterMap State.action? =
        (Story.preorderAll statements.tail).filterMap (·.action?) ∧
      g.nodes.filterMap State.asked? =
        (Story.preorderAll statements.tail).filterMap (·.asked?) := by
  obtain ⟨source, body, told, ending, hparse, hmatches, hnodes, hending⟩ := matches_of_ofStory h
  have hfilter : ∀ {α : Type} (f : State → Option α) (f' : Story.Statement → Option α),
      (∀ s : State, f s.formed = f s) → (∀ t s, t.Matches s → f s = f' t) →
      f (Story.endState "end") = none →
      g.nodes.filterMap f = (Story.preorderAll body).filterMap f' := by
    intro α f f' hformed hsame hend
    rw [hnodes, List.filterMap_map, Function.comp_def]
    simp only [hformed]
    rw [List.filterMap_append, Story.filterMap_of_matches hmatches hsame]
    rcases hending with rfl | rfl <;> simp [hend]
  exact ⟨_, hparse, hfilter _ _ State.formed_action? (fun _ _ h => h.told.1) rfl,
    hfilter _ _ State.formed_asked? (fun _ _ h => h.told.2) rfl⟩

/-- Who is asked in a story has a name. -/
theorem Graph.unbraced_of_ofStory {story : String} {g : Graph} (h : ofStory story = .ok g)
    {u : State} (hu : u ∈ g.nodes) {subject : String} (hasked : u.asked? = some subject) :
    Placeholder.unbraced subject ≠ "" := by
  obtain ⟨statements, hparse, _, hsubjects⟩ := told_of_ofStory h
  have hmem : subject ∈ g.nodes.filterMap State.asked? := List.mem_filterMap.mpr ⟨u, hu, hasked⟩
  rw [hsubjects] at hmem
  obtain ⟨t, ht, hask⟩ := List.mem_filterMap.mp hmem
  cases t with
  | ask source subject prompt =>
    cases hask
    exact Story.unbraced_ne_empty (Story.isSubject_of_parse hparse ht)
  | _ => cases hask

namespace Diagram

/-! ## Lanes -/

/-- What tells the lane of an actor from other lanes. -/
def laneKey (default actor : String) : String := lowered (laneName (.str default) actor)

theorem askedActors_cons {s : State} {rest : List State} {actors : List String}
    (h : askedActors (s :: rest) = .ok actors) :
    ∃ others, askedActors rest = .ok others ∧ others ⊆ actors := by
  rw [askedActors] at h
  split at h
  · split at h
    · obtain ⟨actor, _, h⟩ := Except.bind_eq_ok.mp h
      obtain ⟨others, hothers, h⟩ := Except.bind_eq_ok.mp h
      cases h
      exact ⟨others, hothers, List.subset_cons_self _ _⟩
    · exact ⟨actors, h, List.Subset.refl _⟩
  · exact ⟨actors, h, List.Subset.refl _⟩

/-- Whoever is asked is known. -/
theorem mem_askedActors {states : List State} {actors : List String}
    (h : askedActors states = .ok actors) {u : State} (hu : u ∈ states) {subject : String}
    (hasked : u.asked? = some subject) (hne : Placeholder.unbraced subject ≠ "") :
    lowered (Placeholder.unbraced subject) ∈ actors := by
  induction states generalizing actors with
  | nil => cases hu
  | cons s rest ih =>
    cases List.mem_cons.mp hu with
    | inl heq =>
      obtain ⟨prompt, form, hbody⟩ := State.asked?_eq_some_iff.mp hasked
      -- Only an empty name is not given.
      have hgiven : (Json.str subject).isGiven = true := by
        apply bne_iff_ne.mpr
        rintro rfl
        exact hne rfl
      rw [← heq, askedActors, hbody] at h
      simp only [hgiven, if_true] at h
      obtain ⟨actor, hactor, h⟩ := Except.bind_eq_ok.mp h
      obtain ⟨others, _, h⟩ := Except.bind_eq_ok.mp h
      cases hactor
      cases h
      exact List.mem_cons_self
    | inr hu =>
      obtain ⟨others, hothers, hsubset⟩ := askedActors_cons h
      exact hsubset (ih hothers hu)

section Names

variable {g : Graph} {actors : List String} (hactors : askedActors g.nodes = .ok actors)

include hactors

/-- The name of the lane of an action that begins with the name of a known actor. -/
theorem actorName_of_action {s : State} {action : String} (haction : s.action? = some action)
    (hknown : firstWord action ∈ actors) (default : String) :
    actorName g default s = .ok (laneName (.str default) (firstWord action)) := by
  have hbody := State.action?_eq_some_iff.mp haction
  have hcontains : (knownActors ++ actors).contains (firstWord action) = true :=
    List.contains_iff_mem.mpr (List.mem_append_right _ hknown)
  rw [actorName, hactors]
  simp only [bind, Except.bind, nameOf, actorOf, hbody, Json.asText, hcontains, if_true]
  rfl

/-- The name of the lane of somebody who is asked. -/
theorem actorName_of_asked {u : State} {subject : String} (hasked : u.asked? = some subject)
    (hne : Placeholder.unbraced subject ≠ "") (default : String) :
    actorName g default u = .ok (laneName (.str default) (Placeholder.unbraced subject)) := by
  obtain ⟨prompt, form, hbody⟩ := State.asked?_eq_some_iff.mp hasked
  rw [actorName, hactors]
  simp only [bind, Except.bind, nameOf, actorOf, hbody, Json.asText, hne, if_false]
  rfl

end Names

/-- An action that begins with the name of somebody who is asked is in the lane of that one exactly
    if the name and its lower case have the same lane. -/
theorem same_lane_iff_laneKey {g : Graph} (hk : g.Keyed) {default : String} {a : Assignment}
    (h : assignLanes g (.str default) = .ok a) {s u : State} (hs : s ∈ g.nodes) (hu : u ∈ g.nodes)
    {action subject : String} (haction : s.action? = some action)
    (hasked : u.asked? = some subject) (hne : Placeholder.unbraced subject ≠ "")
    (hword : firstWord action = lowered (Placeholder.unbraced subject)) :
    Assoc.get? s.id a.2 = Assoc.get? u.id a.2 ↔
      laneKey default (lowered (Placeholder.unbraced subject)) =
        laneKey default (Placeholder.unbraced subject) := by
  obtain ⟨actors, hactors, _⟩ := Except.bind_eq_ok.mp h
  have hknown : firstWord action ∈ actors := hword ▸ mem_askedActors hactors hu hasked hne
  obtain ⟨m, n, hm, hn, hsame⟩ := (isPartition_of_assignLanes hk h).shared s hs u hu
  rw [actorName_of_action hactors haction hknown, hword] at hm
  rw [actorName_of_asked hactors hasked hne] at hn
  rw [← Except.ok.inj hm, ← Except.ok.inj hn] at hsame
  exact hsame

/-! ## Names in lower case -/

/-- The key of a lane that is not the default one. -/
theorem toList_laneKey {default actor : String} (h : default ≠ actor) :
    (laneKey default actor).toList = Text.lower (Text.labelChars actor.toList) := by
  have hname : laneName (.str default) actor = Text.label actor := by
    rw [laneName, if_neg]
    simpa [Json.isText] using Ne.symm h
  rw [laneKey, hname, lowered, String.toList_ofList, Text.toList_label]

/-- A plain name that is no spelling of the default lane has another lane in lower case only if it
    is in camel case. -/
theorem laneKey_lowered_iff {default actor : String} (hplain : Text.IsPlain actor.toList)
    (hactor : default ≠ actor) (hlowered : default ≠ lowered actor) :
    laneKey default (lowered actor) = laneKey default actor ↔
      Text.spaceCamel actor.toList = actor.toList := by
  rw [← String.toList_inj, toList_laneKey hlowered, toList_laneKey hactor, lowered,
    String.toList_ofList, Text.label_lower_iff hplain]

/-! ## Stories -/

/-- When an action that begins with the name of an actor is in the lane of a state in which this
    actor is asked: exactly if the name and its lower case have the same lane.  They do if the name
    is in lower case.  A plain name that is no spelling of the default lane has the same lane in
    lower case exactly if it is not in camel case. -/
structure SharesLane (a : Assignment) (default : String) (s u : State) (actor : String) : Prop where
  assigned : ∃ lane ∈ a.1, Assoc.get? s.id a.2 = some lane.id
  key : Assoc.get? s.id a.2 = Assoc.get? u.id a.2 ↔
    laneKey default (lowered actor) = laneKey default actor
  small : lowered actor = actor → Assoc.get? s.id a.2 = Assoc.get? u.id a.2
  plain : Text.IsPlain actor.toList → default ≠ actor → default ≠ lowered actor →
    (Assoc.get? s.id a.2 = Assoc.get? u.id a.2 ↔ Text.spaceCamel actor.toList = actor.toList)

/-- The states of a story have its actions and the subjects that it asks.  All of them have lanes,
    and whether an action that begins with the name of a subject shares the lane of this subject
    depends on how the name is written. -/
theorem acting_lanes {story : String} {g : Graph} (h : Graph.ofStory story = .ok g)
    (default : String) :
    ∃ statements a, Story.parse story = .ok statements ∧ assignLanes g (.str default) = .ok a ∧
      g.nodes.filterMap State.action? =
        (Story.preorderAll statements.tail).filterMap (·.action?) ∧
      g.nodes.filterMap State.asked? =
        (Story.preorderAll statements.tail).filterMap (·.asked?) ∧
      ∀ s ∈ g.nodes, ∀ action, s.action? = some action →
        ∀ u ∈ g.nodes, ∀ subject, u.asked? = some subject →
          firstWord action = lowered (Placeholder.unbraced subject) →
          SharesLane a default s u (Placeholder.unbraced subject) := by
  obtain ⟨hwell, _⟩ := Graph.wellFormed_of_ofStory h
  obtain ⟨a, ha, _⟩ := exists_assignLanes hwell.toKeyed
    (fun s hs => attributed_of_textual (hwell.textual s hs)) default
  obtain ⟨statements, hparse, hactions, hsubjects⟩ := Graph.told_of_ofStory h
  refine ⟨statements, a, hparse, ha, hactions, hsubjects, ?_⟩
  intro s hs action haction u hu subject hasked hword
  have hkey := same_lane_iff_laneKey hwell.toKeyed ha hs hu haction hasked
    (Graph.unbraced_of_ofStory h hu hasked) hword
  constructor
  · obtain ⟨lane, hlane, hget, _⟩ := (isPartition_of_assignLanes hwell.toKeyed ha).assigned s hs
    exact ⟨lane, hlane, hget⟩
  · exact hkey
  · intro hsmall
    rw [hkey, hsmall]
  · intro hplain hactor hlowered
    rw [hkey, laneKey_lowered_iff hplain hactor hlowered]

/-- A story in which a reviewer is asked, and acts with an article and in capitals. -/
def reviewerStory : String := "Flow: F\nAsk {Reviewer} for {doc}\nDo: the REVIEWER, signs"

/-- The action is in the lane of the reviewer. -/
theorem acting_lanes_reviewerStory : ∃ g a, Graph.ofStory reviewerStory = .ok g ∧
    assignLanes g (.str "System") = .ok a ∧
    ∃ s ∈ g.nodes, ∃ u ∈ g.nodes, s.action? = some "the REVIEWER, signs" ∧
      u.asked? = some "{Reviewer}" ∧ SharesLane a "System" s u "Reviewer" ∧
      Assoc.get? s.id a.2 = Assoc.get? u.id a.2 := by
  have hparse : Story.parse reviewerStory = .ok [.header ⟨1, "Flow: F"⟩ "F",
      .ask ⟨2, "Ask {Reviewer} for {doc}"⟩ "{Reviewer}" "{Reviewer} for {doc}",
      .perform ⟨3, "Do: the REVIEWER, signs"⟩ "the REVIEWER, signs"] := by cbv
  obtain ⟨built, _, _, hstory⟩ := Graph.ofStory_of_parse hparse
  obtain ⟨statements, a, hparse', ha, hactions, hsubjects, hlanes⟩ := acting_lanes hstory "System"
  cases hparse.symm.trans hparse'
  have haction : "the REVIEWER, signs" ∈ built.formed.nodes.filterMap State.action? := by
    rw [hactions]
    exact List.mem_singleton_self _
  have hasked : "{Reviewer}" ∈ built.formed.nodes.filterMap State.asked? := by
    rw [hsubjects]
    exact List.mem_singleton_self _
  obtain ⟨s, hs, haction⟩ := List.mem_filterMap.mp haction
  obtain ⟨u, hu, hasked⟩ := List.mem_filterMap.mp hasked
  have hname : Placeholder.unbraced "{Reviewer}" = "Reviewer" := by decide +kernel
  have hshares := hlanes s hs _ haction u hu _ hasked (by decide +kernel)
  rw [hname] at hshares
  have hplain : Text.IsPlain "Reviewer".toList := Text.isPlain_of_ascii (by simp)
  exact ⟨_, a, hstory, ha, s, hs, u, hu, haction, hasked, hshares,
    (hshares.plain hplain (by decide) (by decide +kernel)).mpr (by decide +kernel)⟩

/-- A story in which somebody with a name in camel case is asked and acts. -/
def camelStory : String := "Flow: F\nAsk lineManager for {x}\nDo: lineManager approves"

/-- The action begins with the name of the only one who is asked, but it is in another lane. -/
theorem lanes_of_camelStory : ∃ g a, Graph.ofStory camelStory = .ok g ∧
    assignLanes g (.str "System") = .ok a ∧
    g.nodes.filterMap State.action? = ["lineManager approves"] ∧
    g.nodes.filterMap State.asked? = ["lineManager"] ∧
    firstWord "lineManager approves" = lowered (Placeholder.unbraced "lineManager") ∧
    ∀ s ∈ g.nodes, s.action? = some "lineManager approves" →
      ∀ u ∈ g.nodes, u.asked? = some "lineManager" →
        Assoc.get? s.id a.2 ≠ Assoc.get? u.id a.2 := by
  have hparse : Story.parse camelStory = .ok [.header ⟨1, "Flow: F"⟩ "F",
      .ask ⟨2, "Ask lineManager for {x}"⟩ "lineManager" "lineManager for {x}",
      .perform ⟨3, "Do: lineManager approves"⟩ "lineManager approves"] := by cbv
  obtain ⟨built, _, hwell, hstory⟩ := Graph.ofStory_of_parse hparse
  obtain ⟨statements, hparse', hactions, hsubjects⟩ := Graph.told_of_ofStory hstory
  cases hparse.symm.trans hparse'
  obtain ⟨a, ha, _⟩ := exists_assignLanes hwell.formed.toKeyed
    (fun s hs => attributed_of_textual (hwell.formed.textual s hs)) "System"
  have hname : Placeholder.unbraced "lineManager" = "lineManager" := by decide +kernel
  have hword : firstWord "lineManager approves" =
      lowered (Placeholder.unbraced "lineManager") := by decide +kernel
  refine ⟨_, a, hstory, ha, hactions, hsubjects, hword, ?_⟩
  intro s hs haction u hu hasked hsame
  have hkey := (same_lane_iff_laneKey hwell.formed.toKeyed ha hs hu haction hasked
    (by decide +kernel) hword).mp hsame
  rw [hname, laneKey_lowered_iff (Text.isPlain_of_ascii (by simp)) (by decide)
    (by decide +kernel)] at hkey
  exact absurd hkey (by decide +kernel)

end Diagram

end Swimlane
