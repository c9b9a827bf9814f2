import Mathlib
import Swimlane.Bundle
import Swimlane.Proofs.Except

/-!
# Bundles in normal form

A bundle is read leniently: what is not given gets a default, values are taken as texts, unknown
origins are passed over, and texts and objects do for lists.  What comes out is in normal form, and
a bundle in normal form is written such that it is read back as it is.  So reading and writing a
second time changes nothing.

## Key results

- `canonical_of_ofJson`: what is read is in normal form
- `ofJson_toJson_iff`: the bundles that are read back are those in normal form
- `read_back_of_ofJson`: reading, writing and reading again
-/

namespace Swimlane

/-- A variable in normal form: its description is given or the empty text, and its origins are
    among those that a variable can have. -/
structure Insights.Variable.Canonical (v : Insights.Variable) : Prop where
  description : v.description.isGiven = true ∨ v.description = .str ""
  origins : ∀ origin ∈ v.origins, origin ∈ Bundle.variableOrigins

namespace Bundle

/-- A bundle in normal form: its story is not blank, its origin is known, its confidence lies
    between zero and one, and its variables are in normal form. -/
structure Canonical (b : Bundle) : Prop where
  story : Text.trim b.story.toList ≠ []
  origin : b.origin ∈ origins
  confidence : ∀ x ∈ b.confidence, x.isUnit = true
  vars : ∀ v ∈ b.insights.vars, v.Canonical

/-! ## Lists that may be missing -/

/-- A list is read as it is, also an empty one. -/
@[simp] theorem givenItems_arr (vs : List Json) : givenItems (.arr vs) = .ok vs := by
  cases vs <;> rfl

/-- A list of texts is read as it is. -/
@[simp] theorem givenTexts_arr (texts : List String) :
    givenTexts (.arr (texts.map .str)) = .ok texts := by
  have hdisplay : (texts.map Json.str).map Json.display = texts := by
    rw [List.map_map]
    exact List.map_id' texts
  rw [givenTexts, givenItems_arr]
  exact congrArg Except.ok hdisplay

/-- Origins that are known are kept. -/
theorem knownOrigins_map_str {names : List String} (h : ∀ name ∈ names, name ∈ variableOrigins) :
    knownOrigins (names.map .str) = names := by
  have hids : (names.map Json.str).filterMap Json.asId? = names := by
    rw [List.filterMap_map]
    exact List.filterMap_some
  rw [knownOrigins, hids, List.filter_eq_self]
  exact fun name hname => List.contains_iff_mem.mpr (h name hname)

/-- What is taken for a description is given or empty. -/
theorem orEmpty_cases (v : Json) : (orEmpty v).isGiven = true ∨ orEmpty v = .str "" := by
  rw [orEmpty]
  split
  · exact Or.inl ‹_›
  · exact Or.inr rfl

/-! ## Reading gives normal forms -/

/-- A variable that is read is in normal form. -/
theorem canonical_of_variableOf {v : Json} {w : Insights.Variable} (h : variableOf v = .ok w) :
    w.Canonical := by
  unfold variableOf at h
  split at h
  · cases h
    exact ⟨Or.inr rfl, fun _ hmem => absurd hmem List.not_mem_nil⟩
  · split at h
    · cases h
    · obtain ⟨given, _, h⟩ := Except.bind_eq_ok.mp h
      cases h
      refine ⟨orEmpty_cases _, fun origin hmem => ?_⟩
      exact List.contains_iff_mem.mp (List.mem_filter.mp hmem).2
  · cases h

/-- The variables of insights that are read are in normal form. -/
theorem canonical_of_insightsOf {v : Json} {i : Insights} (h : insightsOf v = .ok i) :
    ∀ w ∈ i.vars, w.Canonical := by
  unfold insightsOf at h
  split at h
  · cases h
    exact fun _ hmem => absurd hmem List.not_mem_nil
  · obtain ⟨entries, _, h⟩ := Except.bind_eq_ok.mp h
    obtain ⟨vars, hvars, h⟩ := Except.bind_eq_ok.mp h
    obtain ⟨actors, _, h⟩ := Except.bind_eq_ok.mp h
    obtain ⟨intents, _, h⟩ := Except.bind_eq_ok.mp h
    cases h
    intro w hw
    obtain ⟨entry, _, hentry⟩ := Except.exists_of_mem_mapM hvars hw
    exact canonical_of_variableOf hentry
  · cases h

theorem storyOf_eq_ok {v : Json} {story : String} (h : storyOf v = .ok story) :
    Text.trim story.toList ≠ [] := by
  unfold storyOf at h
  split at h
  · split at h
    · cases h
    · rename_i hblank
      cases h
      simpa using hblank
  · cases h

theorem originOf_eq_ok {v : Json} {origin : String} (h : originOf v = .ok origin) :
    origin ∈ origins := by
  unfold originOf at h
  split at h
  · rename_i hfound
    cases h
    exact List.mem_of_find?_eq_some hfound
  · cases h

theorem confidenceOf_eq_ok {v : Json} {confidence : Option Binary64}
    (h : confidenceOf v = .ok confidence) : ∀ x ∈ confidence, x.isUnit = true := by
  unfold confidenceOf at h
  split at h
  · cases h
    exact fun x hmem => absurd hmem (Option.not_mem_none x)
  · obtain ⟨x, _, h⟩ := Except.bind_eq_ok.mp h
    split at h
    · rename_i hunit
      cases h
      intro y hy
      cases hy
      exact hunit
    · cases h

/-- A bundle that is read is in normal form. -/
theorem canonical_of_ofJson {v : Json} {b : Bundle} (h : ofJson v = .ok b) : b.Canonical := by
  unfold ofJson at h
  split at h
  · obtain ⟨story, hstory, h⟩ := Except.bind_eq_ok.mp h
    obtain ⟨origin, horigin, h⟩ := Except.bind_eq_ok.mp h
    obtain ⟨confidence, hconfidence, h⟩ := Except.bind_eq_ok.mp h
    obtain ⟨insights, hinsights, h⟩ := Except.bind_eq_ok.mp h
    obtain ⟨warnings, _, h⟩ := Except.bind_eq_ok.mp h
    cases h
    exact ⟨storyOf_eq_ok hstory, originOf_eq_ok horigin, confidenceOf_eq_ok hconfidence,
      canonical_of_insightsOf hinsights⟩
  · cases h

/-! ## Normal forms are read back -/

/-- A description in normal form is read back, also if it is not written. -/
theorem orEmpty_description_toJson {v : Insights.Variable} (h : v.Canonical) :
    orEmpty (v.toJson.getD "description" .null) = v.description := by
  rcases h.description with hgiven | hempty
  · have hwritten : v.toJson.getD "description" .null = v.description := by
      simp [Insights.Variable.toJson, Json.getD, Json.get?, Assoc.get?, hgiven]
    rw [hwritten, orEmpty, if_pos hgiven]
  · have hmissing : v.toJson.getD "description" .null = .null := by
      simp [Insights.Variable.toJson, Json.getD, Json.get?, Assoc.get?, hempty, Json.isGiven]
    rw [hmissing, hempty]
    rfl

/-- A variable in normal form is read back. -/
theorem variableOf_toJson {v : Insights.Variable} (h : v.Canonical) :
    variableOf v.toJson = .ok v := by
  have horigins : (givenItems (.arr (v.origins.map .str))).mapError Failure.misfit =
      .ok (v.origins.map .str) := by
    rw [givenItems_arr]
    rfl
  refine Except.bind_eq_ok.mpr ⟨v.origins.map .str, horigins, ?_⟩
  rw [orEmpty_description_toJson h, knownOrigins_map_str h.origins]
  rfl

/-- Insights with variables in normal form are read back. -/
theorem insightsOf_toJson {i : Insights} (h : ∀ v ∈ i.vars, v.Canonical) :
    insightsOf i.toJson = .ok i := by
  have hentries : (givenItems (.arr (i.vars.map Insights.Variable.toJson))).mapError
      Failure.misfit = .ok (i.vars.map Insights.Variable.toJson) := by
    rw [givenItems_arr]
    rfl
  have hvars : (i.vars.map Insights.Variable.toJson).mapM variableOf = .ok (i.vars.map id) :=
    Except.mapM_map_eq_ok fun v hv => variableOf_toJson (h v hv)
  rw [List.map_id] at hvars
  have htexts : ∀ texts : List String, (givenTexts (.arr (texts.map .str))).mapError
      Failure.misfit = .ok texts := by
    intro texts
    rw [givenTexts_arr]
    rfl
  refine Except.bind_eq_ok.mpr ⟨i.vars.map Insights.Variable.toJson, hentries, ?_⟩
  refine Except.bind_eq_ok.mpr ⟨i.vars, hvars, ?_⟩
  refine Except.bind_eq_ok.mpr ⟨i.actors, htexts i.actors, ?_⟩
  exact Except.bind_eq_ok.mpr ⟨i.intents, htexts i.intents, rfl⟩

theorem storyOf_str {story : String} (h : Text.trim story.toList ≠ []) :
    storyOf (.str story) = .ok story := by
  simp [storyOf, h]

theorem originOf_str {origin : String} (h : origin ∈ origins) :
    originOf (.str origin) = .ok origin := by
  simp only [origins, List.mem_cons, List.not_mem_nil, or_false] at h
  rcases h with rfl | rfl <;> rfl

/-- A confidence between zero and one is read back. -/
theorem confidenceOf_float {x : Binary64} (h : x.isUnit = true) :
    confidenceOf (.float x) = .ok (some x) := by
  simp [confidenceOf, numberOf, h, bind, Except.bind, pure, Except.pure]

/-- The confidence of a bundle is read back, also if there is none. -/
theorem confidenceOf_toJson {b : Bundle} (h : ∀ x ∈ b.confidence, x.isUnit = true) :
    confidenceOf (b.toJson.getD "confidence" .null) = .ok b.confidence := by
  cases hconfidence : b.confidence with
  | none =>
    have hmissing : b.toJson.getD "confidence" .null = .null := by
      by_cases hempty : b.provider = "" <;>
        simp [toJson, Json.getD, Json.get?, Assoc.get?, hconfidence, hempty]
    rw [hmissing]
    rfl
  | some x =>
    have hgiven : b.toJson.getD "confidence" .null = .float x := by
      simp [toJson, Json.getD, Json.get?, Assoc.get?, hconfidence]
    rw [hgiven, confidenceOf_float (h x hconfidence)]

/-- The provider of a bundle is read back, also if it is empty. -/
theorem display_provider_toJson (b : Bundle) :
    (orEmpty (b.toJson.getD "provider" .null)).display = b.provider := by
  by_cases hempty : b.provider = ""
  · have hmissing : b.toJson.getD "provider" .null = .null := by
      cases hconfidence : b.confidence <;>
        simp [toJson, Json.getD, Json.get?, Assoc.get?, hconfidence, hempty]
    rw [hmissing, hempty]
    rfl
  · have hgiven : b.toJson.getD "provider" .null = .str b.provider := by
      cases hconfidence : b.confidence <;>
        simp [toJson, Json.getD, Json.get?, Assoc.get?, hconfidence, hempty]
    rw [hgiven, orEmpty, if_pos (by simpa [Json.isGiven] using hempty)]
    rfl

/-- A bundle in normal form is read back. -/
theorem ofJson_toJson {b : Bundle} (h : b.Canonical) : ofJson b.toJson = .ok b := by
  -- The members are read in their order; those that may be missing are the last two.
  have hwarnings : (givenTexts (.arr (b.warnings.map .str))).mapError Failure.misfit =
      .ok b.warnings := by
    rw [givenTexts_arr]
    rfl
  refine Except.bind_eq_ok.mpr ⟨b.story, storyOf_str h.story, ?_⟩
  refine Except.bind_eq_ok.mpr ⟨b.origin, originOf_str h.origin, ?_⟩
  refine Except.bind_eq_ok.mpr ⟨b.confidence, confidenceOf_toJson h.confidence, ?_⟩
  refine Except.bind_eq_ok.mpr ⟨b.insights, insightsOf_toJson h.vars, ?_⟩
  refine Except.bind_eq_ok.mpr ⟨b.warnings, hwarnings, ?_⟩
  rw [display_provider_toJson]
  rfl

/-- The bundles that are read back as they are written are those in normal form. -/
theorem ofJson_toJson_iff {b : Bundle} : ofJson b.toJson = .ok b ↔ b.Canonical :=
  ⟨canonical_of_ofJson, ofJson_toJson⟩

/-! ## Reading and writing again -/

/-- What is written for the bundle that a value describes. -/
def normalized (v : Json) : Except Failure Json := (ofJson v).map toJson

/-- A bundle that is read is in normal form, so it is written such that it is read back with all
    its parts, and what is written for a value is written for itself. -/
theorem read_back_of_ofJson {v : Json} {b : Bundle} (h : ofJson v = .ok b) :
    b.Canonical ∧ ofJson b.toJson = .ok b ∧ normalized v = .ok b.toJson ∧
      normalized b.toJson = .ok b.toJson := by
  have hcanonical := canonical_of_ofJson h
  have hback := ofJson_toJson_iff.mpr hcanonical
  refine ⟨hcanonical, hback, ?_, ?_⟩
  · rw [normalized, h]
    rfl
  · rw [normalized, hback]
    rfl

/-- A bundle with texts and objects in place of lists, and with values in place of texts. -/
def looseBundle : Json :=
  .obj [("story", .str " Flow: F"), ("confidence", .bool true), ("provider", .int 7),
    ("warnings", .str "ab"),
    ("insights", .obj [("actors", .obj [("bob", .null)]), ("intents", .int 0),
      ("variables", .arr [.str "x", .obj [("name", .arr [.null]), ("description", .bool false),
        ("origins", .arr [.str "input", .str "guess", .null, .str "input"])]])])]

/-- What the bundle is read as. -/
def looseReading : Bundle where
  story := " Flow: F"
  origin := "heuristic"
  insights := ⟨["bob"], [], [⟨"x", .str "", []⟩, ⟨"[None]", .str "", ["input", "input"]⟩]⟩
  confidence := some (.finite false 4503599627370496 (-52))
  warnings := ["a", "b"]
  provider := "7"

theorem ofJson_looseBundle : ofJson looseBundle = .ok looseReading := rfl

/-- The bundle is read back. -/
theorem read_back_of_looseBundle : ofJson looseBundle = .ok looseReading ∧
    ofJson looseReading.toJson = .ok looseReading ∧
    normalized looseBundle = .ok looseReading.toJson ∧
    normalized looseReading.toJson = .ok looseReading.toJson :=
  ⟨ofJson_looseBundle, (read_back_of_ofJson ofJson_looseBundle).2⟩

end Bundle

end Swimlane
