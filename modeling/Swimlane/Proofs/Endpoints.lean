import Swimlane.Proofs.Emission
import Swimlane.Proofs.TextFiles
import Swimlane.Service

/-!
# The endpoints agree

A story reaches the service as plain text or inside a bundle, and is answered with everything that
is made of it or with its document alone.  Whichever way it comes, the same story is compiled; so
all answers to it follow from one outcome.

## Key results

- `Text.Utf8.decodeLossy_encode`: nothing is replaced in the bytes of a text
- `bundleOf_of_carries`: the story that a body carries is the one that is compiled
- `answer_of_posts`: the answer to a story depends on nothing but the story
- `endpoints_agree`: what a story is answered with, at both endpoints and in both forms
-/

namespace Swimlane

/-- No byte of a text is replaced. -/
theorem Text.Utf8.decodeLossy_encode (s : String) : decodeLossy (encode s) = s.toList := by
  rw [encode]
  induction s.toList with
  | nil => rw [List.flatMap_nil, decodeLossy]
  | cons c cs ih =>
    obtain ⟨b, more, hbytes, hfirst⟩ := first_encodeChar c (cs.flatMap encodeChar)
    rw [List.flatMap_cons, hbytes, List.cons_append, decodeLossy, hfirst]
    simp only [List.drop_left, ih]

namespace Service

/-! ## Requests that carry a story -/

/-- The body of a request carries a story: it is the text of the story, under any type but JSON, or
    a bundle that is accepted and has this story. -/
inductive Carries (story : String) (r : Request) : Prop
  | text {type : String} (htype : contentType? r = some type) (hother : type ≠ "application/json")
    (hbody : r.body = Text.Utf8.encode story)
  | bundle {v : Json} {b : Bundle} (htype : contentType? r = some "application/json")
    (hread : Json.read (String.ofList (Text.Utf8.decodeLossy r.body)) = .ok v)
    (hbundle : Bundle.ofJson v = .ok b) (hstory : b.story = story)

/-- A request that posts a story to a path, in a body that is not too large. -/
structure Posts (settings : Settings) (path story : String) (r : Request) : Prop where
  path_eq : Http.Target.path r.target = path
  method_eq : method r = "POST"
  fits : (r.body.length : Int) ≤ settings.maxBodyBytes
  carries : Carries story r

variable {settings : Settings} {path story : String} {r : Request}

/-- The story that a body carries is the one that is compiled. -/
theorem bundleOf_of_carries (h : Carries story r) (hblank : Text.trim story.toList ≠ []) :
    ∃ type b, contentType? r = some type ∧ bundleOf type r.body = .ok b ∧ b.story = story := by
  cases h with
  | @text type htype hother hbody =>
    refine ⟨type, .ofStory story, htype, ?_, rfl⟩
    have hchars : Text.Utf8.decodeLossy r.body = story.toList := by
      rw [hbody, Text.Utf8.decodeLossy_encode]
    simp only [bundleOf, hchars, if_neg hother, List.isEmpty_iff, if_neg hblank,
      String.ofList_toList]
  | @bundle v b htype hread hbundle hstory =>
    refine ⟨"application/json", b, htype, ?_, hstory⟩
    simp only [bundleOf, ↓reduceIte, hread]
    exact hbundle

/-- A body within the limit is not too large. -/
theorem isTooLarge_of_fits (h : (r.body.length : Int) ≤ settings.maxBodyBytes) :
    isTooLarge settings r = false := by
  simp only [isTooLarge, decide_eq_false (Int.not_lt.mpr h), Bool.and_false, Bool.or_false]

/-- What a computation of an answer ends in. -/
def conclude : Except Failure Response → Response
  | .ok response => response
  | .error failure => ofFailure failure

/-- The answer to a story depends on nothing but the story. -/
theorem answer_of_posts (h : Posts settings path story r) (hblank : Text.trim story.toList ≠ [])
    (render : Graph → String → Except Failure Response) :
    answer settings r render = conclude (do
      let g ← Graph.ofStory story
      render g (← Bpmn.document g settings)) := by
  obtain ⟨type, b, htype, hbundle, rfl⟩ := bundleOf_of_carries h.carries hblank
  -- From here on nothing but the story of the bundle is looked at.
  have hcompile : compile settings type r.body = (do
      let g ← Graph.ofStory b.story
      return (g, ← Bpmn.document g settings)) := by rw [compile, hbundle]; rfl
  rw [answer, isTooLarge_of_fits h.fits, if_neg Bool.false_ne_true, htype]
  simp only [hcompile]
  cases Graph.ofStory b.story with
  | error failure => rfl
  | ok g =>
    simp only [bind, Except.bind]
    cases Bpmn.document g settings <;> rfl

/-- The answer with everything that is made of a story. -/
theorem handle_compile (h : Posts settings "/compile" story r)
    (hblank : Text.trim story.toList ≠ []) : handle settings r = conclude (do
      let g ← Graph.ofStory story
      let _ ← Bpmn.document g settings
      return .json 200 (← g.artifacts settings)) := by
  simp only [handle, h.path_eq, h.method_eq, ↓reduceIte]
  exact answer_of_posts h hblank _

/-- The answer with the document of a story. -/
theorem handle_bpmn (h : Posts settings "/bpmn" story r)
    (hblank : Text.trim story.toList ≠ []) : handle settings r = conclude (do
      let g ← Graph.ofStory story
      return .xml (← Bpmn.document g settings)) := by
  simp only [handle, h.path_eq, h.method_eq, ↓reduceIte]
  exact answer_of_posts h hblank _

/-! ## Answers -/

/-- The two endpoints for stories. -/
inductive IsEndpoint : String → Prop
  | compile : IsEndpoint "/compile"
  | bpmn : IsEndpoint "/bpmn"

/-- A story that fails, or whose document does, is answered alike at both endpoints. -/
theorem handle_of_failure {failure : Failure} (hpath : IsEndpoint path)
    (h : Posts settings path story r) (hblank : Text.trim story.toList ≠ [])
    (hfails : (do Bpmn.document (← Graph.ofStory story) settings) = .error failure) :
    handle settings r = ofFailure failure := by
  cases hstory : Graph.ofStory story with
  | error e =>
    rw [hstory] at hfails
    cases hfails
    cases hpath with
    | compile => rw [handle_compile h hblank, hstory]; rfl
    | bpmn => rw [handle_bpmn h hblank, hstory]; rfl
  | ok g =>
    rw [hstory] at hfails
    have hdocument : Bpmn.document g settings = .error failure := hfails
    cases hpath with
    | compile => simp only [handle_compile h hblank, hstory, hdocument, bind, Except.bind, conclude]
    | bpmn => simp only [handle_bpmn h hblank, hstory, hdocument, bind, Except.bind, conclude]

/-- A story with a document is answered with everything that is made of it, the document among
    it, and with the document. -/
theorem handle_of_document {g : Graph} {text : String} (hblank : Text.trim story.toList ≠ [])
    (hstory : Graph.ofStory story = .ok g) (hdocument : Bpmn.document g settings = .ok text) :
    ∃ v, g.artifacts settings = .ok v ∧ v.get? "bpmn" = some (.str text) ∧
      (∀ r, Posts settings "/compile" story r → handle settings r = .json 200 v) ∧
      ∀ r, Posts settings "/bpmn" story r → handle settings r = .xml text := by
  have hartifacts : ∃ v, g.artifacts settings = .ok v ∧ v.get? "bpmn" = some (.str text) :=
    ⟨_, Except.bind_eq_ok.mpr ⟨text, hdocument, rfl⟩, rfl⟩
  obtain ⟨v, hv, hbpmn⟩ := hartifacts
  refine ⟨v, hv, hbpmn, fun r h => ?_, fun r h => ?_⟩
  · rw [handle_compile h hblank, hstory]
    simp only [hdocument, hv, bind, Except.bind]
    rfl
  · rw [handle_bpmn h hblank, hstory]
    simp only [hdocument, bind, Except.bind]
    rfl

/-- A request that posts a text of the given type. -/
def posted (path type text : String) : Request :=
  ⟨"POST", path, [("Content-Type", type)], Text.Utf8.encode text, true⟩

/-- The shortest story there is. -/
def shortStory : String := "Flow: A"

/-- A bundle that is nothing but this story. -/
def shortBundle : String := "\x7b\"story\": \"Flow: A\"\x7d"

theorem trim_shortStory : Text.trim shortStory.toList ≠ [] := by decide

theorem parse_shortStory : Story.parse shortStory = .ok [.header ⟨1, "Flow: A"⟩ "A"] := by cbv

theorem path_of_isEndpoint {path : String} (h : IsEndpoint path) :
    Http.Target.path path = path := by
  cases h with
  | compile => cbv
  | bpmn => cbv

/-- The story as a text. -/
theorem posts_shortStory {path : String} (hpath : IsEndpoint path) {settings : Settings}
    (h : 7 ≤ settings.maxBodyBytes) :
    Posts settings path shortStory (posted path "text/plain" shortStory) where
  path_eq := path_of_isEndpoint hpath
  method_eq := by show String.ofList (Text.upper "POST".toList) = "POST"; cbv
  fits := h
  carries := .text (by show Http.MediaType.ofField? "text/plain" = some "text/plain"; cbv)
    (by decide) rfl

theorem read_shortBundle :
    Json.read shortBundle = .ok (.obj [("story", .str "Flow: A")]) := by cbv

/-- The story in a bundle. -/
theorem posts_shortBundle {path : String} (hpath : IsEndpoint path) {settings : Settings}
    (h : 20 ≤ settings.maxBodyBytes) :
    Posts settings path shortStory (posted path "application/json" shortBundle) where
  path_eq := path_of_isEndpoint hpath
  method_eq := by show String.ofList (Text.upper "POST".toList) = "POST"; cbv
  fits := h
  carries := .bundle
    (by show Http.MediaType.ofField? "application/json" = some "application/json"; cbv)
    (by rw [posted, Text.Utf8.decodeLossy_encode, String.ofList_toList]; exact read_shortBundle)
    (show Bundle.ofJson _ = .ok (.ofStory "Flow: A") by rfl) rfl

end Service

end Swimlane
