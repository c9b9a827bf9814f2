import Swimlane.Proofs.Canonical
import Swimlane.Proofs.JsonText
import Swimlane.Proofs.Validity

/-!
# Script documents are read back

A well-formed graph is canonical: its states hold texts and say where to go on, so there is nothing
that reading could fill in differently.  It is read back from its document, with the warnings that
its validation gives, and its document is read back from its text.

## Key results

- `State.canonical_eq_self`: a state with texts that says where to go on is canonical
- `Graph.WellFormed.ofJson_toJson`: a well-formed graph with its warnings is read back from its
  document
- `Graph.WellFormed.readable_toJson`: the document of a well-formed graph is read back from its text
-/

namespace Swimlane

/-! ## Canonical values -/

/-- A rule with texts is canonical. -/
theorem Rule.canonical_eq_self {r : Rule} (h : r.Textual) : r.canonical = r := by
  obtain ⟨message, hm⟩ := h.message
  rw [Rule.canonical, hm, Json.givenOr_str, ← hm]

/-- A field with texts is canonical. -/
theorem Field.canonical_eq_self {f : Field} (h : f.Textual) : f.canonical = f := by
  have hrules : f.rules.map Rule.canonical = f.rules :=
    (List.map_congr_left fun r hr => Rule.canonical_eq_self (h.rules r hr)).trans (List.map_id' _)
  rw [Field.canonical, hrules]

/-- A form with texts is canonical. -/
theorem Form.canonical_eq_self {f : Form} (h : f.Textual) : f.canonical = f := by
  have hfields : f.fields.map Field.canonical = f.fields :=
    (List.map_congr_left fun field hf => Field.canonical_eq_self (h.fields field hf)).trans
      (List.map_id' _)
  rw [Form.canonical, hfields]

namespace State

/-- A state with texts is one as documents give rise to. -/
theorem Textual.loaded {s : State} (h : s.Textual) : s.Loaded := by
  cases h with
  | userTask id prompt assignee form next _ => exact .userTask id _ _ form _
  | task id action next => exact .task id _ _
  | choice id exits otherwise => exact .choice id _ _
  | send id channel recipient message next => exact .send id _ _ _ _
  | stop id reason => exact .stop id _

/-- A state with texts that says where to go on is canonical. -/
theorem canonical_eq_self {s : State} (h : s.Textual) (hl : s.leadsOn = true) :
    s.canonical = s := by
  cases h with
  | userTask id prompt assignee form next hform =>
    have hnext := Json.givenOr_of_isGiven (show (Json.str next).isGiven = true from hl) .null
    have hforms : (form.map .ok).map (Except.map (ε := Misfit) Form.canonical) = form.map .ok := by
      cases form with
      | none => rfl
      | some f => exact congrArg (some ∘ Except.ok) (Form.canonical_eq_self (hform f rfl))
    simp only [make, canonical, Body.canonical, Json.givenOr_str, hnext, hforms, Body.kind]
  | task id action next =>
    have hnext := Json.givenOr_of_isGiven (show (Json.str next).isGiven = true from hl) .null
    simp only [make, canonical, Body.canonical, hnext]
  | choice id exits otherwise =>
    have hlast := Json.givenOr_of_isGiven (show (Json.str otherwise).isGiven = true from hl) .null
    simp only [make, canonical, Body.canonical, hlast, Body.kind]
    rfl
  | send id channel recipient message next =>
    have hnext := Json.givenOr_of_isGiven (show (Json.str next).isGiven = true from hl) .null
    simp only [make, canonical, Body.canonical, hnext]
  | stop id reason => rfl

end State

namespace Graph.WellFormed

variable {g : Graph}

/-- A well-formed graph is canonical. -/
theorem canonical_eq_self (h : g.WellFormed) : g.mapStates State.canonical = g := by
  have hstates : g.states.map (fun p => (p.1, p.2.canonical)) = g.states := by
    refine (List.map_congr_left fun p hp => ?_).trans (List.map_id' _)
    have hs : p.2 ∈ g.nodes := List.mem_map.mpr ⟨p, hp, rfl⟩
    rw [State.canonical_eq_self (h.textual _ hs) (h.leads _ hs)]
  rw [mapStates, hstates]

/-- A well-formed graph with its warnings is read back from its document. -/
theorem ofJson_toJson (h : g.WellFormed) (hw : g.validate = .ok g.warnings) :
    ofJson g.toJson = .ok g := by
  obtain ⟨key, _, hstart⟩ := h.start
  have hread := Graph.ofJson_toJson h.toKeyed (fun s hs => (h.textual s hs).loaded) hstart
    (by rw [h.canonical_eq_self]; exact hw)
  rwa [h.canonical_eq_self] at hread

end Graph.WellFormed

/-! ## Texts of documents -/

namespace Json

/-- A list is readable if its items are. -/
theorem readableItems_iff {vs : List Json} : ReadableItems vs ↔ ∀ v ∈ vs, v.Readable := by
  induction vs with
  | nil => simp [ReadableItems]
  | cons v vs ih => simp [ReadableItems, ih]

/-- The members of an object are readable if their values are. -/
theorem readableMembers_iff {ms : List (String × Json)} :
    ReadableMembers ms ↔ ∀ m ∈ ms, m.2.Readable := by
  induction ms with
  | nil => simp [ReadableMembers]
  | cons m ms ih =>
    obtain ⟨name, v⟩ := m
    simp [ReadableMembers, ih]

/-- Members whose names are some of the given ones, in order, and whose values are readable. -/
structure Fits (names : List String) (members : List (String × Json)) : Prop where
  names : (members.map (·.1)).Sublist names
  values : ∀ m ∈ members, m.2.Readable

namespace Fits

/-- No members. -/
theorem nil : Fits [] [] := ⟨List.Sublist.refl _, fun _ h => nomatch h⟩

/-- One more member. -/
theorem cons {names : List String} {members : List (String × Json)} (key : String) {v : Json}
    (hv : v.Readable) (h : Fits names members) : Fits (key :: names) ((key, v) :: members) where
  names := h.names.cons_cons key
  values := by
    intro m hm
    rcases List.mem_cons.mp hm with rfl | hm
    · exact hv
    · exact h.values m hm

/-- Some members and others behind them. -/
theorem append {ns ns' : List String} {ms ms' : List (String × Json)} (h : Fits ns ms)
    (h' : Fits ns' ms') : Fits (ns ++ ns') (ms ++ ms') where
  names := by rw [List.map_append]; exact h.names.append h'.names
  values := fun m hm => (List.mem_append.mp hm).elim (h.values m) (h'.values m)

/-- A member that may be left out. -/
theorem optional {key : String} {v : Json} (hv : v.Readable) {members : List (String × Json)}
    (h : members = [] ∨ members = [(key, v)]) : Fits [key] members := by
  rcases h with rfl | rfl
  · exact ⟨List.nil_sublist _, fun _ h => nomatch h⟩
  · exact nil.cons key hv

/-- A member that is left out if it is not given. -/
theorem ifGiven (key : String) {v : Json} (hv : v.Readable) : Fits [key] (Json.ifGiven key v) := by
  refine optional hv ?_
  rw [Json.ifGiven]
  split
  · exact Or.inr rfl
  · exact Or.inl rfl

/-- A member that is left out if it is null. -/
theorem unlessNull (key : String) {v : Json} (hv : v.Readable) :
    Fits [key] (Json.unlessNull key v) := by
  refine optional hv ?_
  rw [Json.unlessNull]
  split
  · exact Or.inl rfl
  · exact Or.inr rfl

/-- An object of such members is readable, if the names differ from each other. -/
theorem readable {names : List String} {members : List (String × Json)} (h : Fits names members)
    (hn : names.Nodup) : (obj members).Readable :=
  ⟨h.names.nodup hn, readableMembers_iff.mpr h.values⟩

end Fits

/-- A text is readable. -/
theorem readable_str (s : String) : (str s).Readable := trivial

/-- A value that is a text is readable. -/
theorem readable_of_text {v : Json} (h : ∃ s, v = .str s) : v.Readable := by
  obtain ⟨s, rfl⟩ := h
  trivial

/-- A list of written values is readable if they are. -/
theorem readable_arr_map {α : Type} {xs : List α} {f : α → Json} (h : ∀ x ∈ xs, (f x).Readable) :
    (arr (xs.map f)).Readable := by
  refine readableItems_iff.mpr fun v hv => ?_
  obtain ⟨x, hx, rfl⟩ := List.mem_map.mp hv
  exact h x hx

/-- The bounds in rules are readable. -/
theorem IsBound.readable {v : Json} (h : v.IsBound) : v.Readable := by
  cases h with
  | null => trivial
  | int n hn =>
    have hpow : 10 ^ 4 ≤ 10 ^ Numeral.maxDigits :=
      Nat.pow_le_pow_right (by omega) (by simp [Numeral.maxDigits])
    show n < 10 ^ Numeral.maxDigits
    omega

/-- The patterns in rules are readable. -/
theorem IsPattern.readable {v : Json} (h : v.IsPattern) : v.Readable := by
  cases h <;> trivial

end Json

open Json (Fits readable_str readable_of_text readable_arr_map)

/-- The document of a rule is readable. -/
theorem Rule.readable_toJson {r : Rule} (h : r.Textual) : r.toJson.Readable := by
  have hfits : Fits ["type", "pattern", "min", "max", "value", "message"] _ :=
    (((((Fits.nil.cons "type" (readable_of_text h.type)).append
      (.unlessNull "pattern" h.pattern.readable)).append (.unlessNull "min" h.min.readable)).append
      (.unlessNull "max" h.max.readable)).append (.unlessNull "value" h.value.readable)).append
      (.ifGiven "message" (readable_of_text h.message))
  exact hfits.readable (by decide)

/-- The document of an option is readable. -/
theorem Choice.readable_toJson {c : Choice} (h : c.Textual) : c.toJson.Readable := by
  have hfits : Fits ["value", "label"] _ :=
    (Fits.nil.cons "label" (readable_of_text h.label)).cons "value" (readable_of_text h.value)
  exact hfits.readable (by decide)

/-- The document of a field is readable. -/
theorem Field.readable_toJson {f : Field} (h : f.Textual) : f.toJson.Readable := by
  have hrules : (Json.obj [("rules", .arr (f.rules.map Rule.toJson))]).Readable :=
    (Fits.nil.cons "rules"
      (readable_arr_map fun r hr => Rule.readable_toJson (h.rules r hr))).readable (by decide)
  have hoptions : Fits ["options"] (if f.options.isEmpty then [] else
      [("options", .arr (f.options.map Choice.toJson))]) := by
    refine .optional (readable_arr_map fun c hc => Choice.readable_toJson (h.options c hc)) ?_
    split
    · exact Or.inl rfl
    · exact Or.inr rfl
  have hfits : Fits ["name", "label", "type", "validation", "options"] _ :=
    ((((Fits.nil.cons "validation" hrules).cons "type" (readable_of_text h.type)).cons "label"
      (readable_of_text h.label)).cons "name" (readable_of_text h.name)).append hoptions
  exact hfits.readable (by decide)

/-- The document of a form is readable. -/
theorem Form.readable_toJson {f : Form} (h : f.Textual) : f.toJson.Readable := by
  have hfields : (Json.arr (f.fields.map Field.toJson)).Readable :=
    readable_arr_map fun field hf => Field.readable_toJson (h.fields field hf)
  have hfits : Fits ["id", "title", "fields"] _ :=
    ((Fits.nil.cons "fields" hfields).cons "title" (readable_of_text h.title)).cons "id"
      (readable_of_text h.id)
  exact hfits.readable (by decide)

/-- The branches of a choice with texts are readable. -/
theorem State.readable_branchesOf (exits : List (String × String)) :
    (Json.arr ((State.branchesOf exits).items.map State.Branch.toJson)).Readable := by
  refine readable_arr_map fun b hb => ?_
  obtain ⟨⟨condition, next⟩, _, rfl⟩ := List.mem_map.mp hb
  have hfits : Fits ["condition", "next"] _ :=
    (Fits.nil.cons "next" (readable_str next)).cons "condition" (readable_str condition)
  exact hfits.readable (by decide)

/-- The document of a state with texts is readable. -/
theorem State.readable_toJson {s : State} (h : s.Textual) : s.toJson.Readable := by
  -- The members by what a state does stand between its kind and where it leads.
  have hstate : ∀ (id label : String) (body : State.Body) (next : Json) (names : List String),
      next.Readable → Fits names body.members → (["id", "kind"] ++ names ++ ["next"]).Nodup →
      (State.toJson ⟨.str id, .str label, body, next⟩).Readable := by
    intro id label body next names hnext hbody hn
    have hfits : Fits (["id", "kind"] ++ names ++ ["next"]) _ :=
      (((Fits.nil.cons "kind" (readable_str label)).cons "id" (readable_str id)).append
        hbody).append (.ifGiven "next" hnext)
    exact hfits.readable hn
  cases h with
  | userTask id prompt assignee form next hform =>
    have hhead : Fits ["prompt", "assignee"] _ :=
      (Fits.ifGiven "assignee" (readable_str assignee)).cons "prompt" (readable_str prompt)
    cases form with
    | none => exact hstate _ _ _ _ _ (readable_str next) (hhead.append Fits.nil) (by decide)
    | some f =>
      have hform : Fits ["form"] _ := Fits.nil.cons "form" (Form.readable_toJson (hform f rfl))
      exact hstate _ _ _ _ _ (readable_str next) (hhead.append hform) (by decide)
  | task id action next =>
    exact hstate _ _ _ _ ["action"] (readable_str next)
      (Fits.nil.cons "action" (readable_str action)) (by decide)
  | choice id exits otherwise =>
    have hbody : Fits ["branches", "otherwise"] _ :=
      (Fits.ifGiven "otherwise" (readable_str otherwise)).cons "branches"
        (State.readable_branchesOf exits)
    exact hstate _ _ _ _ _ trivial hbody (by decide)
  | send id channel recipient message next =>
    have hbody : Fits ["channel", "to", "message"] _ :=
      ((Fits.nil.cons "message" (readable_str message)).cons "to" (readable_str recipient)).cons
        "channel" (readable_str channel)
    exact hstate _ _ _ _ _ (readable_str next) hbody (by decide)
  | stop id reason =>
    exact hstate _ _ _ _ ["reason"] trivial (Fits.nil.cons "reason" (readable_str reason))
      (by decide)

/-- The document of a well-formed graph is readable. -/
theorem Graph.WellFormed.readable_toJson {g : Graph} (h : g.WellFormed) : g.toJson.Readable := by
  have hstates : (Json.arr (g.nodes.map State.toJson)).Readable :=
    readable_arr_map fun s hs => State.readable_toJson (h.textual s hs)
  have hstart : ∃ key, g.start = .str key := h.start.imp fun _ hk => hk.2
  have hfits : Fits ["flow", "start", "states"] _ :=
    ((Fits.nil.cons "states" hstates).cons "start" (readable_of_text hstart)).cons "flow"
      (readable_of_text ⟨g.name, rfl⟩)
  exact hfits.readable (by decide)

/-- A well-formed graph with its warnings is read back from its script. -/
theorem Graph.WellFormed.ofText_script {g : Graph} (h : g.WellFormed)
    (hw : g.validate = .ok g.warnings) : Graph.ofText g.script = .ok g := by
  have hread : Json.read g.script = .ok g.toJson :=
    Json.read_pretty h.readable_toJson (by simp [Json.isGap])
  rw [Graph.ofText, hread]
  exact h.ofJson_toJson hw

end Swimlane
