import Swimlane.Proofs.Identifiers
import Swimlane.Proofs.Meaning
import Swimlane.Proofs.Validation

/-!
# Well-formed graphs are valid

The graphs that are made from stories are well formed: states with texts, stored under their ids,
whose edges lead to states.  A run of such a graph that ends shows that a stop can be reached, so
validation succeeds.

## Key results

- `WellFormed.canStop_of_walk`: a run that ends takes a path to a stop
- `WellFormed.valid`: a well-formed graph is valid
- `WellFormed.validate`: the warnings about a well-formed graph
-/

namespace Swimlane.Graph

/-- A graph as stories give rise to: its states hold texts and are stored under their ids, which
    are identifiers, they say where to go on, its edges lead to states, and some run of it ends. -/
structure WellFormed (g : Graph) : Prop extends Keyed g where
  textual : ∀ s ∈ g.nodes, s.Textual
  named : ∀ key ∈ g.keys, Text.IsIdentifier key
  start : ∃ key ∈ g.keys, g.start = .str key
  targets : ∀ s ∈ g.nodes, ∀ t ∈ s.targets, ∃ key ∈ g.keys, t = .str key
  leads : ∀ s ∈ g.nodes, s.leadsOn = true
  ends : ∃ holds count ending, g.walk holds count [] g.start = some ending

namespace WellFormed

variable {g : Graph}

/-- A choice that says where to go on has a last resort. -/
theorem otherwise_of_leadsOn {s : State} (h : s.leadsOn = true) {branches : State.Branches}
    {otherwise : Json} (hb : s.body = .choice branches otherwise) : otherwise.isGiven = true := by
  rw [State.leadsOn, hb] at h
  exact h

/-- The states of a well-formed graph have texts for their ids and targets. -/
theorem assembled (h : g.WellFormed) : g.Assembled := by
  have hstart : g.start.isName = true := by
    obtain ⟨key, _, hkey⟩ := h.start
    rw [hkey]
    rfl
  refine ⟨h.toKeyed, hstart, fun s hs => ?_⟩
  have ht := h.textual s hs
  refine ⟨⟨_, ht.id_eq⟩, ht.label_eq, ht.edgeMisfit?, fun t hmem => ?_⟩
  exact (h.targets s hs t hmem).imp fun _ hk => hk.2

/-! ## Runs and paths -/

/-- A value is a target if it is given. -/
theorem mem_ite_of_ne {v : String} (h : v ≠ "") :
    Json.str v ∈ if (Json.str v).isGiven then [Json.str v] else [] := by
  rw [if_pos (by simpa [Json.isGiven] using h)]
  exact List.mem_singleton.mpr rfl

/-- A state with texts sends a run along one of its edges, or nowhere. -/
theorem mem_targets_of_step {s : State} (h : s.Textual) {holds : Valuation}
    {trace trace' : List Action} {next : Json} (hstep : s.step holds trace = .leads trace' next) :
    next = .str "" ∨ next ∈ s.targets := by
  -- An edge that is not there is the empty text.
  have hedge : ∀ v : String, Json.str v = .str "" ∨
      Json.str v ∈ if (Json.str v).isGiven then [Json.str v] else [] := by
    intro v
    by_cases hv : v = ""
    · exact Or.inl (by rw [hv])
    · exact Or.inr (mem_ite_of_ne hv)
  cases h with
  | userTask id prompt assignee form n _ => cases hstep; exact hedge n
  | task id action n => cases hstep; exact hedge n
  | send id channel recipient message n => cases hstep; exact hedge n
  | stop id reason => cases hstep
  | choice id exits otherwise =>
    simp only [State.step, State.make] at hstep
    simp only [State.make, State.targets, List.mem_append]
    split at hstep
    · rename_i b hb
      cases hstep
      exact Or.inr (Or.inl (List.mem_map.mpr ⟨b, List.mem_of_find?_eq_some hb, rfl⟩))
    · cases hstep
      exact (hedge otherwise).imp_right Or.inr

/-- Only a stop ends a run. -/
theorem isStop_of_step {s : State} {holds : Valuation} {trace : List Action} {ending : Ending}
    (hstep : s.step holds trace = .ends ending) : s.isStop = true := by
  cases hb : s.body with
  | stop reason => simp only [State.isStop, hb]
  | choice branches otherwise =>
    simp only [State.step, hb] at hstep
    split at hstep <;> cases hstep
  | _ => simp only [State.step, hb] at hstep; cases hstep

/-- A run that ends takes a path to a stop. -/
theorem canStop_of_walk (h : g.WellFormed) {holds : Valuation} (count : Nat)
    {trace : List Action} {key : String} {ending : Ending}
    (hw : g.walk holds count trace (.str key) = some ending) : g.CanStop key := by
  induction count generalizing trace key with
  | zero => cases hw
  | succ n ih =>
    simp only [walk, Json.asId?, Option.bind_eq_bind, Option.bind_some] at hw
    cases hf : g.find? key with
    | none => rw [hf] at hw; cases hw
    | some s =>
      simp only [hf, Option.bind_some] at hw
      have hs := mem_nodes_of_find? hf
      have hid := h.id_of_find? hf
      cases hstep : s.step holds trace with
      | ends e => exact ⟨s, hs, isStop_of_step hstep, key, hid, .refl⟩
      | leads trace' next =>
        simp only [hstep] at hw
        rcases mem_targets_of_step (h.textual s hs) hstep with rfl | hmem
        · -- No state is stored under the empty text.
          have hnone : g.find? "" = none :=
            Assoc.get?_eq_none fun hmem => (h.named "" hmem).ne_empty rfl
          cases n with
          | zero => cases hw
          | succ n => simp [walk, Json.asId?, hnone] at hw
        · -- The step goes along an edge, from where the rest of the run takes a path.
          obtain ⟨key', _, rfl⟩ := h.targets s hs next hmem
          obtain ⟨stop, hmem', hstop, id, hid', hpath⟩ := ih hw
          exact ⟨stop, hmem', hstop, id, hid', hpath.head (leads_iff.mpr ⟨s, hs, hid, hmem⟩)⟩

/-! ## Validation -/

/-- A well-formed graph is valid. -/
theorem valid (h : g.WellFormed) : g.Valid where
  nonempty := by
    obtain ⟨key, hk, _⟩ := h.start
    intro hnil
    rw [keys, hnil] at hk
    cases hk
  start := h.start
  choices := fun s hs _ _ hb => Or.inr (otherwise_of_leadsOn (h.leads s hs) hb)
  targets := h.targets
  stops := by
    intro key hkey
    obtain ⟨holds, count, ending, hw⟩ := h.ends
    rw [hkey] at hw
    exact h.canStop_of_walk count hw

/-- A well-formed graph is accepted, with the warnings that it deserves. -/
theorem validate (h : g.WellFormed) {key : String} (hstart : g.start = .str key) :
    g.validate = .ok (g.defects key) :=
  h.assembled.validateFrom_of_valid h.valid hstart (List.Perm.refl _)

/-- A well-formed graph is accepted, and keeps everything but its warnings. -/
theorem validated (h : g.WellFormed) : ∃ warnings, g.validated = .ok { g with warnings } := by
  obtain ⟨key, _, hstart⟩ := h.start
  refine ⟨g.defects key, ?_⟩
  rw [Graph.validated, h.validate hstart]
  rfl

end WellFormed

end Swimlane.Graph
