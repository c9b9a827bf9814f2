import Swimlane.Proofs.Canonical
import Swimlane.Proofs.Drawable

/-!
# States that fall together

The id of an element is made of a mark for the kind of its state and of the id of the state, in
which everything that has no place in an XML id is lost.  So two states may fall together.  This
module says which ones do, and that the first of them is refused, whatever the ids in a document
look like.

## Key results

- `elementId_eq_iff`: two elements have one id if they are of one kind and their ids become one
- `elementIds_of_apart`: states of which no two fall together have elements
- `elementIds_of_collision`: the first state that falls together with an earlier one is refused
-/

namespace Swimlane.Bpmn

/-! ## Ids of elements -/

/-- A mark ends at the first underscore. -/
theorem span_mark (kind : Kind) (s : String) :
    (markOf kind ++ "_" ++ s).toList.span (· != '_') = ((markOf kind).toList, '_' :: s.toList) := by
  have hmark : ∀ c ∈ (markOf kind).toList, (c != '_') = true := by
    apply List.all_eq_true.mp
    cases kind <;> decide
  rw [String.toList_append, String.toList_append, List.append_assoc, List.span_eq_takeWhile_dropWhile,
    List.takeWhile_append_of_pos hmark, List.dropWhile_append_of_pos hmark]
  show ((markOf kind).toList ++ [], '_' :: s.toList) = _
  rw [List.append_nil]

/-- Different kinds have different marks. -/
theorem markOf_inj {kind kind' : Kind} (h : (markOf kind).toList = (markOf kind').toList) :
    kind = kind' := by
  revert h
  cases kind <;> cases kind' <;> decide

/-- Two elements have the same id if they are of one kind and the ids of their states become the
    same XML id.  Underscores in ids do not matter, as no mark has one. -/
theorem elementId_eq_iff {kind kind' : Kind} {a b : String} :
    elementId kind a = elementId kind' b ↔ kind = kind' ∧ Text.xmlId a = Text.xmlId b := by
  unfold elementId
  constructor
  · intro h
    have hspan := span_mark kind (Text.xmlId a)
    rw [h, span_mark kind' (Text.xmlId b), Prod.mk.injEq, List.cons.injEq] at hspan
    exact ⟨markOf_inj hspan.1.symm, String.toList_inj.mp hspan.2.2.symm⟩
  · rintro ⟨rfl, hid⟩
    rw [hid]

/-! ## Collisions -/

/-- Two states fall together: they are of one kind, and their ids become the same XML id. -/
def Collide (s t : State) : Prop :=
  s.body.kind = t.body.kind ∧ Text.xmlId s.id.display = Text.xmlId t.id.display

instance (s t : State) : Decidable (Collide s t) := inferInstanceAs (Decidable (_ ∧ _))

/-- States fall together if their elements have the same id. -/
theorem elementOf_eq_iff {s t : State} : (elementOf s).2 = (elementOf t).2 ↔ Collide s t :=
  elementId_eq_iff

/-- No two of the states fall together. -/
def AllApart (states : List State) : Prop := states.Pairwise fun s t => ¬ Collide s t

instance (states : List State) : Decidable (AllApart states) :=
  inferInstanceAs (Decidable (List.Pairwise _ _))

/-- No two states fall together if their elements have different ids. -/
theorem allApart_iff_nodup {states : List State} :
    AllApart states ↔ (states.map fun s => (elementOf s).2).Nodup := by
  rw [List.Nodup, List.pairwise_map]
  simp only [AllApart, ne_eq, elementOf_eq_iff]

/-- Two states of the list fall together if not all are apart. -/
theorem not_allApart_iff {states : List State} :
    ¬ AllApart states ↔ ∃ s t, [s, t].Sublist states ∧ Collide s t := by
  rw [AllApart, List.pairwise_iff_forall_sublist]
  push Not
  rfl

/-- The state is the first one that falls together with an earlier one. -/
def IsFirstCollision (states : List State) (s : State) : Prop :=
  ∃ before after, states = before ++ s :: after ∧ AllApart before ∧ ∃ t ∈ before, Collide t s

/-- If two states fall together, there is a first one that does. -/
theorem exists_firstCollision {states : List State} (h : ¬ AllApart states) :
    ∃ s, IsFirstCollision states s := by
  -- The states are added one after the other, and the first one to spoil it is the collision.
  induction states using List.reverseRecOn with
  | nil => exact absurd List.Pairwise.nil h
  | append_singleton states s ih =>
    by_cases hstates : AllApart states
    · refine ⟨s, states, [], rfl, hstates, ?_⟩
      by_contra hnone
      apply h
      refine List.pairwise_append.mpr ⟨hstates, List.pairwise_singleton _ _, fun t ht u hu hc => ?_⟩
      rw [List.mem_singleton.mp hu] at hc
      exact hnone ⟨t, ht, hc⟩
    · obtain ⟨t, before, after, heq, hbefore, hcollide⟩ := ih hstates
      exact ⟨t, before, after ++ [s], by simp [heq], hbefore, hcollide⟩

/-! ## Elements of states that were read -/

/-- The label of a state that was read tells its kind. -/
theorem labelledKind_of_loaded {s : State} (h : s.Loaded) : labelledKind s = .ok s.body.kind := by
  rw [labelledKind, h.label_eq, Kind.ofLabel?_name]

/-- The element of a state that was read is added unless its id is in use. -/
theorem elementIdsFrom_cons {s : State} (h : s.Loaded) (used : List String) (rest : List State) :
    elementIdsFrom used (s :: rest) =
      if (elementOf s).2 ∈ used then .error (.layout (.duplicateElement (elementOf s).2))
      else (elementIdsFrom ((elementOf s).2 :: used) rest).map (elementOf s :: ·) := by
  have hid : s.id.asSearchable = .ok s.id.display := by
    conv => lhs; rw [h.id_eq]
    rfl
  simp only [elementIdsFrom, labelledKind_of_loaded h, hid, Except.mapError, bind, Except.bind]
  by_cases hused : elementId s.body.kind s.id.display ∈ used
  · simp only [elementOf, hused, ↓reduceIte]
    rfl
  · simp only [elementOf, hused, ↓reduceIte]
    cases elementIdsFrom (elementId s.body.kind s.id.display :: used) rest <;> rfl

/-- States with elements of their own have them, if none of these is in use before. -/
theorem elementIdsFrom_of_nodup {states : List State} (hloaded : ∀ s ∈ states, s.Loaded)
    {used : List String} (hn : (states.map fun s => (elementOf s).2).Nodup)
    (hused : ∀ s ∈ states, (elementOf s).2 ∉ used) :
    elementIdsFrom used states = .ok (states.map elementOf) := by
  induction states generalizing used with
  | nil => rfl
  | cons s rest ih =>
    rw [List.map_cons, List.nodup_cons] at hn
    -- The element of the first state is in use for the rest.
    have hrest : ∀ t ∈ rest, (elementOf t).2 ∉ (elementOf s).2 :: used := by
      intro t ht hmem
      rcases List.mem_cons.mp hmem with heq | hmem
      · exact hn.1 (List.mem_map.mpr ⟨t, ht, heq⟩)
      · exact hused t (List.mem_cons_of_mem _ ht) hmem
    rw [elementIdsFrom_cons (hloaded s List.mem_cons_self), if_neg (hused s List.mem_cons_self),
      ih (fun t ht => hloaded t (List.mem_cons_of_mem _ ht)) hn.2 hrest]
    rfl

/-- A state whose element is in use, or belongs to an earlier state, is refused. -/
theorem elementIdsFrom_of_mem {before after : List State} {s : State}
    (hloaded : ∀ t ∈ before ++ s :: after, t.Loaded) {used : List String}
    (hn : (before.map fun t => (elementOf t).2).Nodup)
    (hused : ∀ t ∈ before, (elementOf t).2 ∉ used)
    (hs : (elementOf s).2 ∈ used ∨ (elementOf s).2 ∈ before.map fun t => (elementOf t).2) :
    elementIdsFrom used (before ++ s :: after) =
      .error (.layout (.duplicateElement (elementOf s).2)) := by
  induction before generalizing used with
  | nil =>
    have hmem : (elementOf s).2 ∈ used := hs.resolve_right (List.not_mem_nil)
    rw [List.nil_append, elementIdsFrom_cons (hloaded s List.mem_cons_self), if_pos hmem]
  | cons t rest ih =>
    rw [List.map_cons, List.nodup_cons] at hn
    have hrest : ∀ u ∈ rest, (elementOf u).2 ∉ (elementOf t).2 :: used := by
      intro u hu hmem
      rcases List.mem_cons.mp hmem with heq | hmem
      · exact hn.1 (List.mem_map.mpr ⟨u, hu, heq⟩)
      · exact hused u (List.mem_cons_of_mem _ hu) hmem
    -- What is in use only grows, so the element of `s` stays in use or among earlier ones.
    have hs' : (elementOf s).2 ∈ (elementOf t).2 :: used ∨
        (elementOf s).2 ∈ rest.map fun u => (elementOf u).2 := by
      simp only [List.map_cons, List.mem_cons] at hs ⊢
      tauto
    rw [List.cons_append, elementIdsFrom_cons (hloaded t List.mem_cons_self),
      if_neg (hused t List.mem_cons_self),
      ih (fun u hu => hloaded u (List.mem_cons_of_mem _ hu)) hn.2 hrest hs']
    rfl

section Graph

variable {g : Graph}

/-- No state has the element of the start event. -/
theorem elementOf_not_mem_start (s : State) : (elementOf s).2 ∉ [startEventId] := fun h =>
  elementId_ne_startEventId _ _ (List.mem_singleton.mp h)

/-- The elements of a graph that was read, if no two of its states fall together. -/
theorem elementIds_of_apart (h : g.Loaded) (hapart : AllApart g.nodes) :
    elementIds g = .ok (g.nodes.map elementOf) := by
  -- The id of the start event is in use from the beginning, and no state has it.
  have hids := elementIdsFrom_of_nodup h.loaded (allApart_iff_nodup.mp hapart)
    fun s _ => elementOf_not_mem_start s
  refine Except.bind_eq_ok.mpr ⟨_, hids, ?_⟩
  have hkeys : ((g.nodes.map elementOf).map (·.1)).Nodup := by
    rw [List.map_map]
    show (g.nodes.map (·.id.display)).Nodup
    rw [h.map_display]
    exact h.nodup
  rw [Assoc.ofPairs_eq_self hkeys]
  rfl

/-- The first state that falls together with an earlier one is refused. -/
theorem elementIds_of_collision (h : g.Loaded) {s : State} (hs : IsFirstCollision g.nodes s) :
    elementIds g = .error (.layout (.duplicateElement (elementOf s).2)) := by
  obtain ⟨before, after, hnodes, hbefore, t, ht, hcollide⟩ := hs
  have hids : elementIdsFrom [startEventId] g.nodes =
      .error (.layout (.duplicateElement (elementOf s).2)) := by
    rw [hnodes]
    apply elementIdsFrom_of_mem
    · rw [← hnodes]
      exact h.loaded
    · exact allApart_iff_nodup.mp hbefore
    · exact fun u _ => elementOf_not_mem_start u
    · exact Or.inr (List.mem_map.mpr ⟨t, ht, elementOf_eq_iff.mpr hcollide⟩)
  rw [elementIds, hids]
  rfl

end Graph

end Swimlane.Bpmn
