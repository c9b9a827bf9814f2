import Swimlane.Proofs.Emission

/-!
# Documents with values of any type

A document is taken as it comes, so any value may stand where a text, a list or an object belongs.
Whether all values have the types that they are to have can be checked on the document alone.  If
they have, reading it fails with a fault only, and all that is to be shown of its states are texts.
If they have not, reading may also fail with a misfit, but only with one of four kinds.

## Key results

- `Except.Ends`: what a step gives if it succeeds, and how it may fail
- `Json.isScript`: whether the values of a document have the right types
- `State.ends_ofJson`: how reading a state ends
- `Graph.ends_ofJson`: how reading a document ends
-/

namespace Except

variable {ε ε' α β : Type} {good : α → Prop} {good' : β → Prop} {bad : ε → Prop}

/-- How a step ends: if it succeeds the result is good, and if it fails the error is of a certain
    kind. -/
def Ends (step : Except ε α) (good : α → Prop) (bad : ε → Prop) : Prop :=
  match step with
  | .ok a => good a
  | .error e => bad e

namespace Ends

/-- A step that succeeds with a good result. -/
theorem ok {a : α} (h : good a) : Ends (.ok a : Except ε α) good bad := h

/-- A step that fails. -/
theorem error {e : ε} (h : bad e) : Ends (.error e : Except ε α) good bad := h

/-- Less may be said of the results and of the errors. -/
theorem mono {x : Except ε α} {good₁ : α → Prop} {bad₁ : ε → Prop} (h : Ends x good bad)
    (hgood : ∀ a, good a → good₁ a) (hbad : ∀ e, bad e → bad₁ e) : Ends x good₁ bad₁ := by
  cases x with
  | error e => exact hbad e h
  | ok a => exact hgood a h

/-- The result is the one of the step. -/
theorem and_eq {x : Except ε α} (h : Ends x good bad) :
    Ends x (fun a => x = .ok a ∧ good a) bad := by
  cases x with
  | error e => exact h
  | ok a => exact ⟨rfl, h⟩

/-- Two steps one after the other. -/
theorem bind {x : Except ε α} {f : α → Except ε β} (hx : Ends x good bad)
    (hf : ∀ a, good a → Ends (f a) good' bad) : Ends (x >>= f) good' bad := by
  cases x with
  | error e => exact hx
  | ok a => exact hf a hx

/-- A step whose errors are told in another way. -/
theorem mapError {x : Except ε α} {f : ε → ε'} {bad' : ε' → Prop} (h : Ends x good bad)
    (hf : ∀ e, bad e → bad' (f e)) : Ends (x.mapError f) good bad' := by
  cases x with
  | error e => exact hf e h
  | ok a => exact h

/-- A step for every item of a list. -/
theorem mapM {f : α → Except ε β} {xs : List α} (h : ∀ x ∈ xs, Ends (f x) good' bad) :
    Ends (xs.mapM f) (fun ys => ∀ y ∈ ys, good' y) bad := by
  induction xs with
  | nil => exact fun _ hy => nomatch hy
  | cons x xs ih =>
    rw [List.mapM_cons]
    refine (h x List.mem_cons_self).bind fun y hy => ?_
    refine (ih fun z hz => h z (List.mem_cons_of_mem _ hz)).bind fun ys hys => ?_
    exact ok (List.forall_mem_cons.mpr ⟨hy, hys⟩)

/-- A step for every item of a list, of whose results nothing is said. -/
theorem mapM_any {f : α → Except ε β} {xs : List α}
    (h : ∀ x ∈ xs, Ends (f x) (fun _ => True) bad) : Ends (xs.mapM f) (fun _ => True) bad :=
  (mapM h).mono (fun _ _ => trivial) fun _ he => he

end Ends

end Except

namespace Swimlane

/-! ## Types of values -/

namespace Json

/-- Whether a value is an object. -/
def isObj : Json → Bool
  | .obj _ => true
  | _ => false

/-- Whether a value is a list of values that pass a check. -/
def isListOf (check : Json → Bool) : Json → Bool
  | .arr vs => vs.all check
  | _ => false

/-- Whether a member of a value passes a check if it is there. -/
def memberFits (v : Json) (key : String) (check : Json → Bool) : Bool := (v.get? key).all check

/-- Whether the values in a field of a form have the right types. -/
def isFieldEntry (v : Json) : Bool := v.memberFits "validation" isObj

/-- Whether the values in a form have the right types. -/
def isFormEntry (v : Json) : Bool :=
  v.memberFits "id" isStr && v.memberFits "fields" (isListOf isFieldEntry)

/-- Whether the values in a branch have the right types. -/
def isBranchEntry (v : Json) : Bool :=
  v.isObj && v.memberFits "condition" isStr && v.memberFits "next" isName

/-- The members of states that are shown and so must be texts. -/
def textMembers : List String := ["prompt", "assignee", "action", "channel", "reason"]

/-- Whether the values in a state have the right types: texts where a text is shown, no list or
    object where a state is named, and objects for branches and forms. -/
def isStateEntry (v : Json) : Bool :=
  textMembers.all (v.memberFits · isStr) &&
  (v.memberFits "next" isName && v.memberFits "otherwise" isName) &&
  v.memberFits "branches" (isListOf isBranchEntry) &&
  v.memberFits "form" (fun form => form.isNull || form.isFormEntry)

/-- Whether the values in the states of a document have the right types. -/
def isScript (v : Json) : Bool :=
  match v.get? "states" with
  | some (.arr entries) => entries.all isStateEntry
  | _ => true

variable {v : Json} {key : String} {check : Json → Bool}

/-- A member that fits passes its check. -/
theorem check_of_memberFits (h : v.memberFits key check = true) {w : Json}
    (hw : v.get? key = some w) : check w = true := by
  rw [memberFits, hw] at h
  exact h

/-- A member that fits, or a default that does, passes the check. -/
theorem check_getD (h : v.memberFits key check = true) (default : Json)
    (hdefault : check default = true) : check (v.getD key default) = true := by
  unfold getD
  cases hw : v.get? key with
  | none => exact hdefault
  | some w => exact check_of_memberFits h hw

/-- What is asked of the members of a state. -/
theorem isStateEntry_iff : v.isStateEntry = true ↔
    (∀ key ∈ textMembers, v.memberFits key isStr = true) ∧
    v.memberFits "next" isName = true ∧ v.memberFits "otherwise" isName = true ∧
    v.memberFits "branches" (isListOf isBranchEntry) = true ∧
    v.memberFits "form" (fun form => form.isNull || form.isFormEntry) = true := by
  simp only [isStateEntry, Bool.and_eq_true, List.all_eq_true]
  tauto

end Json

/-! ## Misfits while reading -/

/-- The misfits that reading a document can end with: something other than an object or a list
    stands where one belongs, or a list or an object stands where a name belongs. -/
def Misfit.IsOfShape : Misfit → Prop
  | .noMembers _ => True
  | .noItems _ => True
  | .notObject => True
  | .notName => True
  | _ => False

/-- How reading may fail: with a fault, and with a misfit only if the types are not right. -/
def Failure.Refuses (typed : Prop) : Failure → Prop
  | .graph _ => True
  | .misfit m => ¬ typed ∧ m.IsOfShape
  | _ => False

/-- The types of a part are right if those of the whole are. -/
theorem Failure.Refuses.mono {typed typed' : Prop} (h : typed' → typed) {f : Failure}
    (hf : f.Refuses typed) : f.Refuses typed' := by
  cases f with
  | graph fault => trivial
  | misfit m => exact ⟨fun ht => hf.1 (h ht), hf.2⟩
  | _ => exact hf

open Except (Ends)

/-- A member that must be there is there, or it is missing, or the value has no members. -/
theorem Json.ends_member (v : Json) (key : String) :
    Ends (v.member key) (fun w => v.get? key = some w) (· ≠ .notObject) := by
  cases v with
  | obj members =>
    cases hw : Assoc.get? key members with
    | none =>
      simp only [Json.member, hw]
      exact fun h => by cases h
    | some w =>
      simp only [Json.member, hw]
      exact hw
  | _ => exact fun h => by cases h

/-- The items of a list of values that pass a check pass it.  What has no items is no list. -/
theorem Json.ends_items (v : Json) :
    Ends v.items (fun ws => ∀ check, v.isListOf check = true → ∀ w ∈ ws, check w = true)
      (fun m => m = .noItems v.typeName ∧ ∀ check, v.isListOf check = false) := by
  cases v with
  | arr vs => exact Ends.ok fun check h => List.all_eq_true.mp h
  | str s => exact Ends.ok fun check h => nomatch h
  | obj members => exact Ends.ok fun check h => nomatch h
  | _ => exact Ends.error ⟨rfl, fun _ => rfl⟩

/-! ## Forms -/

/-- Only a field with something else than an object for its rules fails because of it. -/
theorem Field.ends_ofJson (v : Json) :
    Ends (Field.ofJson v) (fun _ => True) (fun m => m = .notObject → ¬ v.isFieldEntry = true) := by
  have hother : ∀ m : Misfit, m ≠ .notObject → m = .notObject → ¬ v.isFieldEntry = true :=
    fun m hne heq => absurd heq hne
  have hmember : ∀ (w : Json) (key : String), Ends (w.member key) (fun _ => True)
      (fun m => m = .notObject → ¬ v.isFieldEntry = true) := fun w key =>
    (w.ends_member key).mono (fun _ _ => trivial) hother
  have hitems : ∀ w : Json, Ends w.items (fun _ => True)
      (fun m => m = .notObject → ¬ v.isFieldEntry = true) := fun w =>
    w.ends_items.mono (fun _ _ => trivial) fun m hm => hother m fun h => by
      rw [hm.1] at h; cases h
  unfold Field.ofJson
  refine (hmember v "name").bind fun _ _ => (hmember v "label").bind fun _ _ =>
    (hmember v "type").bind fun _ _ => ?_
  -- The rules are asked for by a way that only objects have.
  have hrules : Ends ((v.getD "validation" (.obj [])).optional "rules" (.arr [])) (fun _ => True)
      (fun m => m = .notObject → ¬ v.isFieldEntry = true) := by
    cases hw : v.getD "validation" (.obj []) with
    | obj members => exact trivial
    | _ =>
      refine Ends.error fun _ htyped => ?_
      have hobj := Json.check_getD htyped (.obj []) rfl
      rw [hw] at hobj
      cases hobj
  refine hrules.bind fun rules _ => (hitems rules).bind fun entries _ => ?_
  refine (Ends.mapM_any fun entry _ => ?_).bind fun _ _ =>
    (hitems _).bind fun options _ => (Ends.mapM_any fun option _ => ?_).bind
      fun _ _ => trivial
  · exact (hmember entry "type").bind fun _ _ => trivial
  · exact (hmember option "value").bind fun _ _ => (hmember option "label").bind fun _ _ => trivial

/-- A form has the id that the document gives, and only a form with such a field fails because of
    it. -/
theorem Form.ends_ofJson (v : Json) : Ends (Form.ofJson v) (fun f => v.get? "id" = some f.id)
    (fun m => m = .notObject → ¬ v.isFormEntry = true) := by
  have hmember : ∀ key : String, Ends (v.member key) (fun w => v.get? key = some w)
      (fun m => m = .notObject → ¬ v.isFormEntry = true) := fun key =>
    (v.ends_member key).mono (fun _ h => h) fun m hne heq => absurd heq hne
  unfold Form.ofJson
  refine (hmember "id").bind fun id hid => (hmember "title").bind fun title _ => ?_
  refine ((v.getD "fields" (.arr [])).ends_items.mono (fun _ h => h) fun m hm heq => ?_).bind
    fun entries hentries => (Ends.mapM_any fun entry hentry => ?_).bind
      fun fields _ => hid
  · rw [hm.1] at heq
    cases heq
  · refine (Field.ends_ofJson entry).mono (fun _ _ => trivial) fun m hm heq htyped => hm heq ?_
    have hfields := Json.check_getD (Bool.and_eq_true_iff.mp htyped).2 (.arr []) rfl
    exact hentries _ hfields entry hentry

namespace State

/-- The id of a form in a document is a text if the types are right. -/
theorem ends_formOf (id : String) (v : Json) : Ends (formOf id v)
    (fun form => (v.isNull || v.isFormEntry) = true → ∀ f ∈ form, f.id.isStr = true)
    (Failure.Refuses ((v.isNull || v.isFormEntry) = true)) := by
  unfold formOf
  by_cases hnull : v.isNull = true
  · rw [if_pos hnull]
    exact Ends.ok fun _ f hf => nomatch hf
  · rw [if_neg hnull]
    -- Of the misfits of a form only one is not told as a fault.
    have hform := Form.ends_ofJson v
    have htyped : (v.isNull || v.isFormEntry) = true → v.isFormEntry = true := by
      simp [hnull]
    cases hread : Form.ofJson v with
    | ok f =>
      rw [hread] at hform
      refine Ends.ok fun ht f' hf' => ?_
      cases hf'
      exact Json.check_of_memberFits (Bool.and_eq_true_iff.mp (htyped ht)).1 hform
    | error m =>
      rw [hread] at hform
      by_cases hm : m = .notObject
      · subst hm
        exact Ends.error ⟨fun ht => hform rfl (htyped ht), trivial⟩
      · cases m with
        | notObject => exact absurd rfl hm
        | _ => trivial

/-! ## States -/

/-- A member that an object must have is there or missing; other values have no members. -/
theorem ends_require (id : String) {v : Json} {typed : Prop} (hv : typed → v.isObj = true)
    (key : String) : Ends (require id v key) (fun w => v.get? key = some w)
      (Failure.Refuses typed) := by
  have hobj : v.isObj = false → ¬ typed := fun hv' ht => by rw [hv ht] at hv'; cases hv'
  unfold require
  cases v with
  | obj members =>
    by_cases hany : members.any (·.1 == key) = true
    · obtain ⟨p, hp, hkey⟩ := List.any_eq_true.mp hany
      obtain ⟨w, hw⟩ := Assoc.exists_get? (List.mem_map.mpr ⟨p, hp, eq_of_beq hkey⟩)
      simp only [Json.holds?, hany, Json.member, hw]
      exact hw
    · simp only [Json.holds?, Bool.eq_false_iff.mpr hany]
      trivial
  | str _ | arr _ =>
    -- A text or a list may contain the key, but has nothing under it.
    simp only [Json.holds?]
    split
    · exact Ends.error ⟨hobj rfl, trivial⟩
    · trivial
    · exact Ends.error ⟨hobj rfl, trivial⟩
  | _ => exact Ends.error ⟨hobj rfl, trivial⟩

/-- A branch has a text for its condition and names a state, if the types are right. -/
theorem Branch.ends_ofJson (id : String) (v : Json) : Ends (Branch.ofJson id v)
    (fun b => v.isBranchEntry = true → b.condition.isStr = true ∧ b.next.isName = true)
    (Failure.Refuses (v.isBranchEntry = true)) := by
  have hsplit : v.isBranchEntry = true → (v.isObj = true ∧
      v.memberFits "condition" Json.isStr = true) ∧ v.memberFits "next" Json.isName = true := by
    simp only [Json.isBranchEntry, Bool.and_eq_true]
    exact fun h => h
  unfold Branch.ofJson
  refine (ends_require id (fun h => (hsplit h).1.1) "condition").bind fun condition hcondition => ?_
  refine (ends_require id (fun h => (hsplit h).1.1) "next").bind fun next hnext => ?_
  exact Ends.ok fun h => ⟨Json.check_of_memberFits (hsplit h).1.2 hcondition,
    Json.check_of_memberFits (hsplit h).2 hnext⟩

/-- A state can be drawn as far as its types go: all that is shown are texts, and names stand
    where it leads. -/
def IsFit (s : State) : Prop := s.isShowable = true ∧ ∀ t ∈ s.targets, t.isName = true

/-- A value that names a state, if it is given. -/
theorem isName_of_mem_ite {v t : Json} (h : v.isName = true)
    (ht : t ∈ if v.isGiven then [v] else []) : t.isName = true := by
  split at ht
  · rw [List.mem_singleton.mp ht]
    exact h
  · cases ht

/-- What is read of a state makes it fit if the types are right. -/
theorem ends_body (id : String) {v : Json} (hv : v.isObj = true) (kind : Kind) :
    Ends (Body.ofJson id v kind)
      (fun body => v.isStateEntry = true → ∀ next : Json, next.isName = true →
        (make id body next).IsFit)
      (Failure.Refuses (v.isStateEntry = true)) := by
  have hrequire := fun key => ends_require id (fun _ : v.isStateEntry = true => hv) key
  have htext : v.isStateEntry = true → ∀ key ∈ Json.textMembers,
      v.memberFits key Json.isStr = true := fun h => (Json.isStateEntry_iff.mp h).1
  cases kind with
  | userTask =>
    have hform : v.isStateEntry = true →
        ((v.getD "form" .null).isNull || (v.getD "form" .null).isFormEntry) = true := fun h =>
      Json.check_getD (Json.isStateEntry_iff.mp h).2.2.2.2 .null rfl
    refine ((ends_formOf id _).mono (fun _ h => h) fun _ hf => hf.mono hform).bind
      fun form hids => (hrequire "prompt").bind fun prompt hprompt => ?_
    refine Ends.ok fun h next hnext => ⟨?_, fun t ht => isName_of_mem_ite hnext ht⟩
    have hassignee := Json.check_getD (htext h "assignee" (by decide)) (.str "") rfl
    have hprompt := Json.check_of_memberFits (htext h "prompt" (by decide)) hprompt
    apply isShowable_of_texts
    refine List.forall_mem_cons.mpr ⟨hprompt, List.forall_mem_cons.mpr ⟨hassignee, ?_⟩⟩
    cases form with
    | none => exact fun _ hw => absurd hw List.not_mem_nil
    | some f => exact fun w hw => by rw [List.mem_singleton.mp hw]; exact hids (hform h) f rfl
  | task =>
    refine (hrequire "action").bind fun action haction => ?_
    refine Ends.ok fun h next hnext => ⟨?_, fun t ht => isName_of_mem_ite hnext ht⟩
    apply isShowable_of_texts
    exact List.forall_mem_singleton.mpr
      (Json.check_of_memberFits (htext h "action" (by decide)) haction)
  | choice =>
    have hbranches : v.isStateEntry = true →
        (v.getD "branches" (.arr [])).isListOf Json.isBranchEntry = true := fun h =>
      Json.check_getD (Json.isStateEntry_iff.mp h).2.2.2.1 (.arr []) rfl
    have hitems : Ends ((v.getD "branches" (.arr [])).items.mapError Failure.misfit)
        (fun ws => v.isStateEntry = true → ∀ w ∈ ws, w.isBranchEntry = true)
        (Failure.Refuses (v.isStateEntry = true)) := by
      refine ((Json.ends_items _).mono (fun ws hws ht => hws _ (hbranches ht))
        fun _ hm => hm).mapError fun m hm => ⟨fun ht => ?_, by rw [hm.1]; trivial⟩
      have hlist := hbranches ht
      rw [hm.2] at hlist
      cases hlist
    refine hitems.bind fun entries hentries => ?_
    have hread : ∀ entry ∈ entries, Ends (Branch.ofJson id entry)
        (fun b => v.isStateEntry = true → b.condition.isStr = true ∧ b.next.isName = true)
        (Failure.Refuses (v.isStateEntry = true)) := fun entry hentry =>
      (Branch.ends_ofJson id entry).mono (fun b hb ht => hb (hentries ht entry hentry))
        fun _ hf => hf.mono fun ht => hentries ht entry hentry
    refine (Ends.mapM hread).bind fun branches hbs => Ends.ok fun h next hnext => ⟨?_, fun t ht => ?_⟩
    · apply isShowable_of_texts
      intro w hw
      obtain ⟨b, hb, rfl⟩ := List.mem_map.mp hw
      exact (hbs b hb h).1
    · rcases List.mem_append.mp ht with ht | ht
      · obtain ⟨b, hb, rfl⟩ := List.mem_map.mp ht
        exact (hbs b hb h).2
      · have hotherwise := Json.check_getD (Json.isStateEntry_iff.mp h).2.2.1
          .null rfl
        exact isName_of_mem_ite hotherwise ht
  | send =>
    refine (hrequire "to").bind fun recipient _ => (hrequire "message").bind fun message _ => ?_
    refine Ends.ok fun h next hnext => ⟨?_, fun t ht => isName_of_mem_ite hnext ht⟩
    have hchannel := Json.check_getD (htext h "channel" (by decide)) (.str "message") rfl
    -- Whom a message goes to and what it says is shown as it is displayed.
    simp [isShowable, inscriptions, conditions, make, hchannel]
  | stop =>
    unfold Body.ofJson
    by_cases hnext : (v.getD "next" .null).isGiven = true
    · simp only [hnext, ↓reduceIte]
      trivial
    · simp only [hnext]
      refine Ends.ok fun h next _ => ⟨?_, fun t ht => absurd ht List.not_mem_nil⟩
      apply isShowable_of_texts
      exact List.forall_mem_singleton.mpr
        (Json.check_getD (htext h "reason" (by decide)) (.str "") rfl)

/-- A state that is read is fit if the types are right, and only then a misfit is excluded. -/
theorem ends_ofJson (v : Json) : Ends (ofJson v) (fun s => v.isStateEntry = true → s.IsFit)
    (Failure.Refuses (v.isStateEntry = true)) := by
  cases v with
  | obj members =>
    have hv : (Json.obj members).isObj = true := rfl
    refine (ends_require "" (fun _ => hv) "id").bind fun id _ =>
      (ends_require _ (fun _ => hv) "kind").bind fun label _ => ?_
    cases hk : Kind.ofLabel? label with
    | none => trivial
    | some kind =>
      refine (ends_body _ hv kind).bind fun body hbody => Ends.ok fun h => hbody h _ ?_
      split
      · exact Json.check_getD (Json.isStateEntry_iff.mp h).2.1 .null rfl
      · rfl
  | _ => trivial

end State

/-! ## Graphs -/

namespace Graph

/-- The states that are added are those of the entries. -/
theorem ends_addEntries (entries : List Json) (g : Graph) : Ends (g.addEntries entries)
    (fun g' => ∀ s ∈ g'.nodes, s ∈ g.nodes ∨ ∃ v ∈ entries, State.ofJson v = .ok s)
    (Failure.Refuses (∀ v ∈ entries, v.isStateEntry = true)) := by
  induction entries generalizing g with
  | nil => exact fun s hs => Or.inl hs
  | cons v rest ih =>
    have hstate := (State.ends_ofJson v).and_eq.mono (fun _ h => h) fun _ hf =>
      hf.mono fun h : ∀ w ∈ v :: rest, w.isStateEntry = true => h v List.mem_cons_self
    refine hstate.bind fun s hs => ?_
    -- A state is added behind all others, or its id is there already.
    have hadd : Ends (g.add s) (fun g' => g'.nodes = g.nodes ++ [s])
        (Failure.Refuses (∀ w ∈ v :: rest, w.isStateEntry = true)) := by
      cases hg : g.add s with
      | ok g' => exact nodes_of_add hg
      | error f =>
        by_cases hmem : s.id.display ∈ g.keys
        · rw [add, if_pos hmem] at hg
          cases hg
          trivial
        · rw [add, if_neg hmem] at hg
          cases hg
    refine hadd.bind fun g' hg' => (ih g').mono (fun g'' hg'' t ht => ?_) fun _ hf =>
      hf.mono fun h w hw => h w (List.mem_cons_of_mem _ hw)
    rcases hg'' t ht with ht | ⟨w, hw, ht⟩
    · rw [hg', List.mem_append, List.mem_singleton] at ht
      rcases ht with ht | rfl
      · exact Or.inl ht
      · exact Or.inr ⟨v, List.mem_cons_self, hs.1⟩
    · exact Or.inr ⟨w, List.mem_cons_of_mem _ hw, ht⟩

/-- The check of a state that was read fails with a fault, or because it leads to a list or an
    object. -/
theorem checkState_refuses {g : Graph} {s : State} (hl : s.Loaded) {f : Failure}
    (h : g.checkState s = .error f) : f.Refuses (∀ t ∈ s.targets, t.isName = true) := by
  rw [checkState, hl.label_eq, Kind.ofLabel?_name, hl.edgeMisfit?] at h
  cases he : isEmptyChoice s with
  | true => rw [he] at h; cases h; trivial
  | false =>
    rw [he] at h
    have h : s.targets.forM (g.checkTarget s.id) = .error f := h
    rcases Except.forM_cases (g.checkTarget s.id) s.targets with hok | ⟨t, ht, e, htarget, herror⟩
    · rw [hok] at h
      cases h
    · rw [herror] at h
      cases h
      by_cases hname : t.isName = true
      · -- A name is looked up, and what is not found is a fault.
        by_cases hkey : ∃ key ∈ g.keys, t = .str key
        · rw [checkTarget_eq_ok_iff.mpr hkey] at htarget
          cases htarget
        · rw [checkTarget, hasKey_eq_false hname hkey] at htarget
          cases htarget
          trivial
      · rw [checkTarget, hasKey, Bool.eq_false_iff.mpr hname] at htarget
        cases htarget
        exact ⟨fun h => hname (h t ht), trivial⟩

/-- Validation of states that were read fails with a fault, or because one of them leads to a list
    or an object. -/
theorem ends_validate {g : Graph} (hk : g.Keyed) (hl : ∀ s ∈ g.nodes, s.Loaded) {start : String}
    (hstart : g.start = .str start) : Ends g.validate (fun _ => True)
      (Failure.Refuses (∀ s ∈ g.nodes, ∀ t ∈ s.targets, t.isName = true)) := by
  by_cases hstates : g.states.isEmpty = true
  · simp only [validate, validateFrom, hstates]
    trivial
  by_cases hkey : start ∈ g.keys
  · rcases Except.forM_cases g.checkState g.nodes with hok | ⟨s, hs, f, hfail, hchecks⟩
    · -- All states pass, and what is left is whether a stop is in reach.
      rw [validate, hk.validateFrom_eq hkey hstart (Except.forM_eq_ok_iff.mp hok)]
      split <;> trivial
    · -- The first state that does not pass decides.
      have hfound : g.hasKey g.start = .ok true := hasKey_eq_true_iff.mpr ⟨start, hkey, hstart⟩
      have herror : g.validate = .error f := by
        simp only [validate, validateFrom, Bool.eq_false_iff.mpr hstates, hfound, hchecks]
        rfl
      rw [herror]
      exact (checkState_refuses (hl s hs) hfail).mono fun h => h s hs
  · have hmissing : g.hasKey g.start = .ok false := by
      rw [hstart]
      simpa [hasKey, Json.isName, Json.asId?] using hkey
    simp only [validate, validateFrom, Bool.eq_false_iff.mpr hstates, hmissing]
    trivial

/-- What is read from a document whose types are right can be drawn as far as its types go, and
    the document is refused with a fault only; if its types are not right, it may be refused with
    a misfit. -/
theorem ends_ofJson (v : Json) : Ends (ofJson v)
    (fun g => v.isScript = true → ∀ s ∈ g.nodes, s.isShowable = true)
    (Failure.Refuses (v.isScript = true)) := by
  cases v with
  | obj members =>
    have hv : (Json.obj members).isObj = true := rfl
    refine (State.ends_require "" (fun _ => hv) "states").bind fun states hstates => ?_
    cases states with
    | arr entries =>
      have htyped : (Json.obj members).isScript = true → ∀ e ∈ entries, e.isStateEntry = true := by
        unfold Json.isScript
        rw [hstates]
        exact List.all_eq_true.mp
      refine (State.ends_require "" (fun _ => hv) "flow").bind fun name _ => ?_
      have hadd := (ends_addEntries entries (empty name.display)).and_eq.mono (fun _ h => h)
        fun _ hf => hf.mono htyped
      refine hadd.bind fun g hg => ?_
      obtain ⟨hkeyed, hloaded⟩ := loaded_of_addEntries (assembled_empty name.display).toKeyed
        (fun _ hs => (nomatch hs)) hg.1
      -- Every state is one of the entries, as there is none to begin with.
      have hfit : (Json.obj members).isScript = true → ∀ s ∈ g.nodes, s.IsFit := by
        intro h s hs
        rcases hg.2 s hs with hs | ⟨e, he, hread⟩
        · cases hs
        · have hend := State.ends_ofJson e
          rw [hread] at hend
          exact hend (htyped h e he)
      refine (State.ends_require "" (fun _ => hv) "start").bind fun start _ => ?_
      have hvalidate := ends_validate (g := { g with start := .str start.display })
        ⟨hkeyed.keyed, hkeyed.nodup⟩ hloaded rfl
      refine (hvalidate.mono (fun _ h => h) fun _ hf => hf.mono fun h s hs => (hfit h s hs).2).bind
        fun warnings _ => Ends.ok fun h s hs => (hfit h s hs).1
    | _ => trivial
  | _ => trivial

end Graph

end Swimlane
