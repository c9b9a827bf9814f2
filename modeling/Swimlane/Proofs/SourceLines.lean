import Swimlane.Proofs.Derivations
import Swimlane.Proofs.StateOrder

/-!
# The lines of a statement

Every statement of a story, those inside of conditionals included, stands on lines of the story: a
conditional on its `If` line and its `Otherwise if` lines, one for each of its branches, and every
other statement on the line that says it.

## Key results

- `blockStatements_stand`: what the statements of a block stand on
- `stands_of_parse`: what the statements of a story stand on
-/

namespace Swimlane.Story

/-! ## Lines of conditionals -/

/-- The line opens a branch behind the first one of a conditional. -/
structure Line.OpensBranch (l : Line) (b : Branch) : Prop where
  condition : l.IsOtherwiseIf b.condition
  number : b.line = l.number

/-- The lines open the branches of a conditional: the first line is an `If`, which the conditional
    has for its source. -/
def Opens (source : Source) : List Line → List Branch → Prop
  | l :: rest, b :: more =>
    l.source = source ∧ l.IsIf b.condition ∧ b.line = l.number ∧
      List.Forall₂ Line.OpensBranch rest more
  | _, _ => False

/-- The lines of the branches in the rest of a conditional. -/
def Tail.heads : Tail → List Line
  | .done => []
  | .otherwise .. => []
  | .branch l _ _ tail => l :: tail.heads

theorem Tail.heads_sublist : (t : Tail) → t.heads.Sublist t.lines
  | .done => .slnil
  | .otherwise .. => List.nil_sublist _
  | .branch _ _ body tail =>
    .cons_cons _ (tail.heads_sublist.trans (List.sublist_append_right (blockLines body) tail.lines))

theorem Tail.heads_open (t : Tail) {indent : Nat} (h : t.Conforms indent) :
    List.Forall₂ Line.OpensBranch t.heads t.branches := by
  cases t with
  | done => exact .nil
  | otherwise l body => exact .nil
  | branch l condition body tail =>
    obtain ⟨_, hcondition, _, htail⟩ := h
    exact .cons ⟨hcondition, rfl⟩ (tail.heads_open htail)

/-! ## What statements stand on -/

/-- The statement stands on some of the lines. -/
def Statement.Stands (ls : List Line) : Statement → Prop
  | .header source name => ∃ l ∈ ls, l.source = source ∧ l.IsFlow name
  | .conditional source branches _ =>
    ∃ heads : List Line, heads.Sublist ls ∧ Opens source heads branches
  | s => ∃ l ∈ ls, l.Says s ∧ s.isMalformed = false

theorem Statement.Stands.mono {ls ls' : List Line} {s : Statement} (h : s.Stands ls)
    (hls : ls.Sublist ls') : s.Stands ls' := by
  cases s with
  | header source name => exact h.imp fun l hl => ⟨hls.subset hl.1, hl.2⟩
  | conditional source branches otherwise => exact h.imp fun heads hh => ⟨hh.1.trans hls, hh.2⟩
  | _ => exact h.imp fun l hl => ⟨hls.subset hl.1, hl.2⟩

/-- The statements inside of a conditional. -/
theorem mem_preorder_conditional {source : Source} {branches : List Branch}
    {otherwise : Option (List Statement)} {t : Statement}
    (h : t ∈ (Statement.conditional source branches otherwise).preorder) :
    t = .conditional source branches otherwise ∨ t ∈ preorderBranches branches ∨
      ∃ body ∈ otherwise, t ∈ preorderAll body := by
  cases otherwise with
  | none => simpa [Statement.preorder] using h
  | some body => simpa [Statement.preorder] using h

mutual

/-- The statements of a clause stand on its lines. -/
theorem Clause.statement_stands : (c : Clause) → ∀ {indent}, c.Conforms indent →
    ∀ t ∈ c.statement.preorder, t.Stands c.lines
  | .plain l s, _, h => by
    obtain ⟨_, hsaid, hbraces⟩ := h
    have hpreorder : s.preorder = [s] := by cases hsaid <;> rfl
    intro t ht
    rw [Clause.statement, hpreorder, List.mem_singleton] at ht
    rw [ht]
    have hl : l ∈ (Clause.plain l s).lines := List.mem_singleton_self l
    cases hsaid with
    | ask h => exact ⟨l, hl, .ask h, hbraces⟩
    | perform h => exact ⟨l, hl, .perform h, hbraces⟩
    | send h => exact ⟨l, hl, .send h, hbraces⟩
    | stop h => exact ⟨l, hl, .stop h, hbraces⟩
  | .conditional l condition body tail, _, h => by
    obtain ⟨_, hif, ⟨_, _, _, hbody⟩, htail⟩ := h
    obtain ⟨hbranches, hotherwise⟩ := tail.statements_stand htail
    have hbodyLines : (blockLines body).Sublist (Clause.conditional l condition body tail).lines :=
      (List.sublist_append_left _ tail.lines).cons l
    have htailLines : tail.lines.Sublist (Clause.conditional l condition body tail).lines :=
      (List.sublist_append_right (blockLines body) _).cons l
    intro t ht
    rcases mem_preorder_conditional ht with rfl | ht | ⟨rest, hrest, ht⟩
    · refine ⟨l :: tail.heads, ?_, rfl, hif, rfl, tail.heads_open htail⟩
      exact .cons_cons l (tail.heads_sublist.trans (List.sublist_append_right (blockLines body) _))
    · rw [preorderBranches, List.mem_append] at ht
      cases ht with
      | inl h => exact (blockStatements_stand body hbody t h).mono hbodyLines
      | inr h => exact (hbranches t h).mono htailLines
    · exact (hotherwise rest hrest t ht).mono htailLines

/-- The statements of a block stand on its lines. -/
theorem blockStatements_stand : (cs : List Clause) → ∀ {indent}, blockConforms indent cs →
    ∀ t ∈ preorderAll (blockStatements cs), t.Stands (blockLines cs)
  | [], _, _ => fun t ht => absurd ht List.not_mem_nil
  | c :: rest, _, h => by
    intro t ht
    rw [blockStatements, preorderAll, List.mem_append] at ht
    cases ht with
    | inl ht => exact (c.statement_stands h.1 t ht).mono (List.sublist_append_left _ _)
    | inr ht => exact (blockStatements_stand rest h.2 t ht).mono (List.sublist_append_right _ _)

/-- The statements in the rest of a conditional stand on its lines. -/
theorem Tail.statements_stand : (t : Tail) → ∀ {indent}, t.Conforms indent →
    (∀ s ∈ preorderBranches t.branches, s.Stands t.lines) ∧
      ∀ body ∈ t.otherwise?, ∀ s ∈ preorderAll body, s.Stands t.lines
  | .done, _, _ => ⟨fun s hs => absurd hs List.not_mem_nil, fun body hb => by cases hb⟩
  | .otherwise l body, _, h => by
    obtain ⟨_, _, _, _, _, hbody⟩ := h
    refine ⟨fun s hs => absurd hs List.not_mem_nil, fun b hb s hs => ?_⟩
    cases hb
    exact (blockStatements_stand body hbody s hs).mono (List.sublist_cons_self l _)
  | .branch l condition body tail, _, h => by
    obtain ⟨_, _, ⟨_, _, _, hbody⟩, htail⟩ := h
    obtain ⟨hbranches, hotherwise⟩ := tail.statements_stand htail
    have htailLines : tail.lines.Sublist (Tail.branch l condition body tail).lines :=
      (List.sublist_append_right (blockLines body) _).cons l
    refine ⟨fun s hs => ?_, fun b hb s hs => (hotherwise b hb s hs).mono htailLines⟩
    rw [Tail.branches, preorderBranches, List.mem_append] at hs
    cases hs with
    | inl hs =>
      exact (blockStatements_stand body hbody s hs).mono ((List.sublist_append_left _ _).cons l)
    | inr hs => exact (hbranches s hs).mono htailLines

end

/-- The statements of a story stand on its lines. -/
theorem stands_of_parse {story : String} {statements : List Statement}
    (h : parse story = .ok statements) {s : Statement} (hs : s ∈ preorderAll statements) :
    s.Stands (lines story) := by
  obtain ⟨d, hd, rfl⟩ := ofLines_eq_ok_iff.mp h
  rw [Document.statements, preorderAll, List.mem_append] at hs
  rw [← hd.lines]
  cases hs with
  | inl hs =>
    rw [List.mem_singleton.mp hs]
    exact ⟨d.line, List.mem_cons_self, rfl, hd.header⟩
  | inr hs => exact (blockStatements_stand d.body hd.body s hs).mono (List.sublist_cons_self _ _)

end Swimlane.Story
