import Swimlane.Proofs.Except
import Swimlane.Proofs.Grammar

/-!
# Reading follows the grammar

The statements that are read from lines are those of a derivation of the lines, and lines that
have a derivation can be read.  A block stops in silence at every line that it cannot take, even
in front of its first statement; whoever called for the block has to refuse the line then.  So
what is read has a derivation only if the line behind it is not too deep.

## Key results

- `block_sound`: a block that is read has a derivation
- `block_complete`: a block that has a derivation is read
- `ofLines_eq_ok_iff`: the stories that can be read are those with a derivation
-/

namespace Swimlane.Story

/-- The first of the lines is not deeper than the given indentation. -/
def Settled (indent : Nat) (ls : List Line) : Prop := ∀ l ∈ ls.head?, l.indent ≤ indent

/-! ## Lines -/

/-- A statement is checked for stray braces. -/
theorem checked_eq_ok {l : Line} {s s' : Statement} :
    checked l s = .ok s' ↔ s' = s ∧ s.isMalformed = false := by
  rw [checked]
  cases hs : s.isMalformed with
  | false => exact ⟨fun h => by cases h; exact ⟨rfl, rfl⟩, fun ⟨h, _⟩ => by rw [h]; rfl⟩
  | true => exact ⟨(nomatch ·), fun ⟨_, h⟩ => nomatch h⟩

/-- What a line says on its own, if it has no stray brace. -/
theorem simple_eq_ok {l : Line} {sentence : Sentence} {s : Statement}
    (hl : Sentence.ofText? l.text = some sentence) :
    simple l sentence = .ok s ↔ l.Says s ∧ s.isMalformed = false := by
  constructor
  · intro h
    cases sentence with
    | ask subject rest => obtain ⟨rfl, hs⟩ := checked_eq_ok.mp h; exact ⟨.ask hl, hs⟩
    | perform action => obtain ⟨rfl, hs⟩ := checked_eq_ok.mp h; exact ⟨.perform hl, hs⟩
    | send message recipient channel =>
      obtain ⟨rfl, hs⟩ := checked_eq_ok.mp h
      exact ⟨.send hl, hs⟩
    | stop reason => obtain ⟨rfl, hs⟩ := checked_eq_ok.mp h; exact ⟨.stop hl, hs⟩
    | _ => cases h
  · rintro ⟨htold, hs⟩
    cases htold with
    | _ h => cases hl.symm.trans h; exact checked_eq_ok.mpr ⟨rfl, hs⟩

/-- A header is read from a line that has one. -/
theorem headerOf_eq_ok {l : Line} {s : Statement} :
    headerOf l = .ok s ↔ ∃ name, l.IsFlow name ∧ s = .header l.source name := by
  constructor
  · intro h
    rw [headerOf] at h
    split at h
    · rename_i name hl
      split at h
      · cases h
      · rename_i hname
        obtain ⟨rfl, hs⟩ := checked_eq_ok.mp h
        exact ⟨name, ⟨hl, hname, by simpa [Statement.isMalformed, Statement.parts] using hs⟩, rfl⟩
    · cases h
  · rintro ⟨name, hflow, rfl⟩
    rw [headerOf, hflow.sentence]
    simp only [hflow.named, ↓reduceIte]
    refine checked_eq_ok.mpr ⟨rfl, ?_⟩
    simp [Statement.isMalformed, Statement.parts, hflow.braces]

/-- A conditional has no stray brace if none of its conditions has one. -/
theorem isMalformed_conditional {source : Source} {condition : String} {body : List Statement}
    {line : Nat} {branches : List Branch} {otherwise : Option (List Statement)} :
    (Statement.conditional source (⟨condition, body, line⟩ :: branches) otherwise).isMalformed
      = false ↔
    Placeholder.hasStrayBrace condition = false ∧
      ∀ b ∈ branches, Placeholder.hasStrayBrace b.condition = false := by
  simp [Statement.isMalformed, Statement.parts]

/-! ## What is read has a derivation -/

/-- A block cannot stop in front of a line that is too deep. -/
theorem block_settled {indent : Nat} {ls : List Line} {r : Parsed (List Statement) ls}
    (h : block indent ls = .ok r) : Settled indent ls := by
  intro l hl
  cases ls with
  | nil => cases hl
  | cons l' more =>
    cases hl
    rw [block] at h
    split at h
    · omega
    · split at h
      · cases h
      · omega

/-- Where the rest of a conditional is not too deep, its first line is not either. -/
theorem alternatives_settled {head : Line} {ls : List Line}
    {r : Parsed (List Branch × Option (List Statement)) ls} (h : alternatives head ls = .ok r)
    (hr : Settled head.indent r.rest) : Settled head.indent ls := by
  intro l hl
  cases ls with
  | nil => cases hl
  | cons l' more =>
    cases hl
    rw [alternatives] at h
    split at h
    · cases h
      exact hr l rfl
    · rename_i heq
      exact Nat.le_of_eq (Decidable.not_not.mp heq)

mutual

/-- A block that is read has a derivation. -/
theorem block_sound {indent : Nat} {ls : List Line} {r : Parsed (List Statement) ls}
    (h : block indent ls = .ok r) : ∃ cs, blockConforms indent cs ∧
      blockLines cs ++ r.rest = ls ∧ blockStatements cs = r.value := by
  cases ls with
  | nil =>
    rw [block] at h
    cases h
    exact ⟨[], trivial, rfl, rfl⟩
  | cons l more =>
    rw [block] at h
    split at h
    · cases h; exact ⟨[], trivial, rfl, rfl⟩
    split at h
    · cases h
    have hindent : l.indent = indent := by omega
    -- A line of no form, an alternative, a conditional, or any other sentence.
    split at h
    · cases h
    · cases h; exact ⟨[], trivial, rfl, rfl⟩
    · rename_i text hl
      obtain ⟨⟨s, rest, hrest⟩, hs, h⟩ := Except.bind_eq_ok.mp h
      obtain ⟨⟨ss, last, hlast⟩, hss, h⟩ := Except.bind_eq_ok.mp h
      cases h
      -- The block goes on behind the conditional, so the line there is not too deep.
      have hsettled : Settled l.indent rest := by rw [hindent]; exact block_settled hss
      obtain ⟨c, hc, hlines, hvalue⟩ := conditional_sound hl hs hsettled
      obtain ⟨cs, hcs, hlines', hvalue'⟩ := block_sound hss
      refine ⟨c :: cs, ⟨hindent ▸ hc, hcs⟩, ?_, ?_⟩
      · rw [blockLines, List.append_assoc, hlines', hlines]
      · rw [blockStatements, hvalue, hvalue']
    · rename_i sentence _ _ hl
      obtain ⟨s, hs, h⟩ := Except.bind_eq_ok.mp h
      obtain ⟨⟨ss, last, hlast⟩, hss, h⟩ := Except.bind_eq_ok.mp h
      cases h
      obtain ⟨htold, hbraces⟩ := (simple_eq_ok hl).mp hs
      obtain ⟨cs, hcs, hlines', hvalue'⟩ := block_sound hss
      refine ⟨.plain l s :: cs, ⟨⟨hindent, htold, hbraces⟩, hcs⟩, ?_, ?_⟩
      · rw [blockLines, List.append_assoc, hlines']; rfl
      · rw [blockStatements, hvalue']; rfl
termination_by (ls.length, 0)
decreasing_by
  all_goals (subst_vars; apply Prod.Lex.left; simp only [List.length_cons]; omega)

/-- A conditional that is read has a derivation, if the line behind it is not too deep. -/
theorem conditional_sound {head : Line} {condition : String} {ls : List Line}
    {r : Parsed Statement ls} (hl : Sentence.ofText? head.text = some (.condition condition))
    (h : conditional head condition ls = .ok r) (hr : Settled head.indent r.rest) :
    ∃ c : Clause, c.Conforms head.indent ∧ c.lines ++ r.rest = head :: ls ∧
      c.statement = r.value := by
  rw [conditional] at h
  obtain ⟨⟨first, rest, hrest⟩, hfirst, h⟩ := Except.bind_eq_ok.mp h
  obtain ⟨⟨⟨branches, otherwise⟩, last, hlast⟩, halt, h⟩ := Except.bind_eq_ok.mp h
  obtain ⟨s, hs, h⟩ := Except.bind_eq_ok.mp h
  cases h
  obtain ⟨rfl, hbraces⟩ := checked_eq_ok.mp hs
  obtain ⟨hbrace, hbraces⟩ := isMalformed_conditional.mp hbraces
  obtain ⟨body, hbody, hlines, hvalue⟩ := body_sound hfirst (alternatives_settled halt hr)
  obtain ⟨tail, htail, hlines', hvalue'⟩ := alternatives_sound halt hr hbraces
  refine ⟨.conditional head condition body tail, ⟨rfl, ⟨hl, hbrace⟩, hbody, htail⟩, ?_, ?_⟩
  · rw [Clause.lines, List.cons_append, List.append_assoc, hlines', hlines]
  · cases hvalue'
    rw [Clause.statement, hvalue]
termination_by (ls.length, 2)
decreasing_by
  · apply Prod.Lex.right; omega
  · rcases Nat.lt_or_eq_of_le hrest with hlt | heq
    · exact Prod.Lex.left _ _ hlt
    · rw [heq]; apply Prod.Lex.right; omega

/-- The block under a line that is read has a derivation, if the line behind it is not too
    deep. -/
theorem body_sound {head : Line} {ls : List Line} {r : Parsed (List Statement) ls}
    (h : body head ls = .ok r) (hr : Settled head.indent r.rest) :
    ∃ cs, bodyConforms head.indent cs ∧ blockLines cs ++ r.rest = ls ∧
      blockStatements cs = r.value := by
  cases ls with
  | nil => rw [body] at h; cases h
  | cons l more =>
    rw [body] at h
    split at h
    · cases h
    rename_i hdeeper
    obtain ⟨cs, hcs, hlines, hvalue⟩ := block_sound h
    refine ⟨cs, ⟨?_, l.indent, by omega, hcs⟩, hlines, hvalue⟩
    -- A block that stopped at its first line leaves a line that is too deep.
    rintro rfl
    exact hdeeper (hr l (by rw [show r.rest = l :: more from hlines]; rfl))
termination_by (ls.length, 1)
decreasing_by
  subst_vars; apply Prod.Lex.right; omega

/-- The rest of a conditional that is read has a derivation, if the line behind it is not too
    deep and no condition has a stray brace. -/
theorem alternatives_sound {head : Line} {ls : List Line}
    {r : Parsed (List Branch × Option (List Statement)) ls} (h : alternatives head ls = .ok r)
    (hr : Settled head.indent r.rest)
    (hbraces : ∀ b ∈ r.value.1, Placeholder.hasStrayBrace b.condition = false) :
    ∃ t : Tail, t.Conforms head.indent ∧ t.lines ++ r.rest = ls ∧
      (t.branches, t.otherwise?) = r.value := by
  cases ls with
  | nil =>
    rw [alternatives] at h
    cases h
    exact ⟨.done, trivial, rfl, rfl⟩
  | cons l more =>
    rw [alternatives] at h
    split at h
    · cases h; exact ⟨.done, trivial, rfl, rfl⟩
    rename_i hindent
    rw [Decidable.not_not] at hindent
    split at h
    · rename_i condition hl
      obtain ⟨⟨b, rest, hrest⟩, hb, h⟩ := Except.bind_eq_ok.mp h
      obtain ⟨⟨⟨branches, otherwise⟩, last, hlast⟩, halt, h⟩ := Except.bind_eq_ok.mp h
      cases h
      -- What goes on behind the body is an alternative again, or what is behind the conditional.
      have hsettled : Settled l.indent rest := by
        rw [hindent]; exact alternatives_settled halt hr
      obtain ⟨hbrace, hbraces⟩ := List.forall_mem_cons.mp hbraces
      obtain ⟨body, hbody, hlines, hvalue⟩ := body_sound hb hsettled
      obtain ⟨tail, htail, hlines', hvalue'⟩ := alternatives_sound halt hr hbraces
      refine ⟨.branch l condition body tail,
        ⟨hindent, ⟨hl, hbrace⟩, hindent ▸ hbody, htail⟩, ?_, ?_⟩
      · rw [Tail.lines, List.cons_append, List.append_assoc, hlines', hlines]
      · cases hvalue'
        rw [Tail.branches, Tail.otherwise?, hvalue]
    · rename_i hl
      obtain ⟨⟨b, rest, hrest⟩, hb, h⟩ := Except.bind_eq_ok.mp h
      cases h
      obtain ⟨body, hbody, hlines, hvalue⟩ := body_sound hb (by rw [hindent]; exact hr)
      refine ⟨.otherwise l body,
        ⟨hindent, Line.isOtherwise_eq_true.mpr hl, hindent ▸ hbody⟩, ?_, ?_⟩
      · rw [Tail.lines, List.cons_append, hlines]
      · rw [Tail.branches, Tail.otherwise?, hvalue]
    · cases h; exact ⟨.done, trivial, rfl, rfl⟩
termination_by (ls.length, 0)
decreasing_by
  all_goals (subst_vars; apply Prod.Lex.left; simp only [List.length_cons]; omega)

end

/-! ## What has a derivation is read -/

/-- The outcome of reading: a value, and the lines behind it. -/
def Reads {α : Type} {ls : List Line} (outcome : Except Error (Parsed α ls)) (value : α)
    (rest : List Line) : Prop :=
  ∃ h, outcome = .ok ⟨value, rest, h⟩

/-- A block stops at a line that is not deep enough. -/
theorem reads_block_nil {indent : Nat} {rest : List Line} (h : Below indent rest) :
    Reads (block indent rest) [] rest := by
  cases rest with
  | nil => exact ⟨Nat.le_refl _, by rw [block]⟩
  | cons l more => exact ⟨Nat.le_refl _, by rw [block, if_pos (h l rfl)]⟩

/-- A block goes on behind a line of its own. -/
theorem reads_block_plain {l : Line} {s : Statement} {more last : List Line}
    {ss : List Statement} (htold : l.Says s) (hbraces : s.isMalformed = false)
    (hmore : Reads (block l.indent more) ss last) :
    Reads (block l.indent (l :: more)) (s :: ss) last := by
  obtain ⟨hlen, hmore⟩ := hmore
  refine ⟨Nat.le_succ_of_le hlen, ?_⟩
  rw [block, if_neg (Nat.lt_irrefl _), if_neg (Nat.lt_irrefl _)]
  cases htold with
  | _ hl =>
    have hs := (simple_eq_ok hl).mpr ⟨by constructor; exact hl, hbraces⟩
    simp only [hl, hs, hmore, bind, Except.bind]
    rfl

/-- A block goes on behind a conditional. -/
theorem reads_block_conditional {l : Line} {condition : String} {s : Statement}
    {more rest last : List Line} {ss : List Statement}
    (hl : Sentence.ofText? l.text = some (.condition condition))
    (hs : Reads (conditional l condition more) s rest)
    (hss : Reads (block l.indent rest) ss last) :
    Reads (block l.indent (l :: more)) (s :: ss) last := by
  obtain ⟨hlen, hs⟩ := hs
  obtain ⟨hlen', hss⟩ := hss
  refine ⟨Nat.le_succ_of_le (Nat.le_trans hlen' hlen), ?_⟩
  rw [block, if_neg (Nat.lt_irrefl _), if_neg (Nat.lt_irrefl _)]
  simp only [hl, hs, hss, bind, Except.bind]
  rfl

/-- The block under a line is read as a block of its own. -/
theorem reads_body {head : Line} {cs : List Clause} {deeper : Nat} {rest : List Line}
    (hcs : blockConforms deeper cs) (hne : cs ≠ []) (hlt : head.indent < deeper)
    (h : Reads (block deeper (blockLines cs ++ rest)) (blockStatements cs) rest) :
    Reads (body head (blockLines cs ++ rest)) (blockStatements cs) rest := by
  obtain ⟨l, more, hl, hi⟩ := exists_blockLines_eq hcs hne
  rw [hl, List.cons_append] at h ⊢
  obtain ⟨hlen, h⟩ := h
  refine ⟨hlen, ?_⟩
  rw [body, if_neg (by omega), hi]
  exact h

/-- A conditional is read part by part. -/
theorem reads_conditional {head : Line} {condition : String} {ls rest last : List Line}
    {first : List Statement} {branches : List Branch} {otherwise : Option (List Statement)}
    (hfirst : Reads (body head ls) first rest)
    (halt : Reads (alternatives head rest) (branches, otherwise) last)
    (hbrace : Placeholder.hasStrayBrace condition = false)
    (hbraces : ∀ b ∈ branches, Placeholder.hasStrayBrace b.condition = false) :
    Reads (conditional head condition ls)
      (.conditional head.source (⟨condition, first, head.number⟩ :: branches) otherwise) last := by
  obtain ⟨hlen, hfirst⟩ := hfirst
  obtain ⟨hlen', halt⟩ := halt
  refine ⟨Nat.le_trans hlen' hlen, ?_⟩
  have hs : checked head (.conditional head.source
      (⟨condition, first, head.number⟩ :: branches) otherwise) = .ok _ :=
    checked_eq_ok.mpr ⟨rfl, isMalformed_conditional.mpr ⟨hbrace, hbraces⟩⟩
  rw [conditional]
  simp only [hfirst, halt, hs, bind, Except.bind]
  rfl

/-- A conditional is done where no alternative follows. -/
theorem reads_alternatives_done {head : Line} {rest : List Line}
    (h : Follows head.indent rest) : Reads (alternatives head rest) ([], none) rest := by
  cases rest with
  | nil => exact ⟨Nat.le_refl _, by rw [alternatives]⟩
  | cons l more =>
    refine ⟨Nat.le_refl _, ?_⟩
    rw [alternatives]
    split
    · rfl
    rename_i hindent
    have halt := (h l rfl).2 (Decidable.not_not.mp hindent)
    split
    · rename_i condition hl; exact absurd ⟨_, hl⟩ halt
    · rename_i hl; exact absurd ⟨_, hl⟩ halt
    · rfl

/-- A conditional ends with a plain alternative. -/
theorem reads_alternatives_otherwise {head l : Line} {more rest : List Line}
    {b : List Statement} (hindent : l.indent = head.indent) (hl : l.isOtherwise = true)
    (hb : Reads (body l more) b rest) :
    Reads (alternatives head (l :: more)) ([], some b) rest := by
  obtain ⟨hlen, hb⟩ := hb
  refine ⟨Nat.le_succ_of_le hlen, ?_⟩
  rw [alternatives, if_neg (not_not_intro hindent)]
  simp only [Line.isOtherwise_eq_true.mp hl, hb, bind, Except.bind]
  rfl

/-- A conditional goes on with another branch. -/
theorem reads_alternatives_branch {head l : Line} {condition : String}
    {more rest last : List Line} {b : List Statement} {branches : List Branch}
    {otherwise : Option (List Statement)} (hindent : l.indent = head.indent)
    (hl : Sentence.ofText? l.text = some (.otherwise (some condition)))
    (hb : Reads (body l more) b rest)
    (halt : Reads (alternatives head rest) (branches, otherwise) last) :
    Reads (alternatives head (l :: more))
      (⟨condition, b, l.number⟩ :: branches, otherwise) last := by
  obtain ⟨hlen, hb⟩ := hb
  obtain ⟨hlen', halt⟩ := halt
  refine ⟨Nat.le_succ_of_le (Nat.le_trans hlen' hlen), ?_⟩
  rw [alternatives, if_neg (not_not_intro hindent)]
  simp only [hl, hb, halt, bind, Except.bind]
  rfl

/-- The conditions in the rest of a conditional have no stray brace. -/
theorem Tail.braces {indent : Nat} : (t : Tail) → t.Conforms indent →
    ∀ b ∈ t.branches, Placeholder.hasStrayBrace b.condition = false
  | .done, _, _, hb => nomatch hb
  | .otherwise _ _, _, _, hb => nomatch hb
  | .branch _ _ _ tail, h, b, hb => by
    rw [Tail.branches, List.mem_cons] at hb
    rcases hb with rfl | hb
    · exact h.2.1.braces
    · exact tail.braces h.2.2.2 b hb

mutual

/-- A block goes on behind a clause with a derivation. -/
theorem Clause.complete : (c : Clause) → ∀ {indent more last ss}, c.Conforms indent →
    Follows indent more → Reads (block indent more) ss last →
    Reads (block indent (c.lines ++ more)) (c.statement :: ss) last
  | .plain l s, _, _, _, _, h, _, hmore => by
    obtain ⟨rfl, htold, hbraces⟩ := h
    exact reads_block_plain htold hbraces hmore
  | .conditional l condition body tail, _, more, _, _, h, hfollows, hmore => by
    obtain ⟨rfl, hif, ⟨hne, deeper, hlt, hbody⟩, htail⟩ := h
    rw [Clause.lines, List.cons_append, List.append_assoc]
    have hfirst := reads_body hbody hne hlt
      (block_complete body hbody (tail.below_lines htail hfollows hlt))
    have halt := tail.complete htail hfollows
    exact reads_block_conditional hif.sentence
      (reads_conditional hfirst halt hif.braces (tail.braces htail)) hmore

/-- A block with a derivation is read. -/
theorem block_complete : (cs : List Clause) → ∀ {indent rest}, blockConforms indent cs →
    Below indent rest → Reads (block indent (blockLines cs ++ rest)) (blockStatements cs) rest
  | [], _, _, _, hrest => reads_block_nil hrest
  | c :: more, _, _, h, hrest => by
    rw [blockLines, List.append_assoc]
    exact c.complete h.1 (follows_blockLines h.2 hrest) (block_complete more h.2 hrest)

/-- The rest of a conditional with a derivation is read. -/
theorem Tail.complete {head : Line} : (t : Tail) → ∀ {rest}, t.Conforms head.indent →
    Follows head.indent rest →
    Reads (alternatives head (t.lines ++ rest)) (t.branches, t.otherwise?) rest
  | .done, _, _, hrest => reads_alternatives_done hrest
  | .otherwise l body, _, h, hrest => by
    obtain ⟨hindent, hl, hne, deeper, hlt, hbody⟩ := h
    exact reads_alternatives_otherwise hindent hl
      (reads_body hbody hne (hindent ▸ hlt) (block_complete body hbody (hrest.below hlt)))
  | .branch l condition body tail, _, h, hrest => by
    obtain ⟨hindent, hif, ⟨hne, deeper, hlt, hbody⟩, htail⟩ := h
    rw [Tail.lines, List.cons_append, List.append_assoc]
    exact reads_alternatives_branch hindent hif.sentence
      (reads_body hbody hne (hindent ▸ hlt)
        (block_complete body hbody (tail.below_lines htail hrest hlt)))
      (tail.complete htail hrest)

end

/-! ## Stories -/

/-- The stories that can be read are those with a derivation, and the statements are those of the
    derivation. -/
theorem ofLines_eq_ok_iff {ls : List Line} {statements : List Statement} :
    ofLines ls = .ok statements ↔ ∃ d : Document, d.Derives ls ∧ d.statements = statements := by
  constructor
  · intro h
    cases ls with
    | nil => cases h
    | cons l more =>
      obtain ⟨header, hheader, h⟩ := Except.bind_eq_ok.mp h
      obtain ⟨⟨ss, rest, hlen⟩, hss, h⟩ := Except.bind_eq_ok.mp h
      -- A line that the block did not take is refused.
      cases rest with
      | cons _ _ => cases h
      | nil =>
        cases h
        obtain ⟨name, hflow, rfl⟩ := headerOf_eq_ok.mp hheader
        obtain ⟨cs, hcs, hlines, hvalue⟩ := block_sound hss
        rw [List.append_nil] at hlines
        refine ⟨⟨l, name, cs⟩, ⟨hflow, hcs, ?_⟩, ?_⟩
        · rw [Document.lines, hlines]
        · rw [Document.statements, hvalue]
  · rintro ⟨d, hd, rfl⟩
    rw [← hd.lines, Document.lines, Document.statements, ofLines]
    have hnil : Below d.line.indent [] := fun _ hl => nomatch hl
    have hblock := block_complete d.body hd.body hnil
    rw [List.append_nil] at hblock
    obtain ⟨hlen, hblock⟩ := hblock
    simp only [headerOf_eq_ok.mpr ⟨d.name, hd.header, rfl⟩, hblock, bind, Except.bind]
    rfl

/-- A significant line keeps the number of its raw line. -/
theorem Line.number_of_ofRaw? {number : Nat} {raw : List Char} {l : Line}
    (h : Line.ofRaw? number raw = some l) : l.number = number := by
  rw [Line.ofRaw?] at h
  split at h <;> cases h
  rfl

/-- The numbers of significant lines start at the given number or behind it. -/
theorem le_number_of_mem_significant {raws : List (List Char)} {number : Nat} {l : Line}
    (h : l ∈ significant number raws) : number ≤ l.number := by
  induction raws generalizing number with
  | nil => cases h
  | cons raw rest ih =>
    rw [significant] at h
    split at h
    · rename_i line hline
      rcases List.mem_cons.mp h with rfl | h
      · exact Nat.le_of_eq (Line.number_of_ofRaw? hline).symm
      · exact Nat.le_of_succ_le (ih h)
    · exact Nat.le_of_succ_le (ih h)

/-- The numbers of significant lines increase. -/
theorem pairwise_significant (number : Nat) (raws : List (List Char)) :
    (significant number raws).Pairwise fun l l' => l.number < l'.number := by
  induction raws generalizing number with
  | nil => exact .nil
  | cons raw rest ih =>
    rw [significant]
    split
    · rename_i line hline
      refine .cons (fun l hl => ?_) (ih _)
      rw [Line.number_of_ofRaw? hline]
      exact le_number_of_mem_significant hl
    · exact ih _

/-- Stories are read by the grammar.  Significant lines have one derivation at most.  A story can
    be read if its lines have a derivation, and the statements are those of the derivation: they
    stand, in order, on the lines that are no plain `Otherwise`, and these have different
    numbers. -/
theorem parse_iff_derivation (story : String) :
    (∀ d d' : Document, d.Derives (lines story) → d'.Derives (lines story) → d = d') ∧
    (∀ statements, parse story = .ok statements ↔
      ∃ d : Document, d.Derives (lines story) ∧ d.statements = statements) ∧
    (∀ statements, parse story = .ok statements → placesAll statements = stated (lines story)) ∧
    (lines story).Pairwise fun l l' => l.number < l'.number := by
  refine ⟨fun d d' h h' => h.unique h', fun statements => ofLines_eq_ok_iff, ?_,
    pairwise_significant _ _⟩
  intro statements h
  obtain ⟨d, hd, rfl⟩ := ofLines_eq_ok_iff.mp h
  have hheader : d.line.isOtherwise = false :=
    Line.isOtherwise_eq_false hd.header.sentence Sentence.noConfusion
  rw [← hd.lines, Document.lines, stated_cons hheader, ← placesAll_blockStatements _ hd.body]
  rfl

end Swimlane.Story
