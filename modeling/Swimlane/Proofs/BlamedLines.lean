import Mathlib
import Swimlane.Proofs.Mentions
import Swimlane.Proofs.Spacing

/-!
# Lines that are blamed

A story that cannot be read has a line that is blamed for it.  A line that is blamed for a
malformed placeholder has a stray brace, with two exceptions.  A `Send` line is blamed too if it is
cut inside of a placeholder, at its name.  And the conditions of a conditional are checked
together, when all of it has been read: then the `If` line is blamed for a stray brace in an
`Otherwise if` line.

## Key results

- `blamed_of_send`: what is wrong with a `Send` line that is malformed
- `exists_of_alternatives`: the lines of the branches of a conditional
- `block_blames`: a block that cannot be read has a line that is blamed
-/

namespace Swimlane.Story

open Text Placeholder

/-! ## What lines are blamed for -/

/-- A `Send` line with a placeholder that has one of the words for its name at which such lines are
    cut. -/
def Line.CutsPlaceholder (l : Line) : Prop :=
  (∃ message recipient channel,
    Sentence.ofText? l.text = some (.send message recipient channel)) ∧
  ∃ name ∈ names l.text, SameWord "to" name.toList ∨ SameWord "via" name.toList

/-- An `Otherwise if` line. -/
def Line.IsOther (l : Line) : Prop :=
  ∃ condition, Sentence.ofText? l.text = some (.otherwise (some condition))

/-- The lines go on with the conditional of the given line: behind lines that are deeper, or are
    `Otherwise if` lines of its own indentation, there is another such line. -/
def Continues (head : Line) (ls : List Line) (l : Line) : Prop :=
  ∃ between rest, ls = between ++ l :: rest ∧
    (∀ b ∈ between, head.indent < b.indent ∨ b.indent = head.indent ∧ b.IsOther) ∧
    l.indent = head.indent ∧ l.IsOther

/-- The line, in front of the given lines, can be blamed for a malformed placeholder. -/
def Line.Blamed (l : Line) (after : List Line) : Prop :=
  hasStrayBrace l.text = true ∨ l.CutsPlaceholder ∨
    (∃ condition, Sentence.ofText? l.text = some (.condition condition)) ∧
      ∃ l', Continues l after l' ∧ hasStrayBrace l'.text = true

/-- The error blames one of the lines. -/
def Blames (ls : List Line) (e : Error) : Prop :=
  ∃ before l after, ls = before ++ l :: after ∧ e.line = l.number ∧ e.text = l.text ∧
    (e.fault = .malformedPlaceholder → l.Blamed after)

theorem Blames.append (front : List Line) {ls : List Line} {e : Error} (h : Blames ls e) :
    Blames (front ++ ls) e := by
  obtain ⟨before, l, after, rfl, hblamed⟩ := h
  exact ⟨front ++ before, l, after, by rw [List.append_assoc], hblamed⟩

theorem blames_error {l : Line} {after : List Line} {fault : Fault}
    (h : fault = .malformedPlaceholder → l.Blamed after) : Blames (l :: after) (l.error fault) :=
  ⟨[], l, after, rfl, rfl, rfl, h⟩

theorem blames_misplaced (l : Line) (after : List Line) : Blames (l :: after) l.misplaced := by
  unfold Line.misplaced
  split <;> exact blames_error fun h => by cases h

/-! ## Lines of their own -/

/-- A `Send` line is malformed if it has a stray brace, or if it is cut inside of a placeholder. -/
theorem blamed_of_send {text message recipient : String} {channel : Option String}
    (h : Sentence.ofText? text = some (.send message recipient channel))
    (hmalformed : hasStrayBrace message = true ∨ hasStrayBrace recipient = true) :
    hasStrayBrace text = true ∨
      ∃ name ∈ names text, SameWord "to" name.toList ∨ SameWord "via" name.toList := by
  refine or_iff_not_imp_left.mpr fun hstray => ?_
  have htidy : Tidy text.toList := tidy_iff.mpr (Bool.eq_false_iff.mpr hstray)
  obtain ⟨front, m, x, rest, hfront, htext, hto, rfl, rfl, rfl⟩ := Sentence.exists_of_ofText?_send h
  rw [← List.append_assoc] at htext
  -- The first cut goes through a placeholder, or else the second one does.
  by_cases hfirst : Closes (front ++ m)
  · have hbraced : braced text.toList = braced (front ++ m) ++ braced rest := by
      rw [htext, braced_append (Or.inl hfirst),
        (Sentence.encloses_of_behindWord? (by simp [keywords]) hto).braced_eq]
    have hm : Tidy m := by
      intro part hpart
      rw [← (Encloses.of_front front hfront m).braced_eq] at hpart
      exact htidy part (by rw [hbraced]; exact List.mem_append_left _ hpart)
    have hrest : Tidy rest :=
      fun part hpart => htidy part (by rw [hbraced]; exact List.mem_append_right _ hpart)
    have hrecipient : ¬ Tidy (Sentence.splitVia rest).1 := by
      rw [← hasStrayBrace_trimmed_eq_false, Bool.not_eq_false]
      refine hmalformed.resolve_left ?_
      rw [hasStrayBrace_trimmed_eq_false.mpr hm]
      decide
    rcases Sentence.splitVia_cases rest with ⟨r, found, hsplit, ⟨_, y, hy, hvia⟩, _⟩ | ⟨hsplit, _⟩
    · rw [hsplit] at hrecipient
      have hsecond : ¬ Closes r := by
        intro hcloses
        refine hrecipient fun part hpart => hrest part ?_
        rw [hy, braced_append (Or.inl hcloses)]
        exact List.mem_append_left _ hpart
      obtain ⟨gap, w, gap', _, _, _, _, _, hx, _⟩ :=
        (Sentence.behindWord?_eq_some_iff (by simp [keywords])).mp hto
      have hcut : text.toList = ((front ++ m) ++ (gap ++ (w ++ gap')) ++ r) ++ y := by
        rw [htext, hx, hy]
        simp
      obtain ⟨name, hname, hword⟩ := Sentence.exists_mem_names_of_unclosed (by simp [keywords])
        htidy hcut (mt (Closes.of_append _) hsecond) hvia
      exact ⟨name, hname, Or.inr hword⟩
    · rw [hsplit] at hrecipient
      exact absurd hrest hrecipient
  · obtain ⟨name, hname, hword⟩ :=
      Sentence.exists_mem_names_of_unclosed (by simp [keywords]) htidy htext hfirst hto
    exact ⟨name, hname, Or.inl hword⟩

/-- A line that says a malformed statement can be blamed. -/
theorem Line.Says.blamed {l : Line} {s : Statement} (h : l.Says s) (hs : s.isMalformed = true)
    (after : List Line) : l.Blamed after := by
  -- All but `Send` lines have the stray braces of their text.
  have hstray : ∀ {sentence : Sentence} {text : String},
      Sentence.ofText? l.text = some sentence → sentence.text? = some text →
      hasStrayBrace text = true → l.Blamed after := by
    intro sentence text hl ht hstray
    left
    rw [(names_and_hasStrayBrace_congr (Sentence.braced_of_ofText? hl ht)).2, hstray]
  cases h with
  | ask h => exact hstray h rfl (by simpa [Statement.isMalformed, Statement.parts] using hs)
  | perform h => exact hstray h rfl (by simpa [Statement.isMalformed, Statement.parts] using hs)
  | stop h => exact hstray h rfl (by simpa [Statement.isMalformed, Statement.parts] using hs)
  | send h =>
    rcases blamed_of_send h (by simpa [Statement.isMalformed, Statement.parts] using hs) with
      hline | hcut
    · exact Or.inl hline
    · exact Or.inr (Or.inl ⟨⟨_, _, _, h⟩, hcut⟩)

theorem checked_blames {l : Line} {s : Statement} {e : Error} {after : List Line}
    (h : checked l s = .error e) (hs : s.isMalformed = true → l.Blamed after) :
    Blames (l :: after) e := by
  rw [checked] at h
  split at h
  · rename_i hmalformed
    cases h
    exact blames_error fun _ => hs hmalformed
  · cases h

/-- A line of its own that cannot be read is blamed. -/
theorem simple_blames {l : Line} {sentence : Sentence} {e : Error}
    (hl : Sentence.ofText? l.text = some sentence) (h : simple l sentence = .error e)
    (after : List Line) : Blames (l :: after) e := by
  cases sentence with
  | ask subject rest => exact checked_blames h fun hs => (Line.Says.ask hl).blamed hs after
  | perform action => exact checked_blames h fun hs => (Line.Says.perform hl).blamed hs after
  | send message recipient channel =>
    exact checked_blames h fun hs => (Line.Says.send hl).blamed hs after
  | stop reason => exact checked_blames h fun hs => (Line.Says.stop hl).blamed hs after
  | _ =>
    cases h
    exact blames_error fun h => by cases h

/-- A header that cannot be read is blamed. -/
theorem headerOf_blames {l : Line} {e : Error} (h : headerOf l = .error e) (after : List Line) :
    Blames (l :: after) e := by
  rw [headerOf] at h
  split at h
  · rename_i name hl
    split at h
    · cases h
      exact blames_error fun h => by cases h
    · refine checked_blames h fun hs => Or.inl ?_
      rw [(names_and_hasStrayBrace_congr (Sentence.braced_of_ofText? hl rfl)).2]
      simpa [Statement.isMalformed, Statement.parts] using hs
  · cases h
    exact blames_error fun h => by cases h

/-! ## Lines that are taken -/

mutual

/-- No line of a clause stands in front of the clause. -/
theorem Clause.le_indent : (c : Clause) → ∀ {indent}, c.Conforms indent →
    ∀ l ∈ c.lines, indent ≤ l.indent
  | .plain l s, _, h => by
    intro l' hl'
    rw [List.mem_singleton.mp hl', h.1]
  | .conditional l _ body tail, _, h => by
    obtain ⟨hindent, _, ⟨_, deeper, hlt, hbody⟩, htail⟩ := h
    intro l' hl'
    rw [Clause.lines, List.mem_cons, List.mem_append] at hl'
    rcases hl' with rfl | hl' | hl'
    · exact Nat.le_of_eq hindent.symm
    · exact Nat.le_trans (Nat.le_of_lt hlt) (le_indent_of_mem_blockLines body hbody l' hl')
    · exact tail.le_indent htail l' hl'

/-- No line of a block stands in front of the block. -/
theorem le_indent_of_mem_blockLines : (cs : List Clause) → ∀ {indent}, blockConforms indent cs →
    ∀ l ∈ blockLines cs, indent ≤ l.indent
  | [], _, _ => fun l hl => absurd hl List.not_mem_nil
  | c :: rest, _, h => by
    intro l hl
    rw [blockLines, List.mem_append] at hl
    cases hl with
    | inl hl => exact c.le_indent h.1 l hl
    | inr hl => exact le_indent_of_mem_blockLines rest h.2 l hl

/-- No line in the rest of a conditional stands in front of the conditional. -/
theorem Tail.le_indent : (t : Tail) → ∀ {indent}, t.Conforms indent →
    ∀ l ∈ t.lines, indent ≤ l.indent
  | .done, _, _ => fun l hl => absurd hl List.not_mem_nil
  | .otherwise l body, _, h => by
    obtain ⟨hindent, _, _, deeper, hlt, hbody⟩ := h
    intro l' hl'
    rw [Tail.lines, List.mem_cons] at hl'
    rcases hl' with rfl | hl'
    · exact Nat.le_of_eq hindent.symm
    · exact Nat.le_trans (Nat.le_of_lt hlt) (le_indent_of_mem_blockLines body hbody l' hl')
  | .branch l _ body tail, _, h => by
    obtain ⟨hindent, _, ⟨_, deeper, hlt, hbody⟩, htail⟩ := h
    intro l' hl'
    rw [Tail.lines, List.mem_cons, List.mem_append] at hl'
    rcases hl' with rfl | hl' | hl'
    · exact Nat.le_of_eq hindent.symm
    · exact Nat.le_trans (Nat.le_of_lt hlt) (le_indent_of_mem_blockLines body hbody l' hl')
    · exact tail.le_indent htail l' hl'

end

/-- The lines of the block under a line are deeper than the line. -/
theorem exists_of_body {head : Line} {ls : List Line} {r : Parsed (List Statement) ls}
    (h : body head ls = .ok r) :
    ∃ taken, ls = taken ++ r.rest ∧ ∀ l ∈ taken, head.indent < l.indent := by
  cases ls with
  | nil => rw [body] at h; cases h
  | cons l more =>
    rw [body] at h
    split at h
    · cases h
    · rename_i hdeeper
      obtain ⟨cs, hcs, hlines, _⟩ := block_sound h
      refine ⟨blockLines cs, hlines.symm, fun l' hl' => ?_⟩
      have := le_indent_of_mem_blockLines cs hcs l' hl'
      omega

theorem Continues.append {head l : Line} {ls : List Line} (h : Continues head ls l)
    (front : List Line)
    (hfront : ∀ b ∈ front, head.indent < b.indent ∨ b.indent = head.indent ∧ b.IsOther) :
    Continues head (front ++ ls) l := by
  obtain ⟨between, rest, rfl, hbetween, hl⟩ := h
  exact ⟨front ++ between, rest, by rw [List.append_assoc],
    List.forall_mem_append.mpr ⟨hfront, hbetween⟩, hl⟩

/-- The rest of a conditional is taken from the front of the lines, and every branch in it stands on
    a line that goes on with the conditional. -/
theorem exists_of_alternatives {head : Line} {ls : List Line}
    {r : Parsed (List Branch × Option (List Statement)) ls} (h : alternatives head ls = .ok r) :
    (∃ taken, ls = taken ++ r.rest) ∧ ∀ b ∈ r.value.1, ∃ l, Continues head ls l ∧
      Sentence.ofText? l.text = some (.otherwise (some b.condition)) := by
  cases ls with
  | nil =>
    rw [alternatives] at h
    cases h
    exact ⟨⟨[], rfl⟩, fun b hb => absurd hb List.not_mem_nil⟩
  | cons l more =>
    rw [alternatives] at h
    split at h
    · cases h
      exact ⟨⟨[], rfl⟩, fun b hb => absurd hb List.not_mem_nil⟩
    rename_i hindent
    rw [Decidable.not_not] at hindent
    split at h
    · rename_i condition hl
      obtain ⟨⟨b, rest, hrest⟩, hb, h⟩ := Except.bind_eq_ok.mp h
      obtain ⟨⟨⟨branches, otherwise⟩, last, hlast⟩, halt, h⟩ := Except.bind_eq_ok.mp h
      cases h
      obtain ⟨taken, hmore, hdeeper⟩ := exists_of_body hb
      obtain ⟨⟨taken', hrest'⟩, hbranches⟩ := exists_of_alternatives halt
      have hother : l.IsOther := ⟨condition, hl⟩
      refine ⟨⟨l :: (taken ++ taken'), ?_⟩, ?_⟩
      · rw [List.cons_append, List.append_assoc, ← hrest', hmore]
      refine List.forall_mem_cons.mpr ⟨⟨l, ⟨[], _, rfl, by simp, hindent, hother⟩, hl⟩, ?_⟩
      intro branch hbranch
      obtain ⟨l', hcontinues, hl'⟩ := hbranches branch hbranch
      refine ⟨l', ?_, hl'⟩
      rw [hmore]
      refine hcontinues.append (l :: taken) (List.forall_mem_cons.mpr
        ⟨Or.inr ⟨hindent, hother⟩, fun b hb => Or.inl ?_⟩)
      rw [← hindent]
      exact hdeeper b hb
    · obtain ⟨⟨b, rest, hrest⟩, hb, h⟩ := Except.bind_eq_ok.mp h
      cases h
      obtain ⟨taken, hmore, _⟩ := exists_of_body hb
      exact ⟨⟨l :: taken, congrArg (l :: ·) hmore⟩, fun b hb => absurd hb List.not_mem_nil⟩
    · cases h
      exact ⟨⟨[], rfl⟩, fun b hb => absurd hb List.not_mem_nil⟩
termination_by ls.length
decreasing_by
  subst_vars
  simp only [List.length_cons]
  omega

/-! ## Blocks -/

/-- A conditional is malformed if one of its lines has a stray brace. -/
theorem blamed_of_conditional {head : Line} {condition : String} {ls rest : List Line}
    {first : Parsed (List Statement) ls}
    {others : Parsed (List Branch × Option (List Statement)) rest}
    (hl : Sentence.ofText? head.text = some (.condition condition))
    (hfirst : body head ls = .ok first) (hrest : first.rest = rest)
    (hothers : alternatives head rest = .ok others)
    (hmalformed : (Statement.conditional head.source
      (⟨condition, first.value, head.number⟩ :: others.value.1)
      others.value.2).isMalformed = true) :
    head.Blamed ls := by
  simp only [Statement.isMalformed, Statement.parts, List.map_cons, List.any_cons, List.any_map,
    Bool.or_eq_true, List.any_eq_true, Function.comp] at hmalformed
  rcases hmalformed with hstray | ⟨b, hb, hstray⟩
  · left
    rw [(names_and_hasStrayBrace_congr (Sentence.braced_of_ofText? hl rfl)).2, hstray]
  · obtain ⟨taken, hls, hdeeper⟩ := exists_of_body hfirst
    obtain ⟨l, hcontinues, hother⟩ := (exists_of_alternatives hothers).2 b hb
    refine Or.inr (Or.inr ⟨⟨condition, hl⟩, l, ?_, ?_⟩)
    · rw [hls, hrest]
      exact hcontinues.append taken fun b hb => Or.inl (hdeeper b hb)
    · rw [(names_and_hasStrayBrace_congr (Sentence.braced_of_ofText? hother rfl)).2, hstray]

/-- A conditional is taken from the front of the lines. -/
theorem exists_of_conditional {head : Line} {condition : String} {ls : List Line}
    {r : Parsed Statement ls} (h : conditional head condition ls = .ok r) :
    ∃ taken, ls = taken ++ r.rest := by
  rw [conditional] at h
  obtain ⟨⟨first, rest, hrest⟩, hfirst, h⟩ := Except.bind_eq_ok.mp h
  obtain ⟨⟨⟨branches, otherwise⟩, last, hlast⟩, halt, h⟩ := Except.bind_eq_ok.mp h
  obtain ⟨s, _, h⟩ := Except.bind_eq_ok.mp h
  cases h
  obtain ⟨taken, hls, _⟩ := exists_of_body hfirst
  obtain ⟨⟨taken', hrest'⟩, _⟩ := exists_of_alternatives halt
  exact ⟨taken ++ taken', by rw [List.append_assoc, ← hrest', hls]⟩

-- The four readers call each other.  A reader that takes lines and fails behind them blames a line
-- of what is left, so the taken lines are put back in front.
mutual

/-- A block that cannot be read has a line that is blamed. -/
theorem block_blames {indent : Nat} {ls : List Line} {e : Error}
    (h : block indent ls = .error e) : Blames ls e := by
  cases ls with
  | nil => rw [block] at h; cases h
  | cons l more =>
    rw [block] at h
    split at h
    · cases h
    split at h
    · cases h
      exact blames_misplaced l more
    split at h
    · cases h
      exact blames_error fun h => by cases h
    · cases h
    · rename_i text hl
      rcases Except.bind_eq_error.mp h with h | ⟨⟨s, rest, hrest⟩, hs, h⟩
      · exact conditional_blames hl h
      · rcases Except.bind_eq_error.mp h with h | ⟨_, _, h⟩
        · obtain ⟨taken, hmore⟩ := exists_of_conditional hs
          rw [hmore]
          exact (block_blames h).append (l :: taken)
        · cases h
    · rename_i sentence _ _ hl
      rcases Except.bind_eq_error.mp h with h | ⟨s, _, h⟩
      · exact simple_blames hl h more
      · rcases Except.bind_eq_error.mp h with h | ⟨_, _, h⟩
        · exact (block_blames h).append [l]
        · cases h
termination_by (ls.length, 0)
decreasing_by
  all_goals (subst_vars; apply Prod.Lex.left; simp only [List.length_cons]; omega)

/-- A conditional that cannot be read has a line that is blamed. -/
theorem conditional_blames {head : Line} {condition : String} {ls : List Line} {e : Error}
    (hl : Sentence.ofText? head.text = some (.condition condition))
    (h : conditional head condition ls = .error e) : Blames (head :: ls) e := by
  rw [conditional] at h
  rcases Except.bind_eq_error.mp h with h | ⟨⟨first, rest, hrest⟩, hfirst, h⟩
  · exact body_blames h
  rcases Except.bind_eq_error.mp h with h | ⟨⟨⟨branches, otherwise⟩, last, hlast⟩, halt, h⟩
  · obtain ⟨taken, hls, _⟩ := exists_of_body hfirst
    rw [hls]
    exact (alternatives_blames h).append (head :: taken)
  -- The conditions are checked last, when all branches have been read.
  rcases Except.bind_eq_error.mp h with h | ⟨_, _, h⟩
  · exact checked_blames h (blamed_of_conditional hl hfirst rfl halt)
  · cases h
termination_by (ls.length, 2)
decreasing_by
  · apply Prod.Lex.right; omega
  · rcases Nat.lt_or_eq_of_le hrest with hlt | heq
    · exact Prod.Lex.left _ _ hlt
    · rw [heq]; apply Prod.Lex.right; omega

/-- A line without a block, or a line in the block, is blamed. -/
theorem body_blames {head : Line} {ls : List Line} {e : Error} (h : body head ls = .error e) :
    Blames (head :: ls) e := by
  cases ls with
  | nil =>
    rw [body] at h
    cases h
    exact blames_error fun h => by cases h
  | cons l more =>
    rw [body] at h
    split at h
    · cases h
      exact blames_error fun h => by cases h
    · exact (block_blames h).append [head]
termination_by (ls.length, 1)
decreasing_by
  subst_vars; apply Prod.Lex.right; omega

/-- The rest of a conditional that cannot be read has a line that is blamed. -/
theorem alternatives_blames {head : Line} {ls : List Line} {e : Error}
    (h : alternatives head ls = .error e) : Blames ls e := by
  cases ls with
  | nil => rw [alternatives] at h; cases h
  | cons l more =>
    rw [alternatives] at h
    split at h
    · cases h
    split at h
    · rcases Except.bind_eq_error.mp h with h | ⟨⟨b, rest, hrest⟩, hb, h⟩
      · exact body_blames h
      · rcases Except.bind_eq_error.mp h with h | ⟨_, _, h⟩
        · obtain ⟨taken, hmore, _⟩ := exists_of_body hb
          rw [hmore]
          exact (alternatives_blames h).append (l :: taken)
        · cases h
    · rcases Except.bind_eq_error.mp h with h | ⟨_, _, h⟩
      · exact body_blames h
      · cases h
    · cases h
termination_by (ls.length, 0)
decreasing_by
  all_goals (subst_vars; apply Prod.Lex.left; simp only [List.length_cons]; omega)

end

/-! ## Stories -/

/-- Only one fault has its text. -/
theorem Fault.eq_malformedPlaceholder {fault : Fault}
    (h : fault.text = "malformed variable placeholder") : fault = .malformedPlaceholder := by
  cases fault with
  | malformedPlaceholder => rfl
  | _ => simp [Fault.text] at h

theorem ofLines_blames {ls : List Line} {e : Error} (h : ofLines ls = .error e) :
    (ls = [] ∧ e = ⟨.missingHeader, 1, ""⟩) ∨ Blames ls e := by
  cases ls with
  | nil =>
    cases h
    exact Or.inl ⟨rfl, rfl⟩
  | cons l more =>
    right
    rw [ofLines] at h
    rcases Except.bind_eq_error.mp h with h | ⟨header, _, h⟩
    · exact headerOf_blames h more
    rcases Except.bind_eq_error.mp h with h | ⟨⟨statements, rest, hrest⟩, hblock, h⟩
    · exact (block_blames h).append [l]
    obtain ⟨cs, _, hlines, _⟩ := block_sound hblock
    rw [← hlines]
    cases rest with
    | nil => cases h
    | cons leftover others =>
      cases h
      exact (blames_misplaced leftover others).append (l :: blockLines cs)

/-- The error of a story that cannot be read tells a line of the story, unless it has none.  What
    is told to have a malformed placeholder has a stray brace, or is a `Send` line that is cut
    inside of a placeholder, or an `If` line whose conditional goes on with a line that has a stray
    brace. -/
theorem blamed_line {story : String} {e : Error} (h : parse story = .error e) :
    (lines story = [] ∧ e = ⟨.missingHeader, 1, ""⟩) ∨
    ∃ before l after, lines story = before ++ l :: after ∧ e.line = l.number ∧ e.text = l.text ∧
      (e.fault.text = "malformed variable placeholder" → l.Blamed after) := by
  rcases ofLines_blames h with hnone | ⟨before, l, after, hlines, hnumber, htext, hblamed⟩
  · exact Or.inl hnone
  · exact Or.inr ⟨before, l, after, hlines, hnumber, htext,
      fun hfault => hblamed (Fault.eq_malformedPlaceholder hfault)⟩

/-- A story with a placeholder that has the word for its name at which the line is cut. -/
def cutStory : String := "Flow: F\nSend a { to } b"

theorem parse_cutStory :
    parse cutStory = .error ⟨.malformedPlaceholder, 2, "Send a { to } b"⟩ := by cbv

/-- The line is told to have a malformed placeholder, and it can be blamed for it. -/
theorem blamed_line_cutStory :
    parse cutStory = .error ⟨.malformedPlaceholder, 2, "Send a { to } b"⟩ ∧
    ∃ before l after, lines cutStory = before ++ l :: after ∧ l.number = 2 ∧
      l.text = "Send a { to } b" ∧ l.Blamed after := by
  refine ⟨parse_cutStory, ?_⟩
  rcases blamed_line parse_cutStory with
    ⟨_, h⟩ | ⟨before, l, after, hlines, hnumber, htext, hblamed⟩
  · cases h
  · exact ⟨before, l, after, hlines, hnumber.symm, htext.symm, hblamed rfl⟩

/-- A story with a brace that is not closed, in an `Otherwise if` line. -/
def openStory : String := "Flow: F\nIf a\n  Do: x\nOtherwise if \x7bb\n  Do: y"

theorem parse_openStory : parse openStory = .error ⟨.malformedPlaceholder, 2, "If a"⟩ := by cbv

theorem hasStrayBrace_openLines : hasStrayBrace "If a" = false ∧
    hasStrayBrace "Otherwise if \x7bb" = true := by cbv

/-- The `If` line is told to have a malformed placeholder, which has no brace. -/
theorem innocent_line_blamed :
    parse openStory = .error ⟨.malformedPlaceholder, 2, "If a"⟩ ∧
    Fault.text .malformedPlaceholder = "malformed variable placeholder" ∧
    hasStrayBrace "If a" = false ∧ hasStrayBrace "Otherwise if \x7bb" = true :=
  ⟨parse_openStory, rfl, hasStrayBrace_openLines⟩

end Swimlane.Story
