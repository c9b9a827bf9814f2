import Swimlane.Proofs.StateNames
import Swimlane.Story.Parser

/-!
# The grammar of stories

A story is derived from its significant lines by a grammar in which the indentation of a line
says what it belongs to.  A document is a header and a block of the same indentation.  A block is
a list of clauses of one indentation: lines of their own, and conditionals.  In a conditional a
nonempty block, deeper than the `If`, stands under every one of its lines.

A derivation is a tree with the lines at its leaves.  It has a list of statements.

## Key results

- `blockStatements_plain`: the statements of a derivation can be built
- `placesAll_blockStatements`: a statement or a branch for every line but plain `Otherwise` lines
- `blockConforms_unique`: at most one derivation for a list of lines
-/

namespace Swimlane.Story

/-! ## Lines -/

/-- The statements that a line can say on its own. -/
inductive Line.Says (l : Line) : Statement → Prop
  | ask {subject rest : String} (h : Sentence.ofText? l.text = some (.ask subject rest)) :
    Says l (.ask l.source subject (subject ++ " " ++ rest))
  | perform {action : String} (h : Sentence.ofText? l.text = some (.perform action)) :
    Says l (.perform l.source action)
  | send {message recipient : String} {channel : Option String}
      (h : Sentence.ofText? l.text = some (.send message recipient channel)) :
    Says l (.send l.source message recipient (channel.getD (inferChannel message)))
  | stop {reason : String} (h : Sentence.ofText? l.text = some (.stop reason)) :
    Says l (.stop l.source reason)

/-- A line with a header, whose name is not empty and has no stray brace. -/
structure Line.IsFlow (l : Line) (name : String) : Prop where
  sentence : Sentence.ofText? l.text = some (.flow name)
  named : name ≠ ""
  braces : Placeholder.hasStrayBrace name = false

/-- An `If` line, whose condition has no stray brace. -/
structure Line.IsIf (l : Line) (condition : String) : Prop where
  sentence : Sentence.ofText? l.text = some (.condition condition)
  braces : Placeholder.hasStrayBrace condition = false

/-- An `Otherwise if` line, whose condition has no stray brace. -/
structure Line.IsOtherwiseIf (l : Line) (condition : String) : Prop where
  sentence : Sentence.ofText? l.text = some (.otherwise (some condition))
  braces : Placeholder.hasStrayBrace condition = false

/-- Whether a line is a plain `Otherwise`. -/
def Line.isOtherwise (l : Line) : Bool := Sentence.ofText? l.text = some (.otherwise none)

/-! ## Derivations -/

mutual

/-- A statement, derived from the lines that it stands on. -/
inductive Clause where
  /-- A line of its own, and what it says. -/
  | plain (line : Line) (statement : Statement)
  /-- An `If` line, the block under it, and what follows in the conditional. -/
  | conditional (line : Line) (condition : String) (body : List Clause) (tail : Tail)

/-- The part of a conditional behind the block of a condition. -/
inductive Tail where
  | done
  /-- An `Otherwise` line and the block under it. -/
  | otherwise (line : Line) (body : List Clause)
  /-- An `Otherwise if` line, the block under it, and what follows. -/
  | branch (line : Line) (condition : String) (body : List Clause) (tail : Tail)

end

mutual

/-- The rules of the grammar for a clause of the given indentation. -/
def Clause.Conforms (indent : Nat) : Clause → Prop
  | .plain l s => l.indent = indent ∧ l.Says s ∧ s.isMalformed = false
  | .conditional l condition body tail =>
    l.indent = indent ∧ l.IsIf condition ∧
      (body ≠ [] ∧ ∃ deeper, indent < deeper ∧ blockConforms deeper body) ∧ tail.Conforms indent

/-- The rules of the grammar for a block of the given indentation. -/
def blockConforms (indent : Nat) : List Clause → Prop
  | [] => True
  | c :: rest => c.Conforms indent ∧ blockConforms indent rest

/-- The rules of the grammar for the rest of a conditional of the given indentation. -/
def Tail.Conforms (indent : Nat) : Tail → Prop
  | .done => True
  | .otherwise l body =>
    l.indent = indent ∧ l.isOtherwise = true ∧
      (body ≠ [] ∧ ∃ deeper, indent < deeper ∧ blockConforms deeper body)
  | .branch l condition body tail =>
    l.indent = indent ∧ l.IsOtherwiseIf condition ∧
      (body ≠ [] ∧ ∃ deeper, indent < deeper ∧ blockConforms deeper body) ∧ tail.Conforms indent

end

/-- The rules of the grammar for the block under a line of the given indentation. -/
def bodyConforms (indent : Nat) (body : List Clause) : Prop :=
  body ≠ [] ∧ ∃ deeper, indent < deeper ∧ blockConforms deeper body

mutual

/-- The lines of a clause. -/
def Clause.lines : Clause → List Line
  | .plain l _ => [l]
  | .conditional l _ body tail => l :: (blockLines body ++ tail.lines)

/-- The lines of a block. -/
def blockLines : List Clause → List Line
  | [] => []
  | c :: rest => c.lines ++ blockLines rest

/-- The lines of the rest of a conditional. -/
def Tail.lines : Tail → List Line
  | .done => []
  | .otherwise l body => l :: blockLines body
  | .branch l _ body tail => l :: (blockLines body ++ tail.lines)

end

mutual

/-- The statement of a clause. -/
def Clause.statement : Clause → Statement
  | .plain _ s => s
  | .conditional l condition body tail =>
    .conditional l.source (⟨condition, blockStatements body, l.number⟩ :: tail.branches)
      tail.otherwise?

/-- The statements of a block. -/
def blockStatements : List Clause → List Statement
  | [] => []
  | c :: rest => c.statement :: blockStatements rest

/-- The branches in the rest of a conditional. -/
def Tail.branches : Tail → List Branch
  | .done => []
  | .otherwise .. => []
  | .branch l condition body tail =>
    ⟨condition, blockStatements body, l.number⟩ :: tail.branches

/-- The body without condition in the rest of a conditional. -/
def Tail.otherwise? : Tail → Option (List Statement)
  | .done => none
  | .otherwise _ body => some (blockStatements body)
  | .branch _ _ _ tail => tail.otherwise?

end

/-- A whole story: its header, and the block of the same indentation. -/
structure Document where
  line : Line
  name : String
  body : List Clause

namespace Document

/-- The lines of a document. -/
def lines (d : Document) : List Line := d.line :: blockLines d.body

/-- The statements of a document, the header first. -/
def statements (d : Document) : List Statement :=
  .header d.line.source d.name :: blockStatements d.body

/-- A document is a derivation of some lines if it follows the rules of the grammar and has just
    these lines. -/
structure Derives (d : Document) (ls : List Line) : Prop where
  header : d.line.IsFlow d.name
  body : blockConforms d.line.indent d.body
  lines : d.lines = ls

end Document

/-! ## The statements of a derivation -/

/-- What a line says on its own is plain. -/
theorem Line.Says.plain {l : Line} {s : Statement} (h : l.Says s) : s.Plain := by
  cases h <;> exact trivial

/-- A conditional is plain if its branches are, and its last body if it has one. -/
theorem plain_conditional {source : Source} {branches : List Branch}
    {otherwise : Option (List Statement)} (hb : branchesPlain branches)
    (ho : ∀ body ∈ otherwise, allPlain body) :
    (Statement.conditional source branches otherwise).Plain := by
  cases otherwise with
  | none => exact hb
  | some body => exact ⟨hb, ho body rfl⟩

mutual

/-- The statement of a clause is plain. -/
theorem Clause.statement_plain : (c : Clause) → ∀ {indent}, c.Conforms indent → c.statement.Plain
  | .plain _ _, _, h => h.2.1.plain
  | .conditional _ _ body tail, _, h => by
    obtain ⟨_, _, ⟨_, deeper, _, hbody⟩, htail⟩ := h
    have hplain := tail.plain htail
    exact plain_conditional ⟨blockStatements_plain body hbody, hplain.1⟩ hplain.2

/-- The statements of a block are plain. -/
theorem blockStatements_plain : (cs : List Clause) → ∀ {indent}, blockConforms indent cs →
    allPlain (blockStatements cs)
  | [], _, _ => trivial
  | c :: rest, _, h => ⟨c.statement_plain h.1, blockStatements_plain rest h.2⟩

/-- The statements in the rest of a conditional are plain. -/
theorem Tail.plain : (t : Tail) → ∀ {indent}, t.Conforms indent →
    branchesPlain t.branches ∧ ∀ body ∈ t.otherwise?, allPlain body
  | .done, _, _ => ⟨trivial, fun _ h => nomatch h⟩
  | .otherwise _ body, _, h => by
    obtain ⟨_, _, _, deeper, _, hbody⟩ := h
    refine ⟨trivial, fun b hb => ?_⟩
    cases hb
    exact blockStatements_plain body hbody
  | .branch _ _ body tail, _, h => by
    obtain ⟨_, _, ⟨_, deeper, _, hbody⟩, htail⟩ := h
    have hplain := tail.plain htail
    exact ⟨⟨blockStatements_plain body hbody, hplain.1⟩, hplain.2⟩

end

/-! ## Places -/

mutual

/-- The numbers of the lines that a statement and the statements in it were read from.  A
    conditional stands on the lines of its branches. -/
def Statement.places : Statement → List Int
  | .conditional _ branches none => branchPlaces branches
  | .conditional _ branches (some body) => branchPlaces branches ++ placesAll body
  | s => [s.source.line]

/-- The numbers of the lines of statements. -/
def placesAll : List Statement → List Int
  | [] => []
  | s :: rest => s.places ++ placesAll rest

/-- The numbers of the lines of branches. -/
def branchPlaces : List Branch → List Int
  | [] => []
  | ⟨_, body, line⟩ :: rest => (line : Int) :: (placesAll body ++ branchPlaces rest)

end

/-- The numbers of the given lines, without plain `Otherwise` lines. -/
def stated (ls : List Line) : List Int :=
  (ls.filter (!·.isOtherwise)).map fun l => (l.number : Int)

@[simp] theorem stated_append (ls ls' : List Line) : stated (ls ++ ls') = stated ls ++ stated ls' := by
  simp [stated]

/-- A line that does not say `Otherwise` counts. -/
theorem stated_cons {l : Line} (h : l.isOtherwise = false) (ls : List Line) :
    stated (l :: ls) = (l.number : Int) :: stated ls := by
  simp [stated, h]

/-- A plain `Otherwise` line does not count. -/
theorem stated_cons_otherwise {l : Line} (h : l.isOtherwise = true) (ls : List Line) :
    stated (l :: ls) = stated ls := by
  simp [stated, h]

/-- A line is a plain `Otherwise` if it says so. -/
theorem Line.isOtherwise_eq_true {l : Line} :
    l.isOtherwise = true ↔ Sentence.ofText? l.text = some (.otherwise none) :=
  decide_eq_true_iff

/-- A line with another sentence is not a plain `Otherwise`. -/
theorem Line.isOtherwise_eq_false {l : Line} {sentence : Sentence}
    (h : Sentence.ofText? l.text = some sentence) (hne : sentence ≠ .otherwise none) :
    l.isOtherwise = false := by
  simpa [Line.isOtherwise, h] using hne

/-- A line that says something on its own is the place of what it says. -/
theorem Line.Says.places {l : Line} {s : Statement} (h : l.Says s) : s.places = stated [l] := by
  cases h with
  | _ h => rw [stated_cons (Line.isOtherwise_eq_false h Sentence.noConfusion)]; rfl

/-- The places of a conditional are those of its bodies. -/
theorem places_conditional (source : Source) (branches : List Branch)
    (otherwise : Option (List Statement)) :
    (Statement.conditional source branches otherwise).places =
      branchPlaces branches ++ (otherwise.map placesAll).getD [] := by
  cases otherwise with
  | none => exact (List.append_nil _).symm
  | some body => rfl

mutual

/-- The places of a clause are its lines without `Otherwise`. -/
theorem Clause.places_statement : (c : Clause) → ∀ {indent}, c.Conforms indent →
    c.statement.places = stated c.lines
  | .plain _ _, _, h => h.2.1.places
  | .conditional l _ body tail, _, h => by
    obtain ⟨_, hif, ⟨_, deeper, _, hbody⟩, htail⟩ := h
    rw [Clause.statement, places_conditional, branchPlaces, Clause.lines,
      stated_cons (Line.isOtherwise_eq_false hif.sentence Sentence.noConfusion), stated_append,
      placesAll_blockStatements body hbody, ← tail.places_eq htail]
    simp only [List.cons_append, List.append_assoc]

/-- The places of a block are its lines without `Otherwise`. -/
theorem placesAll_blockStatements : (cs : List Clause) → ∀ {indent}, blockConforms indent cs →
    placesAll (blockStatements cs) = stated (blockLines cs)
  | [], _, _ => rfl
  | c :: rest, _, h => by
    rw [blockStatements, placesAll, blockLines, stated_append, c.places_statement h.1,
      placesAll_blockStatements rest h.2]

/-- The places in the rest of a conditional are its lines without `Otherwise`. -/
theorem Tail.places_eq : (t : Tail) → ∀ {indent}, t.Conforms indent →
    branchPlaces t.branches ++ (t.otherwise?.map placesAll).getD [] = stated t.lines
  | .done, _, _ => rfl
  | .otherwise l body, _, h => by
    obtain ⟨_, hother, _, deeper, _, hbody⟩ := h
    rw [Tail.lines, stated_cons_otherwise hother, ← placesAll_blockStatements body hbody]
    rfl
  | .branch l _ body tail, _, h => by
    obtain ⟨_, hif, ⟨_, deeper, _, hbody⟩, htail⟩ := h
    have hne : ∀ c, Sentence.otherwise (some c) ≠ .otherwise none := by simp
    rw [Tail.branches, branchPlaces, Tail.otherwise?, Tail.lines,
      stated_cons (Line.isOtherwise_eq_false hif.sentence (hne _)), stated_append,
      placesAll_blockStatements body hbody, ← tail.places_eq htail]
    simp only [List.cons_append, List.append_assoc]

end

/-! ## Unique derivations -/

/-- A line says one thing on its own. -/
theorem Line.Says.unique {l : Line} {s s' : Statement} (h : l.Says s) (h' : l.Says s') :
    s = s' := by
  cases h with
  | _ h => cases h' with
    | _ h' => rw [h] at h'; cases h' <;> rfl

/-- A line that says something on its own is no `If`. -/
theorem Line.Says.not_isIf {l : Line} {s : Statement} (h : l.Says s) {condition : String} :
    ¬ l.IsIf condition := by
  intro hif
  have hs := hif.sentence
  cases h with
  | _ h => rw [h] at hs; cases hs

/-- Whether a line has one of the forms of `Otherwise`. -/
def Line.IsAlternative (l : Line) : Prop := ∃ c, Sentence.ofText? l.text = some (.otherwise c)

/-- Lines that can stand behind a clause of the given indentation: the first of them is not
    deeper, and does not go on with the conditional. -/
def Follows (indent : Nat) (ls : List Line) : Prop :=
  ∀ l ∈ ls.head?, l.indent ≤ indent ∧ (l.indent = indent → ¬ l.IsAlternative)

/-- Lines that can stand behind a block of the given indentation. -/
def Below (indent : Nat) (ls : List Line) : Prop := ∀ l ∈ ls.head?, l.indent < indent

/-- What is below a block follows its last clause. -/
theorem Below.follows {indent : Nat} {ls : List Line} (h : Below indent ls) : Follows indent ls :=
  fun l hl => ⟨Nat.le_of_lt (h l hl), fun heq => absurd (h l hl) (heq ▸ Nat.lt_irrefl _)⟩

/-- What follows a clause is below every deeper block. -/
theorem Follows.below {indent deeper : Nat} {ls : List Line} (h : Follows indent ls)
    (hlt : indent < deeper) : Below deeper ls :=
  fun l hl => Nat.lt_of_le_of_lt (h l hl).1 hlt

/-- A clause starts with a line of its indentation that is no `Otherwise`. -/
theorem Clause.exists_lines_eq {indent : Nat} {c : Clause} (h : c.Conforms indent) :
    ∃ l more, c.lines = l :: more ∧ l.indent = indent ∧ ¬ l.IsAlternative := by
  cases c with
  | plain l s =>
    refine ⟨l, [], rfl, h.1, fun ⟨_, ha⟩ => ?_⟩
    cases h.2.1 with
    | _ hs => rw [hs] at ha; cases ha
  | conditional l condition body tail =>
    refine ⟨l, _, rfl, h.1, fun ⟨_, ha⟩ => ?_⟩
    rw [h.2.1.sentence] at ha
    cases ha

/-- A nonempty block starts with a line of its indentation. -/
theorem exists_blockLines_eq {indent : Nat} {cs : List Clause} (h : blockConforms indent cs)
    (hne : cs ≠ []) : ∃ l more, blockLines cs = l :: more ∧ l.indent = indent := by
  cases cs with
  | nil => exact absurd rfl hne
  | cons c rest =>
    obtain ⟨l, more, hl, hi, _⟩ := c.exists_lines_eq h.1
    exact ⟨l, more ++ blockLines rest, by rw [blockLines, hl]; rfl, hi⟩

/-- The rest of a block follows its first clause. -/
theorem follows_blockLines {indent : Nat} {cs : List Clause} {rest : List Line}
    (h : blockConforms indent cs) (hrest : Below indent rest) :
    Follows indent (blockLines cs ++ rest) := by
  cases cs with
  | nil => exact hrest.follows
  | cons c more =>
    obtain ⟨l, ls, hl, hi, halt⟩ := c.exists_lines_eq h.1
    intro l' hl'
    rw [blockLines, hl] at hl'
    cases hl'
    exact ⟨Nat.le_of_eq hi, fun _ => halt⟩

/-- The rest of a conditional starts with a line of its indentation, if it has lines. -/
theorem Tail.below_lines {indent deeper : Nat} {t : Tail} {rest : List Line} (h : t.Conforms indent)
    (hrest : Follows indent rest) (hlt : indent < deeper) : Below deeper (t.lines ++ rest) := by
  intro l hl
  cases t with
  | done => exact hrest.below hlt l hl
  | otherwise l' body => cases hl; exact Nat.lt_of_le_of_lt (Nat.le_of_eq h.1) hlt
  | branch l' condition body tail => cases hl; exact Nat.lt_of_le_of_lt (Nat.le_of_eq h.1) hlt

/-- What follows a clause does not go on with the conditional. -/
theorem Follows.ne_cons {indent : Nat} {rest more : List Line} {l : Line}
    (hrest : Follows indent rest) (hi : l.indent = indent) (halt : l.IsAlternative) :
    rest ≠ l :: more := by
  intro heq
  exact (hrest l (by rw [heq]; rfl)).2 hi halt

/-- Two nonempty blocks in front of the same lines have the same indentation. -/
theorem indent_eq_of_blockLines_eq {i j : Nat} {cs cs' : List Clause} {rest rest' : List Line}
    (h : blockConforms i cs) (h' : blockConforms j cs') (hne : cs ≠ []) (hne' : cs' ≠ [])
    (heq : blockLines cs ++ rest = blockLines cs' ++ rest') : i = j := by
  obtain ⟨l, more, hl, hi⟩ := exists_blockLines_eq h hne
  obtain ⟨l', more', hl', hj⟩ := exists_blockLines_eq h' hne'
  rw [hl, hl', List.cons_append, List.cons_append] at heq
  obtain ⟨rfl, _⟩ := List.cons.inj heq
  exact hi.symm.trans hj

/-- What is below a block does not start with a block of the same indentation. -/
theorem Below.ne_blockLines {indent : Nat} {cs : List Clause} {rest rest' : List Line}
    (hrest : Below indent rest) (h : blockConforms indent cs) (hne : cs ≠ []) :
    rest ≠ blockLines cs ++ rest' := by
  intro heq
  obtain ⟨l, more, hl, hi⟩ := exists_blockLines_eq h hne
  rw [hl] at heq
  have hlt := hrest l (by rw [heq]; rfl)
  omega

/-- Two blocks under one line, in front of the same lines, are the same, as soon as blocks of one
    indentation are. -/
theorem bodyConforms.unique {indent : Nat} {body body' : List Clause} {rest rest' : List Line}
    (hunique : ∀ {i cs' ls ls'}, blockConforms i body → blockConforms i cs' → Below i ls →
      Below i ls' → blockLines body ++ ls = blockLines cs' ++ ls' → body = cs' ∧ ls = ls')
    (h : bodyConforms indent body) (h' : bodyConforms indent body')
    (hrest : ∀ {deeper}, indent < deeper → Below deeper rest)
    (hrest' : ∀ {deeper}, indent < deeper → Below deeper rest')
    (heq : blockLines body ++ rest = blockLines body' ++ rest') : body = body' ∧ rest = rest' := by
  obtain ⟨hne, deeper, hlt, hbody⟩ := h
  obtain ⟨hne', deeper', _, hbody'⟩ := h'
  -- How deep the blocks are is told by their first line, which is the same.
  obtain rfl := indent_eq_of_blockLines_eq hbody hbody' hne hne' heq
  exact hunique hbody hbody' (hrest hlt) (hrest' hlt) heq

/-- Two blocks under one line, each with the rest of its conditional behind it, are the same, as
    soon as blocks and rests of conditionals are. -/
theorem bodyConforms.unique_tail {indent : Nat} {body body' : List Clause} {tail tail' : Tail}
    {rest rest' : List Line}
    (hunique : ∀ {i cs' ls ls'}, blockConforms i body → blockConforms i cs' → Below i ls →
      Below i ls' → blockLines body ++ ls = blockLines cs' ++ ls' → body = cs' ∧ ls = ls')
    (htails : ∀ {i t' ls ls'}, tail.Conforms i → t'.Conforms i → Follows i ls → Follows i ls' →
      tail.lines ++ ls = t'.lines ++ ls' → tail = t' ∧ ls = ls')
    (h : bodyConforms indent body) (h' : bodyConforms indent body')
    (ht : tail.Conforms indent) (ht' : tail'.Conforms indent)
    (hrest : Follows indent rest) (hrest' : Follows indent rest')
    (heq : blockLines body ++ (tail.lines ++ rest) = blockLines body' ++ (tail'.lines ++ rest')) :
    body = body' ∧ tail = tail' ∧ rest = rest' := by
  obtain ⟨rfl, hlast⟩ := h.unique hunique h' (tail.below_lines ht hrest)
    (tail'.below_lines ht' hrest') heq
  obtain ⟨rfl, rfl⟩ := htails ht ht' hrest hrest' hlast
  exact ⟨rfl, rfl, rfl⟩

mutual

/-- Two clauses in front of the same lines are the same. -/
theorem Clause.unique : (c : Clause) → ∀ {indent c' rest rest'}, c.Conforms indent →
    c'.Conforms indent → Follows indent rest → Follows indent rest' →
    c.lines ++ rest = c'.lines ++ rest' → c = c' ∧ rest = rest'
  | .plain l s, _, .plain l' s', _, _, h, h', _, _, heq => by
    cases heq
    rw [h.2.1.unique h'.2.1]
    exact ⟨rfl, rfl⟩
  | .plain l s, _, .conditional l' condition body tail, _, _, h, h', _, _, heq => by
    obtain ⟨rfl, _⟩ := List.cons.inj heq
    exact absurd h'.2.1 h.2.1.not_isIf
  | .conditional l condition body tail, _, .plain l' s', _, _, h, h', _, _, heq => by
    obtain ⟨rfl, _⟩ := List.cons.inj heq
    exact absurd h.2.1 h'.2.1.not_isIf
  | .conditional l condition body tail, _, .conditional l' condition' body' tail', _, _,
      h, h', hrest, hrest', heq => by
    obtain ⟨_, hif, hbody, htail⟩ := h
    obtain ⟨_, hif', hbody', htail'⟩ := h'
    rw [Clause.lines, Clause.lines, List.cons_append, List.cons_append, List.append_assoc,
      List.append_assoc] at heq
    obtain ⟨rfl, hmore⟩ := List.cons.inj heq
    obtain ⟨rfl, rfl, rfl⟩ := bodyConforms.unique_tail (blockConforms_unique body) tail.unique
      hbody hbody' htail htail' hrest hrest' hmore
    cases hif.sentence.symm.trans hif'.sentence
    exact ⟨rfl, rfl⟩

/-- Two blocks of one indentation in front of the same lines are the same. -/
theorem blockConforms_unique : (cs : List Clause) → ∀ {indent cs' rest rest'},
    blockConforms indent cs → blockConforms indent cs' → Below indent rest → Below indent rest' →
    blockLines cs ++ rest = blockLines cs' ++ rest' → cs = cs' ∧ rest = rest'
  | [], _, [], _, _, _, _, _, _, heq => ⟨rfl, heq⟩
  | [], _, c' :: more', _, _, _, h', hrest, _, heq =>
    absurd heq (hrest.ne_blockLines h' (List.cons_ne_nil _ _))
  | c :: more, _, [], _, _, h, _, _, hrest', heq =>
    absurd heq.symm (hrest'.ne_blockLines h (List.cons_ne_nil _ _))
  | c :: more, _, c' :: more', _, _, h, h', hrest, hrest', heq => by
    rw [blockLines, blockLines, List.append_assoc, List.append_assoc] at heq
    obtain ⟨rfl, hmore⟩ := c.unique h.1 h'.1 (follows_blockLines h.2 hrest)
      (follows_blockLines h'.2 hrest') heq
    obtain ⟨rfl, rfl⟩ := blockConforms_unique more h.2 h'.2 hrest hrest' hmore
    exact ⟨rfl, rfl⟩

/-- Two rests of a conditional in front of the same lines are the same. -/
theorem Tail.unique : (t : Tail) → ∀ {indent t' rest rest'}, t.Conforms indent →
    t'.Conforms indent → Follows indent rest → Follows indent rest' →
    t.lines ++ rest = t'.lines ++ rest' → t = t' ∧ rest = rest'
  | .done, _, .done, _, _, _, _, _, _, heq => ⟨rfl, heq⟩
  | .done, _, .otherwise l' body', _, _, _, h', hrest, _, heq =>
    absurd heq (hrest.ne_cons h'.1 ⟨_, Line.isOtherwise_eq_true.mp h'.2.1⟩)
  | .done, _, .branch l' condition' body' tail', _, _, _, h', hrest, _, heq =>
    absurd heq (hrest.ne_cons h'.1 ⟨_, h'.2.1.sentence⟩)
  | .otherwise l body, _, .done, _, _, h, _, _, hrest', heq =>
    absurd heq.symm (hrest'.ne_cons h.1 ⟨_, Line.isOtherwise_eq_true.mp h.2.1⟩)
  | .branch l condition body tail, _, .done, _, _, h, _, _, hrest', heq =>
    absurd heq.symm (hrest'.ne_cons h.1 ⟨_, h.2.1.sentence⟩)
  | .otherwise l body, _, .branch l' condition' body' tail', _, _, h, h', _, _, heq => by
    obtain ⟨rfl, _⟩ := List.cons.inj heq
    cases (Line.isOtherwise_eq_true.mp h.2.1).symm.trans h'.2.1.sentence
  | .branch l condition body tail, _, .otherwise l' body', _, _, h, h', _, _, heq => by
    obtain ⟨rfl, _⟩ := List.cons.inj heq
    cases (Line.isOtherwise_eq_true.mp h'.2.1).symm.trans h.2.1.sentence
  | .otherwise l body, _, .otherwise l' body', _, _, h, h', hrest, hrest', heq => by
    obtain ⟨_, _, hbody⟩ := h
    obtain ⟨_, _, hbody'⟩ := h'
    obtain ⟨rfl, hmore⟩ := List.cons.inj heq
    obtain ⟨rfl, rfl⟩ := bodyConforms.unique (blockConforms_unique body) hbody hbody'
      hrest.below hrest'.below hmore
    exact ⟨rfl, rfl⟩
  | .branch l condition body tail, _, .branch l' condition' body' tail', _, _,
      h, h', hrest, hrest', heq => by
    obtain ⟨_, hif, hbody, htail⟩ := h
    obtain ⟨_, hif', hbody', htail'⟩ := h'
    rw [Tail.lines, Tail.lines, List.cons_append, List.cons_append, List.append_assoc,
      List.append_assoc] at heq
    obtain ⟨rfl, hmore⟩ := List.cons.inj heq
    obtain ⟨rfl, rfl, rfl⟩ := bodyConforms.unique_tail (blockConforms_unique body) tail.unique
      hbody hbody' htail htail' hrest hrest' hmore
    cases hif.sentence.symm.trans hif'.sentence
    exact ⟨rfl, rfl⟩

end

/-- A list of lines has at most one derivation. -/
theorem Document.Derives.unique {d d' : Document} {ls : List Line} (h : d.Derives ls)
    (h' : d'.Derives ls) : d = d' := by
  obtain ⟨l, name, body⟩ := d
  obtain ⟨l', name', body'⟩ := d'
  have hlines := h.lines.trans h'.lines.symm
  obtain ⟨rfl, hbody⟩ := List.cons.inj hlines
  cases h.header.sentence.symm.trans h'.header.sentence
  have hnil : Below l.indent [] := fun _ hl => nomatch hl
  obtain ⟨rfl, _⟩ := blockConforms_unique body h.body h'.body hnil hnil (by rw [hbody])
  rfl

end Swimlane.Story
