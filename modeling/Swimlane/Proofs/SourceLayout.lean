import Mathlib.Order.Monotone.Basic
import Swimlane.Proofs.Pipeline

/-!
# The layout of a story does not matter

How far a line stands to the right says nothing by itself: lines are only compared with each other.
And where a line stands in the text is told in errors, and nowhere else.  So the reader is run on
two lists of lines of which one is moved, to other numbers and to other indentations in the same
order, and the two runs are followed side by side.

## Key results

- `block_alike`: a block of moved lines is read like the block
- `ofLines_moved`: moved lines are read like the lines, up to the numbers of lines
- `padded_insert`: a line that says nothing, put into a text, is one more line of the text
- `Padded.exists_numbers`: blank lines and comments among the lines change their numbers only
- `ofStatements_renumbered`: the graph of statements does not depend on the numbers of lines
- `parse_ignores_layout`: neither blank lines and comments nor the depth of indentations matter
-/

namespace Swimlane.Text

/-! ## Lines of a text -/

/-- A boundary ends a line, unless it is the first half of one. -/
theorem lines_cons_break {c : Char} {rest : List Char} (hc : isLineBreak c = true)
    (hpair : ∀ more, c = '\r' → rest = '\n' :: more → False) :
    lines (c :: rest) = [] :: lines rest := by
  rw [lines.eq_def]
  split
  · rename_i h; cases h
  · rename_i more h
    cases h
    exact (hpair more rfl rfl).elim
  · rename_i h
    cases h
    rw [if_pos hc]

/-- Any other character is in front of its line. -/
theorem lines_cons {c : Char} (rest : List Char) (hc : isLineBreak c = false) :
    lines (c :: rest) = (c :: (lines rest).headD []) :: (lines rest).tail := by
  have hne : c ≠ '\r' := by rintro rfl; cases hc
  rw [lines, if_neg (by rw [hc]; exact Bool.false_ne_true)]
  · cases lines rest <;> rfl
  · exact fun _ h => absurd h hne

/-- A text that is not empty has a line. -/
theorem lines_ne_nil {cs : List Char} (h : cs ≠ []) : lines cs ≠ [] := by
  fun_cases lines cs with
  | case1 => exact absurd rfl h
  | case2 => exact List.cons_ne_nil _ _
  | case3 => exact List.cons_ne_nil _ _
  | case4 => exact List.cons_ne_nil _ _
  | case5 => exact List.cons_ne_nil _ _

/-- A line feed ends the line that it is behind. -/
theorem lines_append_newline (front back : List Char) :
    lines (front ++ '\n' :: back) = lines (front ++ ['\n']) ++ lines back := by
  -- A character that ends no line is put in front of the first line of what follows it.
  have hstep : ∀ c rest, isLineBreak c = false →
      lines (rest ++ '\n' :: back) = lines (rest ++ ['\n']) ++ lines back →
      lines (c :: (rest ++ '\n' :: back)) = lines (c :: (rest ++ ['\n'])) ++ lines back := by
    intro c rest hc ih
    have hne : lines (rest ++ ['\n']) ≠ [] := lines_ne_nil (by simp)
    obtain ⟨line, more, h⟩ := List.exists_cons_of_ne_nil hne
    rw [lines_cons _ hc, lines_cons _ hc, ih, h]
    rfl
  fun_induction lines front with
  | case1 => rfl
  | case2 rest ih => simp only [List.cons_append, lines, ih]
  | case3 c rest hpair hbreak ih =>
    cases rest with
    | nil =>
      by_cases hreturn : c = '\r'
      · -- The line feed is the second half of the boundary.
        subst hreturn
        rfl
      · rw [List.cons_append, lines_cons_break hbreak fun _ h _ => hreturn h, ih, List.cons_append,
          lines_cons_break hbreak fun _ h _ => hreturn h, List.cons_append]
    | cons d rest =>
      have hapart : ∀ tail more, c = '\r' → d :: rest ++ tail = '\n' :: more → False :=
        fun tail more hc hd => hpair rest hc (by rw [(List.cons.inj hd).1])
      have hlines : ∀ tail, lines (c :: (d :: rest) ++ tail) = [] :: lines (d :: rest ++ tail) :=
        fun tail => lines_cons_break hbreak (hapart tail)
      rw [hlines, hlines, ih]
      rfl
  | case4 c rest hpair hbreak hnil ih => exact hstep c rest (Bool.not_eq_true _ ▸ hbreak) ih
  | case5 c rest hpair hbreak line more hlines ih =>
    exact hstep c rest (Bool.not_eq_true _ ▸ hbreak) ih

/-- A line without a boundary inside is a line of the text that it is put into. -/
theorem lines_raw_newline {raw : List Char} (h : ∀ c ∈ raw, isLineBreak c = false)
    (back : List Char) : lines (raw ++ '\n' :: back) = raw :: lines back := by
  induction raw with
  | nil => rfl
  | cons c raw ih =>
    obtain ⟨hc, hraw⟩ := List.forall_mem_cons.mp h
    rw [List.cons_append, lines_cons _ hc, ih hraw]
    rfl

/-! ## White space in front -/

/-- White space in front of a text is white space still when tabs are spaces. -/
theorem expandTabs_blanks {blanks : List Char} (hblanks : ∀ c ∈ blanks, isBlank c = true)
    (rest : List Char) : ∀ column, ∃ blanks' column', (∀ c ∈ blanks', isBlank c = true) ∧
      expandTabs column (blanks ++ rest) = blanks' ++ expandTabs column' rest := by
  induction blanks with
  | nil => exact fun column => ⟨[], column, by simp, rfl⟩
  | cons c blanks ih =>
    obtain ⟨hc, hblanks⟩ := List.forall_mem_cons.mp hblanks
    intro column
    rw [List.cons_append, expandTabs]
    split
    · obtain ⟨blanks', column', hblanks', heq⟩ :=
        ih hblanks (column + (tabSize - column % tabSize))
      refine ⟨List.replicate (tabSize - column % tabSize) ' ' ++ blanks', column', ?_, ?_⟩
      · refine List.forall_mem_append.mpr ⟨fun c hc => ?_, hblanks'⟩
        rw [List.eq_of_mem_replicate hc]
        decide
      · rw [heq, List.append_assoc]
    · obtain ⟨blanks', column', hblanks', heq⟩ := ih hblanks (column + 1)
      exact ⟨c :: blanks', column', List.forall_mem_cons.mpr ⟨hc, hblanks'⟩, by rw [heq]; rfl⟩

/-- Without tabs a text stays as it is. -/
theorem expandTabs_mark {mark : List Char} (hmark : ∀ c ∈ mark, c ≠ '\t') (rest : List Char) :
    ∀ column, ∃ rest', expandTabs column (mark ++ rest) = mark ++ rest' := by
  induction mark with
  | nil => exact fun column => ⟨_, rfl⟩
  | cons c mark ih =>
    obtain ⟨hc, hmark⟩ := List.forall_mem_cons.mp hmark
    intro column
    obtain ⟨rest', heq⟩ := ih hmark (column + 1)
    exact ⟨rest', by rw [List.cons_append, expandTabs, if_neg hc, heq]; rfl⟩

/-- Trimming keeps a word that only white space is in front of. -/
theorem prefix_trim {blanks mark : List Char} (hblanks : ∀ c ∈ blanks, isBlank c = true)
    (hmark : ∀ c ∈ mark, isBlank c = false) (hne : mark ≠ []) (rest : List Char) :
    mark <+: trim (blanks ++ (mark ++ rest)) := by
  obtain ⟨c, cs, rfl⟩ := List.exists_cons_of_ne_nil hne
  have hfront : (blanks ++ (c :: cs ++ rest)).dropWhile isBlank = c :: cs ++ rest := by
    rw [List.dropWhile_append_of_pos hblanks, List.cons_append,
      List.dropWhile_cons_of_neg (by simp [hmark c List.mem_cons_self])]
  -- From behind, the word is met at the latest.
  have hback : (c :: cs).reverse.dropWhile isBlank = (c :: cs).reverse := by
    refine List.dropWhile_eq_self_iff.mpr fun hl => ?_
    rw [hmark _ (List.mem_reverse.mp (List.getElem_mem hl))]
    exact Bool.false_ne_true
  rw [trim, trimBy, hfront, List.reverse_append, List.dropWhile_append, hback]
  split
  · rw [List.reverse_reverse]
  · rw [List.reverse_append, List.reverse_reverse]
    exact List.prefix_append _ _

end Swimlane.Text

namespace Swimlane.Story

/-! ## Numbers of lines -/

/-- The same text on another line.  A number that no line has is kept. -/
def Source.renumbered (f : Nat → Nat) (s : Source) : Source :=
  { s with line := match s.line with
      | .ofNat n => .ofNat (f n)
      | .negSucc n => .negSucc n }

mutual

/-- The same statement on other lines. -/
def Statement.renumbered (f : Nat → Nat) : Statement → Statement
  | .header source name => .header (source.renumbered f) name
  | .ask source subject prompt => .ask (source.renumbered f) subject prompt
  | .perform source action => .perform (source.renumbered f) action
  | .send source message recipient channel =>
    .send (source.renumbered f) message recipient channel
  | .stop source reason => .stop (source.renumbered f) reason
  | .conditional source branches none =>
    .conditional (source.renumbered f) (renumberBranches f branches) none
  | .conditional source branches (some body) =>
    .conditional (source.renumbered f) (renumberBranches f branches) (some (renumberAll f body))
  | .foreign source kind => .foreign (source.renumbered f) kind

/-- The same statements on other lines. -/
def renumberAll (f : Nat → Nat) : List Statement → List Statement
  | [] => []
  | s :: rest => s.renumbered f :: renumberAll f rest

/-- The same branches on other lines. -/
def renumberBranches (f : Nat → Nat) : List Branch → List Branch
  | [] => []
  | ⟨condition, body, line⟩ :: rest =>
    ⟨condition, renumberAll f body, f line⟩ :: renumberBranches f rest

end

/-- The same error on another line.  That a story has no header at all is told of no line. -/
def Error.renumbered (f : Nat → Nat) (e : Error) : Error :=
  match e.fault with
  | .missingHeader => e
  | _ => { e with line := f e.line }

/-- What is read, with other numbers of lines. -/
def renumberOutcome (f : Nat → Nat) (x : Except Error (List Statement)) :
    Except Error (List Statement) :=
  (x.map (renumberAll f)).mapError (Error.renumbered f)

theorem renumbered_conditional (f : Nat → Nat) (source : Source) (branches : List Branch)
    (otherwise : Option (List Statement)) :
    (Statement.conditional source branches otherwise).renumbered f =
      .conditional (source.renumbered f) (renumberBranches f branches)
        (otherwise.map (renumberAll f)) := by
  cases otherwise <;> rw [Statement.renumbered] <;> rfl

theorem map_condition_renumberBranches (f : Nat → Nat) (branches : List Branch) :
    (renumberBranches f branches).map (·.condition) = branches.map (·.condition) := by
  induction branches with
  | nil => rfl
  | cons b rest ih =>
    obtain ⟨condition, body, line⟩ := b
    rw [renumberBranches, List.map_cons, List.map_cons, ih]

theorem conditionalLabel_renumbered (f : Nat → Nat) (branches : List Branch) :
    conditionalLabel (renumberBranches f branches) = conditionalLabel branches := by
  cases branches with
  | nil => rfl
  | cons b rest => obtain ⟨condition, body, line⟩ := b; rfl

/-- The texts of a statement do not depend on its lines. -/
theorem isMalformed_renumbered (f : Nat → Nat) (s : Statement) :
    (s.renumbered f).isMalformed = s.isMalformed := by
  cases s with
  | conditional source branches otherwise =>
    rw [renumbered_conditional, Statement.isMalformed, Statement.isMalformed, Statement.parts,
      Statement.parts, map_condition_renumberBranches]
  | _ => rw [Statement.renumbered]; rfl

theorem Source.renumbered_id (s : Source) : s.renumbered id = s := by
  obtain ⟨line, text⟩ := s
  cases line <;> rfl

mutual

/-- With the same numbers it is the same statement. -/
theorem Statement.renumbered_id : (s : Statement) → s.renumbered id = s
  | .header .. => by rw [Statement.renumbered, Source.renumbered_id]
  | .ask .. => by rw [Statement.renumbered, Source.renumbered_id]
  | .perform .. => by rw [Statement.renumbered, Source.renumbered_id]
  | .send .. => by rw [Statement.renumbered, Source.renumbered_id]
  | .stop .. => by rw [Statement.renumbered, Source.renumbered_id]
  | .foreign .. => by rw [Statement.renumbered, Source.renumbered_id]
  | .conditional _ branches none => by
    rw [Statement.renumbered, Source.renumbered_id, renumberBranches_id branches]
  | .conditional _ branches (some body) => by
    rw [Statement.renumbered, Source.renumbered_id, renumberBranches_id branches,
      renumberAll_id body]

/-- With the same numbers they are the same statements. -/
theorem renumberAll_id : (ss : List Statement) → renumberAll id ss = ss
  | [] => rfl
  | s :: rest => by rw [renumberAll, s.renumbered_id, renumberAll_id rest]

/-- With the same numbers they are the same branches. -/
theorem renumberBranches_id : (bs : List Branch) → renumberBranches id bs = bs
  | [] => rfl
  | ⟨condition, body, line⟩ :: rest => by
    rw [renumberBranches, renumberAll_id body, renumberBranches_id rest]
    rfl

end

theorem Error.renumbered_id (e : Error) : e.renumbered id = e := by
  obtain ⟨fault, line, text⟩ := e
  cases fault <;> rfl

/-- With the same numbers it is the same outcome. -/
theorem renumberOutcome_id (x : Except Error (List Statement)) : renumberOutcome id x = x := by
  cases x with
  | ok ss => exact congrArg Except.ok (renumberAll_id ss)
  | error e => exact congrArg Except.error e.renumbered_id

/-! ## Moved lines -/

/-- A move of lines to other numbers and other indentations.  A line that stood deeper than another
    one still does. -/
structure Move where
  number : Nat → Nat
  indent : Nat → Nat
  increasing : StrictMono indent

/-- The line where it is moved to. -/
def Line.moved (m : Move) (l : Line) : Line := ⟨m.number l.number, m.indent l.indent, l.text⟩

variable {m : Move}

theorem Line.text_moved (l : Line) : (l.moved m).text = l.text := rfl

theorem Line.error_moved (l : Line) (fault : Fault) (h : fault ≠ .missingHeader) :
    (l.moved m).error fault = (l.error fault).renumbered m.number := by
  cases fault with
  | missingHeader => exact absurd rfl h
  | _ => rfl

theorem Line.misplaced_moved (l : Line) :
    (l.moved m).misplaced = l.misplaced.renumbered m.number := by
  rw [Line.misplaced, Line.misplaced, l.text_moved]
  cases Sentence.ofText? l.text with
  | none => exact l.error_moved .unexpectedIndentation (by decide)
  | some sentence =>
    cases sentence with
    | otherwise condition => exact l.error_moved .otherwiseWithoutIf (by decide)
    | _ => exact l.error_moved .unexpectedIndentation (by decide)

/-- Two runs of the reader go alike: both give results that are related, or both fail with the same
    error on lines that are moved. -/
inductive Alike {α α' : Type} (m : Move) (R : α → α' → Prop) :
    Except Error α → Except Error α' → Prop
  | ok {a : α} {a' : α'} (h : R a a') : Alike m R (.ok a) (.ok a')
  | error (e : Error) : Alike m R (.error e) (.error (e.renumbered m.number))

/-- Two steps one after the other go alike if each of them does. -/
theorem Alike.bind {α α' β β' : Type} {R : α → α' → Prop} {S : β → β' → Prop}
    {x : Except Error α} {x' : Except Error α'} {f : α → Except Error β}
    {f' : α' → Except Error β'} (hx : Alike m R x x')
    (hf : ∀ a a', R a a' → Alike m S (f a) (f' a')) : Alike m S (x >>= f) (x' >>= f') := by
  cases hx with
  | ok h => exact hf _ _ h
  | error e => exact .error e

/-- A line and the moved line have the same fault. -/
theorem Alike.fault {α α' : Type} {R : α → α' → Prop} (l : Line) {fault : Fault}
    (h : fault ≠ .missingHeader) :
    Alike m R (.error (l.error fault)) (.error ((l.moved m).error fault)) := by
  rw [l.error_moved fault h]
  exact .error _

/-- If only the numbers of lines differ in the results, they are all that differs. -/
theorem Alike.eq_renumberOutcome {x x' : Except Error (List Statement)}
    (h : Alike m (fun ss ss' => ss' = renumberAll m.number ss) x x') :
    x' = renumberOutcome m.number x := by
  cases h with
  | ok h => exact congrArg Except.ok h
  | error e => rfl

/-- The second statement is the first one on moved lines. -/
def SameStatement (m : Move) (s s' : Statement) : Prop := s' = s.renumbered m.number

/-- The second result is the first one on moved lines, and the same lines are left. -/
def SameParsed {α : Type} (m : Move) (t : α → α) {ls ls' : List Line} (r : Parsed α ls)
    (r' : Parsed α ls') : Prop :=
  r'.value = t r.value ∧ r'.rest = r.rest.map (·.moved m)

/-- The alternatives of a conditional on other lines. -/
def renumberTail (f : Nat → Nat) (tail : List Branch × Option (List Statement)) :
    List Branch × Option (List Statement) :=
  (renumberBranches f tail.1, tail.2.map (renumberAll f))

/-! ## Two runs -/

/-- A statement is checked alike on every line. -/
theorem checked_alike (l : Line) (s : Statement) :
    Alike m (SameStatement m) (checked l s) (checked (l.moved m) (s.renumbered m.number)) := by
  rw [checked, checked, isMalformed_renumbered]
  split
  · exact .fault l (by decide)
  · exact .ok rfl

/-- A line says the same wherever it stands. -/
theorem simple_alike (l : Line) (sentence : Sentence) :
    Alike m (SameStatement m) (simple l sentence) (simple (l.moved m) sentence) := by
  cases sentence with
  | ask subject rest => exact checked_alike l (.ask l.source subject _)
  | perform action => exact checked_alike l (.perform l.source action)
  | send message recipient channel => exact checked_alike l (.send l.source message recipient _)
  | stop reason => exact checked_alike l (.stop l.source reason)
  | flow name => exact .fault l (by decide)
  | condition text => exact .fault l (by decide)
  | otherwise condition => exact .fault l (by decide)

/-- A header is read alike wherever it stands. -/
theorem headerOf_alike (l : Line) :
    Alike m (SameStatement m) (headerOf l) (headerOf (l.moved m)) := by
  rw [headerOf, headerOf, l.text_moved]
  cases Sentence.ofText? l.text with
  | none => exact .fault l (by decide)
  | some sentence =>
    cases sentence with
    | flow name =>
      by_cases hname : name = ""
      · simp only [hname, ↓reduceIte]
        exact .fault l (by decide)
      · simp only [hname, ↓reduceIte]
        exact checked_alike l (.header l.source name)
    | _ => exact .fault l (by decide)

-- One theorem for each function of the reader, with the recursion and the measure of the function.
-- The moved lines are as many as the lines, so it is enough to measure one of the two runs.
mutual

/-- A block of moved lines is read like the block. -/
theorem block_alike (indent : Nat) (ls : List Line) :
    Alike m (SameParsed m (renumberAll m.number)) (block indent ls)
      (block (m.indent indent) (ls.map (·.moved m))) := by
  cases ls with
  | nil => rw [List.map_nil, block, block]; exact .ok ⟨rfl, rfl⟩
  | cons l more =>
    rw [List.map_cons, block, block]
    -- The moved line is too deep, or not deep enough, exactly if the line is.
    have hlt : (l.moved m).indent < m.indent indent ↔ l.indent < indent :=
      m.increasing.lt_iff_lt
    have hgt : m.indent indent < (l.moved m).indent ↔ indent < l.indent :=
      m.increasing.lt_iff_lt
    by_cases hbelow : l.indent < indent
    · rw [if_pos hbelow, if_pos (hlt.mpr hbelow)]
      exact .ok ⟨rfl, rfl⟩
    rw [if_neg hbelow, if_neg (mt hlt.mp hbelow)]
    by_cases hdeep : indent < l.indent
    · rw [if_pos hdeep, if_pos (hgt.mpr hdeep), l.misplaced_moved]
      exact .error _
    rw [if_neg hdeep, if_neg (mt hgt.mp hdeep), l.text_moved]
    cases Sentence.ofText? l.text with
    | none => exact .fault l (by decide)
    | some sentence =>
      cases sentence with
      | otherwise condition => exact .ok ⟨rfl, rfl⟩
      | condition text =>
        refine (conditional_alike l text more).bind fun r r' hr => ?_
        obtain ⟨s, rest, hrest⟩ := r
        obtain ⟨s', rest', hrest'⟩ := r'
        -- Both runs have left the same lines behind the conditional.
        obtain ⟨rfl, rfl⟩ := hr
        refine (block_alike indent rest).bind fun r r' hr => ?_
        exact .ok ⟨congrArg _ hr.1, hr.2⟩
      | _ =>
        refine (simple_alike l _).bind fun s s' hs => ?_
        refine (block_alike indent more).bind fun r r' hr => ?_
        exact .ok ⟨congrArg₂ _ hs hr.1, hr.2⟩
termination_by (ls.length, 0)
decreasing_by
  all_goals (subst_vars; apply Prod.Lex.left; simp only [List.length_cons]; omega)

/-- A conditional on moved lines is read like the conditional. -/
theorem conditional_alike (head : Line) (condition : String) (ls : List Line) :
    Alike m (SameParsed m (Statement.renumbered m.number)) (conditional head condition ls)
      (conditional (head.moved m) condition (ls.map (·.moved m))) := by
  rw [conditional, conditional]
  refine (body_alike head ls).bind fun r r' hr => ?_
  obtain ⟨first, rest, hrest⟩ := r
  obtain ⟨first', rest', hrest'⟩ := r'
  obtain ⟨rfl, rfl⟩ := hr
  refine (alternatives_alike head rest).bind fun r r' hr => ?_
  obtain ⟨⟨branches, otherwise⟩, last, hlast⟩ := r
  obtain ⟨⟨branches', otherwise'⟩, last', hlast'⟩ := r'
  obtain ⟨htail, rfl⟩ := hr
  cases htail
  -- What is checked last are the conditions, and these are texts.
  have hs := checked_alike (m := m) head
    (.conditional head.source (⟨condition, first, head.number⟩ :: branches) otherwise)
  rw [renumbered_conditional, renumberBranches] at hs
  refine hs.bind fun s s' hs => ?_
  exact .ok ⟨hs, rfl⟩
termination_by (ls.length, 2)
decreasing_by
  · apply Prod.Lex.right; omega
  · rcases Nat.lt_or_eq_of_le hrest with hlt | heq
    · exact Prod.Lex.left _ _ hlt
    · rw [heq]; apply Prod.Lex.right; omega

/-- The block under a line is read alike where both are moved. -/
theorem body_alike (head : Line) (ls : List Line) :
    Alike m (SameParsed m (renumberAll m.number)) (body head ls)
      (body (head.moved m) (ls.map (·.moved m))) := by
  cases ls with
  | nil => rw [List.map_nil, body, body]; exact .fault head (by decide)
  | cons l more =>
    have hle : (l.moved m).indent ≤ (head.moved m).indent ↔ l.indent ≤ head.indent :=
      m.increasing.le_iff_le
    rw [List.map_cons, body, body]
    by_cases hdeeper : l.indent ≤ head.indent
    · rw [if_pos hdeeper, if_pos (hle.mpr hdeeper)]
      exact .fault head (by decide)
    · rw [if_neg hdeeper, if_neg (mt hle.mp hdeeper)]
      exact block_alike l.indent (l :: more)
termination_by (ls.length, 1)
decreasing_by
  subst_vars; apply Prod.Lex.right; omega

/-- The alternatives of a conditional are read alike on moved lines. -/
theorem alternatives_alike (head : Line) (ls : List Line) :
    Alike m (SameParsed m (renumberTail m.number)) (alternatives head ls)
      (alternatives (head.moved m) (ls.map (·.moved m))) := by
  cases ls with
  | nil => rw [List.map_nil, alternatives, alternatives]; exact .ok ⟨rfl, rfl⟩
  | cons l more =>
    have hne : (l.moved m).indent ≠ (head.moved m).indent ↔ l.indent ≠ head.indent :=
      m.increasing.injective.ne_iff
    rw [List.map_cons, alternatives, alternatives]
    by_cases hother : l.indent ≠ head.indent
    · rw [if_pos hother, if_pos (hne.mpr hother)]
      exact .ok ⟨rfl, rfl⟩
    rw [if_neg hother, if_neg (mt hne.mp hother), l.text_moved]
    cases Sentence.ofText? l.text with
    | none => exact .ok ⟨rfl, rfl⟩
    | some sentence =>
      cases sentence with
      | otherwise condition? =>
        cases condition? with
        | none =>
          refine (body_alike l more).bind fun r r' hr => ?_
          exact .ok ⟨congrArg (fun b => ([], some b)) hr.1, hr.2⟩
        | some condition =>
          refine (body_alike l more).bind fun r r' hr => ?_
          obtain ⟨b, rest, hrest⟩ := r
          obtain ⟨b', rest', hrest'⟩ := r'
          obtain ⟨rfl, rfl⟩ := hr
          refine (alternatives_alike head rest).bind fun r r' hr => ?_
          obtain ⟨⟨branches, otherwise⟩, last, hlast⟩ := r
          obtain ⟨⟨branches', otherwise'⟩, last', hlast'⟩ := r'
          obtain ⟨htail, rfl⟩ := hr
          cases htail
          exact .ok ⟨by rw [renumberTail, renumberBranches]; rfl, rfl⟩
      | _ => exact .ok ⟨rfl, rfl⟩
termination_by (ls.length, 0)
decreasing_by
  all_goals (subst_vars; apply Prod.Lex.left; simp only [List.length_cons]; omega)

end

/-- Moved lines are read like the lines, up to the numbers of lines. -/
theorem ofLines_moved (m : Move) (ls : List Line) :
    ofLines (ls.map (·.moved m)) = renumberOutcome m.number (ofLines ls) := by
  refine Alike.eq_renumberOutcome ?_
  cases ls with
  | nil => exact .error ⟨.missingHeader, 1, ""⟩
  | cons l more =>
    rw [List.map_cons, ofLines, ofLines]
    refine (headerOf_alike l).bind fun header header' hheader => ?_
    refine (block_alike l.indent more).bind fun r r' hr => ?_
    obtain ⟨statements, rest, hrest⟩ := r
    obtain ⟨statements', rest', hrest'⟩ := r'
    obtain ⟨rfl, rfl⟩ := hr
    cases rest with
    | nil => exact .ok (congrArg (· :: _) hheader)
    | cons leftover _ =>
      simp only [List.map_cons, leftover.misplaced_moved]
      exact .error _

/-! ## Blank lines and comments -/

/-- A raw line that says nothing: it is blank, or a comment behind white space. -/
inductive IsSilent : List Char → Prop
  | blank {raw : List Char} (h : ∀ c ∈ raw, Text.isBlank c = true) : IsSilent raw
  | comment {blanks mark : List Char} (h : ∀ c ∈ blanks, Text.isBlank c = true)
    (hmark : mark = ['#'] ∨ mark = ['/', '/']) (rest : List Char) :
    IsSilent (blanks ++ (mark ++ rest))

/-- A line that says nothing is not significant. -/
theorem ofRaw?_of_isSilent {raw : List Char} (h : IsSilent raw) (number : Nat) :
    Line.ofRaw? number raw = none := by
  refine if_pos ?_
  cases h with
  | blank hblank =>
    obtain ⟨blanks', column', hblanks', heq⟩ := Text.expandTabs_blanks hblank [] 0
    rw [List.append_nil] at heq
    rw [heq, Text.expandTabs, List.append_nil, Text.trim, Text.trimBy,
      List.dropWhile_eq_nil_iff.mpr hblanks']
    rfl
  | @comment blanks mark hblanks hmark rest =>
    have hword : ∀ c ∈ mark, c ≠ '\t' ∧ Text.isBlank c = false := by
      have hchars : ∀ c ∈ mark, c = '#' ∨ c = '/' := by rcases hmark with rfl | rfl <;> simp
      intro c hc
      rcases hchars c hc with rfl | rfl <;> decide
    obtain ⟨blanks', column', hblanks', heq⟩ := Text.expandTabs_blanks hblanks (mark ++ rest) 0
    obtain ⟨rest', heq'⟩ := Text.expandTabs_mark (fun c hc => (hword c hc).1) rest column'
    have hpre : mark <+: Text.trim (Text.expandTabs 0 (blanks ++ (mark ++ rest))) := by
      rw [heq, heq']
      exact Text.prefix_trim hblanks' (fun c hc => (hword c hc).2)
        (by rcases hmark with rfl | rfl <;> simp) rest'
    have hcomment := List.isPrefixOf_iff_prefix.mpr hpre
    rw [isComment]
    rcases hmark with rfl | rfl
    · rw [hcomment, Bool.true_or, Bool.or_true]
    · rw [hcomment, Bool.or_true, Bool.or_true]

/-- The second lines are the first ones with lines among them that say nothing. -/
inductive Padded : List (List Char) → List (List Char) → Prop
  | nil : Padded [] []
  | keep (raw : List Char) {raws raws' : List (List Char)} (h : Padded raws raws') :
    Padded (raw :: raws) (raw :: raws')
  | insert {raw : List Char} (hraw : IsSilent raw) {raws raws' : List (List Char)}
    (h : Padded raws raws') : Padded raws (raw :: raws')

/-- Lines are padded with nothing. -/
theorem Padded.refl (raws : List (List Char)) : Padded raws raws := by
  induction raws with
  | nil => exact .nil
  | cons raw raws ih => exact .keep raw ih

/-- The same lines in front are kept. -/
theorem Padded.append (raws : List (List Char)) {raws' raws'' : List (List Char)}
    (h : Padded raws' raws'') : Padded (raws ++ raws') (raws ++ raws'') := by
  induction raws with
  | nil => exact h
  | cons raw raws ih => exact .keep raw ih

/-- A text is padded where a line that says nothing is put in behind the end of another line. -/
theorem padded_insert {raw : List Char} (hraw : IsSilent raw)
    (hline : ∀ c ∈ raw, Text.isLineBreak c = false) (front back : List Char) :
    Padded (Text.lines (front ++ '\n' :: back))
      (Text.lines (front ++ '\n' :: (raw ++ '\n' :: back))) := by
  rw [Text.lines_append_newline front back, Text.lines_append_newline front (raw ++ '\n' :: back),
    Text.lines_raw_newline hline]
  exact Padded.append _ (.insert hraw (.refl _))

/-- The line with another number. -/
def Line.renumbered (f : Nat → Nat) (l : Line) : Line := { l with number := f l.number }

/-- Only the number of a significant line depends on the number of its raw line. -/
theorem ofRaw?_renumbered (f : Nat → Nat) (number : Nat) (raw : List Char) :
    Line.ofRaw? (f number) raw = (Line.ofRaw? number raw).map (·.renumbered f) := by
  rw [Line.ofRaw?, Line.ofRaw?]
  split <;> rfl

/-- Among padded lines the significant ones are the same, on later lines: in front of line `n` of
    them `k n` lines were put in. -/
theorem Padded.exists_numbers {raws raws' : List (List Char)} (h : Padded raws raws') :
    ∀ number d : Nat, ∃ k : Nat → Nat, Monotone k ∧ (∀ n, d ≤ k n) ∧ (∀ n < number, k n = d) ∧
      significant (number + d) raws' =
        (significant number raws).map (·.renumbered fun n => n + k n) := by
  induction h with
  | nil => exact fun number d => ⟨fun _ => d, monotone_const, by simp, by simp, rfl⟩
  | keep raw h ih =>
    intro number d
    -- The line itself is in front of the rest, where `k` is `d` still.
    obtain ⟨k, hmono, hle, hbefore, heq⟩ := ih (number + 1) d
    refine ⟨k, hmono, hle, fun n hn => hbefore n (by omega), ?_⟩
    have hraw := ofRaw?_renumbered (fun n => n + k n) number raw
    simp only [hbefore number (by omega)] at hraw
    rw [significant, significant, hraw, show number + d + 1 = number + 1 + d by omega, heq]
    cases Line.ofRaw? number raw <;> rfl
  | @insert raw hraw raws raws' h ih =>
    intro number d
    obtain ⟨k, hmono, hle, hbefore, heq⟩ := ih number (d + 1)
    -- The line is put in behind everything that has a number by now.
    refine ⟨fun n => if n < number then d else k n, fun a b hab => ?_, fun n => ?_,
      fun n hn => if_pos hn, ?_⟩
    · have hk := hmono hab
      have hd := hle b
      grind
    · have hd := hle n
      grind
    · rw [significant, ofRaw?_of_isSilent hraw, Nat.add_assoc, heq]
      refine List.map_congr_left fun l hl => ?_
      have hnumber := le_number_of_mem_significant hl
      simp only [Line.renumbered, if_neg (Nat.not_lt.mpr hnumber)]

/-- A padded story is read like the story, with later numbers of lines. -/
theorem Padded.parse_eq {story story' : String}
    (h : Padded (Text.lines story.toList) (Text.lines story'.toList)) :
    ∃ f : Nat → Nat, StrictMono f ∧ (∀ n, n ≤ f n) ∧
      parse story' = renumberOutcome f (parse story) := by
  obtain ⟨k, hmono, _, _, heq⟩ := h.exists_numbers 1 0
  refine ⟨fun n => n + k n, fun a b hab => ?_, fun n => Nat.le_add_right _ _, ?_⟩
  · exact Nat.add_lt_add_of_lt_of_le hab (hmono (Nat.le_of_lt hab))
  · have hlines : lines story' = (lines story).map
        (·.moved ⟨fun n => n + k n, id, strictMono_id⟩) := heq
    rw [parse, parse, hlines, ofLines_moved]

/-! ## The graph -/

-- Lines are told by the errors of naming only, so nothing is said here of statements that have no
-- name.
mutual

/-- A statement is named alike on every line. -/
theorem nameOne_renumbered (f : Nat → Nat) : (s : Statement) → ∀ {used r},
    nameOne used s = .ok r → nameOne used (s.renumbered f) = .ok r
  | .ask .., used, r, h => h
  | .perform .., used, r, h => h
  | .send .., used, r, h => h
  | .stop .., used, r, h => h
  | .conditional _ branches none, used, r, h => by
    rw [nameOne] at h
    obtain ⟨⟨arms, used₁⟩, hb, h⟩ := Except.bind_eq_ok.mp h
    rw [Statement.renumbered, nameOne, conditionalLabel_renumbered]
    exact Except.bind_eq_ok.mpr ⟨_, nameBranches_renumbered f branches hb, h⟩
  | .conditional _ branches (some body), used, r, h => by
    rw [nameOne] at h
    obtain ⟨⟨arms, used₁⟩, hb, h⟩ := Except.bind_eq_ok.mp h
    obtain ⟨⟨nodes, used₂⟩, ha, h⟩ := Except.bind_eq_ok.mp h
    rw [Statement.renumbered, nameOne, conditionalLabel_renumbered]
    exact Except.bind_eq_ok.mpr ⟨_, nameBranches_renumbered f branches hb,
      Except.bind_eq_ok.mpr ⟨_, nameAll_renumbered f body ha, h⟩⟩
  | .header .., used, r, h => by cases h
  | .foreign .., used, r, h => by cases h

/-- Statements are named alike on every line. -/
theorem nameAll_renumbered (f : Nat → Nat) : (body : List Statement) → ∀ {used r},
    nameAll used body = .ok r → nameAll used (renumberAll f body) = .ok r
  | [], used, r, h => h
  | s :: rest, used, r, h => by
    rw [nameAll] at h
    obtain ⟨⟨node, used₁⟩, hs, h⟩ := Except.bind_eq_ok.mp h
    obtain ⟨⟨more, used₂⟩, hr, h⟩ := Except.bind_eq_ok.mp h
    rw [renumberAll, nameAll]
    exact Except.bind_eq_ok.mpr ⟨_, nameOne_renumbered f s hs,
      Except.bind_eq_ok.mpr ⟨_, nameAll_renumbered f rest hr, h⟩⟩

/-- Branches are named alike on every line. -/
theorem nameBranches_renumbered (f : Nat → Nat) : (branches : List Branch) → ∀ {used r},
    nameBranches used branches = .ok r →
    nameBranches used (renumberBranches f branches) = .ok r
  | [], used, r, h => h
  | ⟨condition, body, _⟩ :: rest, used, r, h => by
    rw [nameBranches] at h
    obtain ⟨⟨nodes, used₁⟩, hs, h⟩ := Except.bind_eq_ok.mp h
    obtain ⟨⟨more, used₂⟩, hr, h⟩ := Except.bind_eq_ok.mp h
    rw [renumberBranches, nameBranches]
    exact Except.bind_eq_ok.mpr ⟨_, nameAll_renumbered f body hs,
      Except.bind_eq_ok.mpr ⟨_, nameBranches_renumbered f rest hr, h⟩⟩

end

/-- The graph of statements does not depend on their lines. -/
theorem ofStatements_renumbered (f : Nat → Nat) {statements : List Statement} {g : Graph}
    (h : Graph.ofStatements statements = .ok g) :
    Graph.ofStatements (renumberAll f statements) = .ok g := by
  cases statements with
  | nil => cases h
  | cons s body =>
    cases s with
    | header source name =>
      obtain ⟨states, hstates, h⟩ := Except.bind_eq_ok.mp h
      obtain ⟨⟨nodes, used⟩, hnodes, hstates⟩ :=
        Except.bind_eq_ok.mp (Except.mapError_eq_ok.mp hstates)
      rw [renumberAll, Statement.renumbered]
      refine Except.bind_eq_ok.mpr ⟨states, Except.mapError_eq_ok.mpr ?_, h⟩
      exact Except.bind_eq_ok.mpr ⟨_, nameAll_renumbered f body hnodes, hstates⟩
    | _ => cases h

/-! ## Layout -/

/-- The layout of a story does not matter.  Where blank lines and comments are put between the
    lines of a story, it is read like before: the same statements, or the same fault in the same
    text, on lines that are found further down in the same order.  If it can be read, then it has
    the same graph, of which everything else is made.  And where the indentations of lines change
    but not their order, the same statements are read, or the same error is told. -/
theorem parse_ignores_layout :
    (∀ raw, IsSilent raw → (∀ c ∈ raw, Text.isLineBreak c = false) → ∀ front back : List Char,
      Padded (Text.lines (front ++ '\n' :: back))
        (Text.lines (front ++ '\n' :: (raw ++ '\n' :: back)))) ∧
    (∀ story story' : String, Padded (Text.lines story.toList) (Text.lines story'.toList) →
      (∃ f : Nat → Nat, StrictMono f ∧ (∀ n, n ≤ f n) ∧
        parse story' = renumberOutcome f (parse story)) ∧
      ∀ statements, parse story = .ok statements →
        ∃ g, Graph.ofStory story = .ok g ∧ Graph.ofStory story' = .ok g) ∧
    ∀ (ls : List Line) (d : Nat → Nat), StrictMono d →
      ofLines (ls.map fun l => { l with indent := d l.indent }) = ofLines ls := by
  refine ⟨fun raw hraw hline => padded_insert hraw hline, fun story story' hpadded => ?_,
    fun ls d hd => ?_⟩
  · obtain ⟨f, hmono, hle, hparse⟩ := hpadded.parse_eq
    refine ⟨⟨f, hmono, hle, hparse⟩, fun statements hstatements => ?_⟩
    rw [hstatements] at hparse
    obtain ⟨built, hbuilt, _, hstory⟩ := Graph.ofStory_of_parse hstatements
    obtain ⟨built', hbuilt', _, hstory'⟩ := Graph.ofStory_of_parse hparse
    -- Both graphs are built from the same statements, on other lines.
    cases (ofStatements_renumbered f hbuilt).symm.trans hbuilt'
    exact ⟨_, hstory, hstory'⟩
  · have h := ofLines_moved ⟨id, d, hd⟩ ls
    rw [renumberOutcome_id] at h
    exact h

/-- A comment inside a conditional, and bodies that stand further to the right. -/
theorem parse_ignores_layout_conditional :
    IsSilent "\t# note".toList ∧
    Padded (Text.lines "Flow: A\nIf b:\n  Do: x".toList)
      (Text.lines "Flow: A\nIf b:\n\t# note\n  Do: x".toList) ∧
    (∃ f : Nat → Nat, StrictMono f ∧ (∀ n, n ≤ f n) ∧
      parse "Flow: A\nIf b:\n\t# note\n  Do: x" =
        renumberOutcome f (parse "Flow: A\nIf b:\n  Do: x")) ∧
    (∃ g, Graph.ofStory "Flow: A\nIf b:\n  Do: x" = .ok g ∧
      Graph.ofStory "Flow: A\nIf b:\n\t# note\n  Do: x" = .ok g) ∧
    (StrictMono fun n : Nat => 3 * n + 1) ∧
    ofLines ((lines "Flow: A\nIf b:\n  Do: x").map fun l => { l with indent := 3 * l.indent + 1 }) =
      ofLines (lines "Flow: A\nIf b:\n  Do: x") := by
  have hsilent : IsSilent "\t# note".toList := by
    have hsplit : "\t# note".toList = ['\t'] ++ (['#'] ++ " note".toList) := by decide
    rw [hsplit]
    exact .comment (List.forall_mem_singleton.mpr (by decide)) (Or.inl rfl) _
  have hline : ∀ c ∈ "\t# note".toList, Text.isLineBreak c = false := by
    have hall : ("\t# note".toList.all fun c => !Text.isLineBreak c) = true := by decide
    intro c hc
    simpa using List.all_eq_true.mp hall c hc
  have hparse : parse "Flow: A\nIf b:\n  Do: x" = .ok [.header ⟨1, "Flow: A"⟩ "A",
      .conditional ⟨2, "If b:"⟩ [⟨"b", [.perform ⟨3, "Do: x"⟩ "x"], 2⟩] none] := by cbv
  have hmono : StrictMono fun n : Nat => 3 * n + 1 := fun a b hab => by
    show 3 * a + 1 < 3 * b + 1
    omega
  obtain ⟨hinsert, hpads, hindents⟩ := parse_ignores_layout
  have hpadded : Padded (Text.lines "Flow: A\nIf b:\n  Do: x".toList)
      (Text.lines "Flow: A\nIf b:\n\t# note\n  Do: x".toList) :=
    hinsert _ hsilent hline "Flow: A\nIf b:".toList "  Do: x".toList
  obtain ⟨hsame, hgraph⟩ := hpads _ _ hpadded
  exact ⟨hsilent, hpadded, hsame, hgraph _ hparse, hmono, hindents _ _ hmono⟩

end Swimlane.Story
