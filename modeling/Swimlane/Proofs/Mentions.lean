import Mathlib
import Swimlane.Proofs.Sentences
import Swimlane.Proofs.SourceLines
import Swimlane.Proofs.Splits

/-!
# The variables of statements

The variables of a statement are collected from the texts that were cut out of its lines.  They are
the variables of these lines, unless the channel of a `Send` line mentions others: the texts of a
`Send` statement are its message and its recipient.

## Key results

- `Sentence.exists_of_ofText?_send`: where the texts of a `Send` line stand
- `braced_of_send`: the braces of a `Send` line
- `Statement.Stands.covers`: the variables of a statement that stands on lines
-/

namespace Swimlane.Story

open Text Placeholder Sentence

/-! ## Send lines -/

/-- Where the texts of a `Send` line stand. -/
theorem Sentence.exists_of_ofText?_send {text message recipient : String} {channel : Option String}
    (h : ofText? text = some (.send message recipient channel)) :
    ∃ front m x rest, Braceless front ∧ text.toList = front ++ (m ++ x) ∧
      behindWord? "to" x = some rest ∧ message = trimmed m ∧
      recipient = trimmed (splitVia rest).1 ∧ channel = (splitVia rest).2.map trimmed := by
  have hsend := reader_of_ofText? h
  rw [reader] at hsend
  obtain ⟨w, gap, body, hw, hgap, hbody, htext⟩ := exists_of_send? hsend
  rw [htext, send?_eq hw hgap hbody, Option.map_eq_some_iff] at hsend
  obtain ⟨⟨m, rest⟩, hsplit, hs⟩ := hsend
  cases hs
  obtain ⟨front, x, heq, hfront, hto⟩ := exists_of_splitMessage?
    (fun c hc => hgap c (List.mem_reverse.mp hc)) hbody hsplit
  rw [List.reverse_reverse] at heq
  have hverb : Braceless w := braceless_of_sameWord (by simp [keywords]) hw
  refine ⟨w ++ front, m, x, rest, hverb.append (braceless_of_isBlank hfront), ?_, hto, rfl, rfl,
    rfl⟩
  rw [htext, heq, List.append_assoc]

theorem hasStrayBrace_trimmed_eq_false {cs : List Char} :
    hasStrayBrace (Sentence.trimmed cs) = false ↔ Tidy cs := by
  rw [← tidy_iff, Tidy, Tidy, Sentence.braced_trimmed]

/-- The braces of a `Send` line without stray braces in its message and in its recipient. -/
theorem braced_of_send {text message recipient : String} {channel : Option String}
    (h : Sentence.ofText? text = some (.send message recipient channel))
    (hmessage : hasStrayBrace message = false) (hrecipient : hasStrayBrace recipient = false) :
    braced text.toList =
      [message, recipient, channel.getD ""].flatMap fun t => braced t.toList := by
  obtain ⟨front, m, x, rest, hfront, htext, hto, rfl, rfl, rfl⟩ := Sentence.exists_of_ofText?_send h
  have hm := hasStrayBrace_trimmed_eq_false.mp hmessage
  have hr := hasStrayBrace_trimmed_eq_false.mp hrecipient
  -- Neither cut goes through a placeholder, since what is in front of it closes its braces.
  have hrest : braced rest = braced (splitVia rest).1 ++
      braced (((splitVia rest).2.map trimmed).getD "").toList := by
    rcases splitVia_cases rest with ⟨r, found, hsplit, ⟨_, y, hy, hvia⟩, _⟩ | ⟨hsplit, _⟩
    · rw [hsplit] at hr ⊢
      rw [Option.map_some, Option.getD_some, braced_trimmed, hy, braced_append (Or.inl hr.closes),
        (encloses_of_behindWord? (by simp [keywords]) hvia).braced_eq]
    · rw [hsplit]
      simp [braced_of_braceless braceless_nil]
  rw [htext, (Encloses.of_front front hfront _).braced_eq, braced_append (Or.inl hm.closes),
    (encloses_of_behindWord? (by simp [keywords]) hto).braced_eq, hrest]
  simp [braced_trimmed]

/-! ## Statements -/

/-- The variables of a statement without stray braces are those of its texts. -/
theorem mentioned_eq {s : Statement} (h : s.isMalformed = false) :
    s.mentioned = (s.parts.flatMap names).eraseDups := by
  refine (names_of_braced_eq (braced_intercalate fun t ht => ?_)).1
  exact Bool.eq_false_iff.mpr (List.any_eq_false.mp h t ht)

/-- The variables of a statement are those of its lines, and its lines have no stray braces.  For a
    `Send` statement this holds up to its channel. -/
def Statement.Covers (ls : List Line) : Statement → Prop
  | .conditional source branches last =>
    ∃ heads : List Line, heads.Sublist ls ∧ Opens source heads branches ∧
      (Statement.conditional source branches last).mentioned =
        (heads.flatMap fun l => names l.text).eraseDups ∧
      ∀ l ∈ heads, hasStrayBrace l.text = false
  | .send source message recipient channel =>
    ∃ l ∈ ls, l.source = source ∧ ∃ via : Option String,
      Sentence.ofText? l.text = some (.send message recipient via) ∧
      channel = via.getD (inferChannel message) ∧
      names l.text = (Statement.send source message recipient channel).mentioned ++
        (names (via.getD "")).filter
          (· ∉ (Statement.send source message recipient channel).mentioned) ∧
      hasStrayBrace l.text = hasStrayBrace (via.getD "")
  | s => ∃ l ∈ ls, l.source = s.source ∧ s.mentioned = names l.text ∧ hasStrayBrace l.text = false

/-- A statement with a single text has the variables of its line. -/
theorem names_of_ofText? {line text : String} {s : Statement} {sentence : Sentence}
    (h : Sentence.ofText? line = some sentence) (ht : sentence.text? = some text)
    (hparts : s.parts = [text]) (hs : s.isMalformed = false) :
    s.mentioned = names line ∧ hasStrayBrace line = false := by
  obtain ⟨hnames, hstray⟩ := names_and_hasStrayBrace_congr (Sentence.braced_of_ofText? h ht)
  rw [Statement.isMalformed, hparts] at hs
  rw [Statement.mentioned, hparts, hnames, hstray]
  simpa using hs

/-- A `Send` statement has the variables of its line, up to its channel. -/
theorem names_of_send {text : String} {source : Source} {message recipient channel : String}
    {via : Option String} (h : Sentence.ofText? text = some (.send message recipient via))
    (hs : (Statement.send source message recipient channel).isMalformed = false) :
    names text = (Statement.send source message recipient channel).mentioned ++
        (names (via.getD "")).filter
          (· ∉ (Statement.send source message recipient channel).mentioned) ∧
      hasStrayBrace text = hasStrayBrace (via.getD "") := by
  obtain ⟨hmessage, hrecipient⟩ :
      hasStrayBrace message = false ∧ hasStrayBrace recipient = false := by
    simpa [Statement.isMalformed, Statement.parts] using hs
  obtain ⟨hnames, hstray⟩ := names_of_braced_eq (braced_of_send h hmessage hrecipient)
  constructor
  · -- The channel comes last, so its names are added to those of the statement.
    have hlast : [message, recipient, via.getD ""].flatMap names =
        (Statement.send source message recipient channel).parts.flatMap names ++
          names (via.getD "") := by simp [Statement.parts]
    rw [hnames, mentioned_eq hs, hlast, List.eraseDups_append, List.removeAll, eraseDups_filter,
      eraseDups_eq_self (nodup_names _)]
    congr 1
    refine List.filter_congr fun name _ => ?_
    rw [List.elem_eq_mem, ← decide_not]
    exact decide_eq_decide.mpr (not_congr List.mem_eraseDups.symm)
  · simpa [hmessage, hrecipient] using hstray

/-- The sentence of a line that opens a branch with the given condition. -/
def Sentence.OpensBranch (condition : String) (s : Sentence) : Prop :=
  s = .condition condition ∨ s = .otherwise (some condition)

theorem Sentence.OpensBranch.text?_eq {condition : String} {s : Sentence}
    (h : s.OpensBranch condition) : s.text? = some condition := by
  rcases h with rfl | rfl <;> rfl

/-- Every branch of a conditional stands on a line with its condition. -/
theorem Opens.forall₂ {source : Source} {heads : List Line} {branches : List Branch}
    (h : Opens source heads branches) : List.Forall₂ (fun l b =>
      ∃ sentence, ofText? l.text = some sentence ∧ sentence.OpensBranch b.condition ∧
        hasStrayBrace b.condition = false) heads branches := by
  cases heads with
  | nil => exact h.elim
  | cons l rest =>
    cases branches with
    | nil => exact h.elim
    | cons b more =>
      obtain ⟨_, hif, _, hmore⟩ := h
      exact .cons ⟨_, hif.sentence, Or.inl rfl, hif.braces⟩ (hmore.imp fun l b hopens =>
        ⟨_, hopens.condition.sentence, Or.inr rfl, hopens.condition.braces⟩)

/-- What is related to the members of a list one by one has a partner there. -/
theorem exists_of_forall₂ {α β : Type} {R : α → β → Prop} {xs : List α} {ys : List β}
    (h : List.Forall₂ R xs ys) {y : β} (hy : y ∈ ys) : ∃ x ∈ xs, R x y := by
  induction h with
  | nil => exact absurd hy List.not_mem_nil
  | @cons x _ xs _ hx _ ih =>
    rcases List.mem_cons.mp hy with rfl | hy
    · exact ⟨x, List.mem_cons_self, hx⟩
    · obtain ⟨x', hmem, hx'⟩ := ih hy
      exact ⟨x', List.mem_cons_of_mem x hmem, hx'⟩

theorem Opens.exists_sentence {source : Source} {heads : List Line} {branches : List Branch}
    (h : Opens source heads branches) : ∀ b ∈ branches, ∃ line sentence,
      ofText? line = some sentence ∧ sentence.OpensBranch b.condition ∧
        hasStrayBrace b.condition = false := by
  intro b hb
  obtain ⟨l, _, hl⟩ := exists_of_forall₂ h.forall₂ hb
  exact ⟨l.text, hl⟩

theorem Opens.isMalformed {source : Source} {heads : List Line} {branches : List Branch}
    (h : Opens source heads branches) (last : Option (List Statement)) :
    (Statement.conditional source branches last).isMalformed = false := by
  refine List.any_eq_false.mpr fun t ht => ?_
  obtain ⟨b, hb, rfl⟩ := List.mem_map.mp ht
  obtain ⟨_, _, _, _, hbraces⟩ := h.exists_sentence b hb
  rw [hbraces]
  decide

/-- A conditional has the variables of its lines, and these have no stray braces. -/
theorem Opens.names_eq {source : Source} {heads : List Line} {branches : List Branch}
    (h : Opens source heads branches) (last : Option (List Statement)) :
    (Statement.conditional source branches last).mentioned =
        (heads.flatMap fun l => names l.text).eraseDups ∧
      ∀ l ∈ heads, hasStrayBrace l.text = false := by
  have hlines : (heads.flatMap fun l => names l.text) =
        branches.flatMap (fun b => names b.condition) ∧
      ∀ l ∈ heads, hasStrayBrace l.text = false := by
    have hforall := h.forall₂
    clear h
    induction hforall with
    | nil => simp
    | cons hl _ ih =>
      obtain ⟨sentence, hsentence, hopens, hbraces⟩ := hl
      obtain ⟨hnames, hstray⟩ := names_and_hasStrayBrace_congr
        (braced_of_ofText? hsentence hopens.text?_eq)
      refine ⟨?_, List.forall_mem_cons.mpr ⟨hstray.trans hbraces, ih.2⟩⟩
      rw [List.flatMap_cons, List.flatMap_cons, hnames, ih.1]
  refine ⟨?_, hlines.2⟩
  rw [mentioned_eq (h.isMalformed last), hlines.1, Statement.parts, List.flatMap_map]

/-- A statement that stands on lines has their variables. -/
theorem Statement.Stands.covers {ls : List Line} {s : Statement} (h : s.Stands ls) :
    s.Covers ls := by
  cases s with
  | header source name =>
    obtain ⟨l, hl, hsource, hflow⟩ := h
    exact ⟨l, hl, hsource, names_of_ofText? hflow.sentence rfl rfl
      (by simp [Statement.isMalformed, Statement.parts, hflow.braces])⟩
  | conditional source branches last =>
    obtain ⟨heads, hheads, hopens⟩ := h
    exact ⟨heads, hheads, hopens, hopens.names_eq last⟩
  | ask source subject prompt =>
    obtain ⟨l, hl, hsaid, hbraces⟩ := h
    cases hsaid with
    | ask h => exact ⟨l, hl, rfl, names_of_ofText? h rfl rfl hbraces⟩
  | perform source action =>
    obtain ⟨l, hl, hsaid, hbraces⟩ := h
    cases hsaid with
    | perform h => exact ⟨l, hl, rfl, names_of_ofText? h rfl rfl hbraces⟩
  | send source message recipient channel =>
    obtain ⟨l, hl, hsaid, hbraces⟩ := h
    cases hsaid with
    | send h => exact ⟨l, hl, rfl, _, h, rfl, names_of_send h hbraces⟩
  | stop source reason =>
    obtain ⟨l, hl, hsaid, hbraces⟩ := h
    cases hsaid with
    | stop h => exact ⟨l, hl, rfl, names_of_ofText? h rfl rfl hbraces⟩
  | foreign source kind =>
    obtain ⟨l, hl, hsaid, hbraces⟩ := h
    cases hsaid

/-- The variables of the statements of a story are those of its lines, and these lines have no stray
    braces; the channel of a `Send` line is not read. -/
theorem placeholders_of_statements {story : String} {statements : List Statement}
    (h : parse story = .ok statements) :
    ∀ s ∈ preorderAll statements, s.Covers (lines story) :=
  fun _ hs => (stands_of_parse h hs).covers

/-- A story with variables in a conditional and in a channel. -/
def variedStory : String :=
  "Flow: F\nIf {a}:\n  Send hi to {a} via {c}\nElse if { b } or {a}\n  Stop"

theorem parse_variedStory : parse variedStory = .ok [.header ⟨1, "Flow: F"⟩ "F",
    .conditional ⟨2, "If {a}:"⟩
      [⟨"{a}", [.send ⟨3, "Send hi to {a} via {c}"⟩ "hi" "{a}" "{c}"], 2⟩,
        ⟨"{ b } or {a}", [.stop ⟨5, "Stop"⟩ ""], 4⟩] none] := by cbv

/-- The statements of the story have the variables of its lines. -/
theorem placeholders_of_variedStory : ∃ statements, parse variedStory = .ok statements ∧
    (preorderAll statements).length = 4 ∧
    ∀ s ∈ preorderAll statements, s.Covers (lines variedStory) :=
  ⟨_, parse_variedStory, rfl, placeholders_of_statements parse_variedStory⟩

/-- A story with a variable for a channel. -/
def channelStory : String := "Flow: F\nSend hi to bob via {chan}"

theorem parse_channelStory : parse channelStory = .ok [.header ⟨1, "Flow: F"⟩ "F",
    .send ⟨2, "Send hi to bob via {chan}"⟩ "hi" "bob" "{chan}"] := by cbv

theorem names_channelLine : names "Send hi to bob via {chan}" = ["chan"] := by cbv

theorem mentioned_channelLine : (Statement.send ⟨2, "Send hi to bob via {chan}"⟩ "hi" "bob"
    "{chan}").mentioned = [] := by cbv

/-- The variable in the channel is missed. -/
theorem placeholder_of_channel_missed :
    parse channelStory = .ok [.header ⟨1, "Flow: F"⟩ "F",
      .send ⟨2, "Send hi to bob via {chan}"⟩ "hi" "bob" "{chan}"] ∧
    (Statement.send ⟨2, "Send hi to bob via {chan}"⟩ "hi" "bob" "{chan}").mentioned = [] ∧
    names "Send hi to bob via {chan}" = ["chan"] :=
  ⟨parse_channelStory, mentioned_channelLine, names_channelLine⟩

end Swimlane.Story
