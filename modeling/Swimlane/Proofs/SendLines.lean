import Mathlib
import Swimlane.Proofs.Sentences
import Swimlane.Proofs.SourceLines
import Swimlane.Proofs.Spacing
import Swimlane.Proofs.Splits

/-!
# Send lines

A `Send` line has a message, the word `to`, a recipient, and perhaps the word `via` and a channel.
All of these words may come up in the message and in the recipient too.  The line is divided at
the last `to` with words on both sides, and what is behind it at the first such `via`.

A line without such a `to` is read only if it has `to` for its first word behind the verb, and at
least three blanks in front of it: these stand for the message.

## Key results

- `Line.divided_of_ofText?`: the words of a `Send` line are its message, recipient and channel
- `Line.exists_ofText?_of_hasMessage`: a line with such words is read
- `exists_sends`: whether a line is accepted depends on its words
-/

namespace Swimlane.Story

open Text Placeholder

/-! ## The words of a line -/

/-- Words that stand behind the verb of a `Send` line and a number of blanks: a message, and what
    follows it and the word `to`. -/
inductive HasMessage (gap : Nat) (body : List (List Char)) :
    (message : String) → (rest : List (List Char)) → Prop
  | divided {message : String} {rest : List (List Char)}
      (h : DividesLast "to" body (blankWords message.toList) rest) :
      HasMessage gap body message rest
  | blank {w : List Char} {rest : List (List Char)} (hgap : 3 ≤ gap)
      (hno : ∀ front behind, ¬ Divides "to" body front behind) (hw : SameWord "to" w)
      (hrest : rest ≠ []) (hbody : body = w :: rest) : HasMessage gap body "" rest

/-- Words that stand behind a message and the word `to`: a recipient, and a channel or not. -/
inductive HasRecipient (message : String) (words : List (List Char)) :
    (recipient channel : String) → Prop
  | via {recipient channel : String}
      (h : DividesFirst "via" words (blankWords recipient.toList) (blankWords channel.toList)) :
      HasRecipient message words recipient channel
  | whole {recipient : String} (hno : ∀ front behind, ¬ Divides "via" words front behind)
      (h : blankWords recipient.toList = words) :
      HasRecipient message words recipient (inferChannel message)

/-- The number of blanks behind the first word of a line. -/
def Line.verbGap (l : Line) : Nat :=
  ((l.text.toList.dropWhile (!isBlank ·)).takeWhile isBlank).length

/-- The words of a line are a message, a recipient and a channel. -/
def Line.Divided (l : Line) (message recipient channel : String) : Prop :=
  ∃ verb body rest, SameWord "send" verb ∧ blankWords l.text.toList = verb :: body ∧
    HasMessage l.verbGap body message rest ∧ HasRecipient message rest recipient channel

namespace Sentence

theorem blankWords_trimmed (cs : List Char) : blankWords (trimmed cs).toList = blankWords cs := by
  rw [trimmed, String.toList_ofList, blankWords_trim]

/-- The words of a text that begins with a verb and white space. -/
theorem blankWords_verb {w gap body : List Char} (hw : SameWord "send" w) (hne : gap ≠ [])
    (hgap : ∀ c ∈ gap, isBlank c = true) :
    blankWords (w ++ (gap ++ body)) = w :: blankWords body := by
  rw [blankWords_solid_append (hw.isSolid (by simp [keywords]))
    (isBlank_of_mem_head?_append hne hgap body), blankWords_append_left hgap]

theorem verbGap_eq {l : Line} {w gap body : List Char} (hw : SameWord "send" w) (hne : gap ≠ [])
    (hgap : ∀ c ∈ gap, isBlank c = true) (hbody : ∀ c ∈ body.head?, isBlank c = false)
    (hl : l.text.toList = w ++ (gap ++ body)) : l.verbGap = gap.length := by
  have hsolid : ∀ c ∈ w, (!isBlank c) = true := by
    intro c hc
    simp [(hw.isSolid (by simp [keywords])).2 c hc]
  have hstop : (gap ++ body).dropWhile (!isBlank ·) = gap ++ body := by
    obtain ⟨d, gap, rfl⟩ := List.exists_cons_of_ne_nil hne
    simp [hgap d List.mem_cons_self]
  rw [Line.verbGap, hl, List.dropWhile_append_of_pos hsolid, hstop, (span_isBlank hgap hbody).1]

/-- What a message is split off from has a message by its words. -/
theorem hasMessage_of_splitMessage? {gap body message rest : List Char}
    (hgap : ∀ c ∈ gap, isBlank c = true) (hbody : ∀ c ∈ body.head?, isBlank c = false)
    (h : splitMessage? gap body = some (message, rest)) :
    HasMessage gap.length (blankWords body) (trimmed message) (blankWords rest) := by
  rcases (splitMessage?_eq_some_iff hgap hbody).mp h with
    ⟨_, h⟩ | ⟨hnone, d, c, gap', rfl, hne, rfl, hto⟩
  · refine .divided ?_
    rw [blankWords_trimmed]
    rcases splitLastTo?_cases body with ⟨front, rest', hsplit, hlast⟩ | ⟨hnone, _⟩
    · cases h.symm.trans hsplit
      exact hlast.divides (by simp [keywords]) hbody
    · cases h.symm.trans hnone
  · rcases splitLastTo?_cases body with ⟨front, rest', hsplit, _⟩ | ⟨_, hno⟩
    · cases hnone.symm.trans hsplit
    · obtain ⟨_, _, w, _, _, hw, hwords, hrest⟩ :=
        blankWords_of_behindWord? (by simp [keywords]) hto
      rw [blankWords_cons (hgap d List.mem_cons_self)] at hwords
      have hc : isBlank c = true := hgap c (List.mem_cons_of_mem _ List.mem_cons_self)
      have hempty : trimmed [c] = "" := by simp [trimmed, trim, trimBy, hc]
      rw [hempty]
      refine .blank ?_ (not_divides_of_not_cuts (by simp [keywords]) hno) hw hrest hwords
      have := List.length_pos_of_ne_nil hne
      simp only [List.length_cons]
      omega

/-- Words with a message, behind enough white space, are split. -/
theorem exists_splitMessage?_of_hasMessage {gap body : List Char} {message : String}
    {rest : List (List Char)} (hgap : ∀ c ∈ gap, isBlank c = true)
    (hbody : ∀ c ∈ body.head?, isBlank c = false) (hne : gap ≠ [])
    (h : HasMessage gap.length (blankWords body) message rest) :
    ∃ found, splitMessage? gap body = some found := by
  cases h with
  | divided h =>
    obtain ⟨front, behind, hcuts, _⟩ := exists_cuts_of_divides (by simp [keywords]) h.1
    rcases splitLastTo?_cases body with ⟨m, rest', hsplit, _⟩ | ⟨_, hno⟩
    · exact ⟨_, splitMessage?_of_splitLastTo? hne hsplit⟩
    · exact absurd hcuts (hno front behind)
  | blank hlength hno hw hrest hwords =>
    rcases gap with _ | ⟨d, _ | ⟨c, _ | ⟨e, gap⟩⟩⟩
    · simp at hlength
    · simp at hlength
    · simp at hlength
    have hd := hgap d List.mem_cons_self
    rw [← blankWords_cons hd] at hwords
    obtain ⟨found, hfound, _⟩ := exists_behindWord?_eq_some (by simp [keywords])
      (by simp [hd]) hw hwords hrest
    rcases splitLastTo?_cases body with ⟨m, rest', _, hlast⟩ | ⟨hnone, _⟩
    · exact absurd (hlast.1.divides (by simp [keywords]) hbody) (hno _ _)
    · exact ⟨([c], found), (splitMessage?_eq_some_iff hgap hbody).mpr
        (Or.inr ⟨hnone, d, c, e :: gap, rfl, List.cons_ne_nil _ _, rfl, hfound⟩)⟩

/-- What follows a message has a recipient by its words. -/
theorem hasRecipient_splitVia (message : String) {rest : List Char}
    (hrest : ∀ c ∈ rest.head?, isBlank c = false) :
    HasRecipient message (blankWords rest) (trimmed (splitVia rest).1)
      (((splitVia rest).2.map trimmed).getD (inferChannel message)) := by
  rcases splitVia_cases rest with ⟨front, channel, hsplit, hfirst⟩ | ⟨hsplit, hno⟩
  · rw [hsplit]
    refine .via ?_
    rw [Option.map_some, Option.getD_some, blankWords_trimmed, blankWords_trimmed]
    exact hfirst.divides (by simp [keywords]) hrest
  · rw [hsplit]
    exact .whole (not_divides_of_not_cuts (by simp [keywords]) hno) (blankWords_trimmed rest)

/-- No reader before the one of `Send` lines reads a line that begins with `send`. -/
theorem ofText?_of_send? {text : String} {s : Sentence} (h : send? text.toList = some s) :
    ofText? text = some s := by
  obtain ⟨w, gap, body, hw, _, _, htext⟩ := exists_of_send? h
  have hfirst : ∃ c more, text.toList = c :: more ∧ sameLetter 's' c = true := by
    rw [SameWord, show "send".toList = ['s', 'e', 'n', 'd'] from rfl] at hw
    cases hw with
    | cons hc _ => exact ⟨_, _, htext, hc⟩
  obtain ⟨c, more, hcs, hc⟩ := hfirst
  -- The long `ſ` counts as an `s`.
  have hletter : c = 's' ∨ c = 'S' ∨ c = 'ſ' := by
    simpa [sameLetter, or_assoc] using hc
  have hnone : flow? (c :: more) = none ∧ ask? (c :: more) = none ∧
      perform? (c :: more) = none := by
    rcases hletter with rfl | rfl | rfl <;> exact ⟨rfl, rfl, rfl⟩
  rw [hcs] at h
  simp only [ofText?_eq_findSome?, readers, List.findSome?_cons, hcs, hnone, h]

end Sentence

/-- A `Send` line is divided by its words. -/
theorem Line.divided_of_ofText? {l : Line} {message recipient : String} {channel : Option String}
    (h : Sentence.ofText? l.text = some (.send message recipient channel)) :
    l.Divided message recipient (channel.getD (inferChannel message)) := by
  have hsend := Sentence.reader_of_ofText? h
  rw [Sentence.reader] at hsend
  obtain ⟨w, gap, body, hw, hgap, hbody, hl⟩ := Sentence.exists_of_send? hsend
  rw [hl, Sentence.send?_eq hw hgap hbody, Option.map_eq_some_iff] at hsend
  obtain ⟨⟨m, rest⟩, hsplit, hs⟩ := hsend
  cases hs
  have hgap' : ∀ c ∈ gap.reverse, isBlank c = true := fun c hc => hgap c (List.mem_reverse.mp hc)
  have hmessage := Sentence.hasMessage_of_splitMessage? hgap' hbody hsplit
  obtain ⟨_, x, _, _, hto⟩ := Sentence.exists_of_splitMessage? hgap' hbody hsplit
  obtain ⟨_, _, _, _, _, _, _, _, _, _, hrest⟩ :=
    (Sentence.behindWord?_eq_some_iff (by simp [keywords])).mp hto
  have hne : gap ≠ [] := by
    rintro rfl
    cases hsplit
  refine ⟨w, blankWords body, blankWords rest, hw, ?_, ?_, Sentence.hasRecipient_splitVia _ hrest⟩
  · rw [hl, Sentence.blankWords_verb hw hne hgap]
  · rwa [List.length_reverse, ← Sentence.verbGap_eq hw hne hgap hbody hl] at hmessage

/-- A line whose words are divided is a `Send` line. -/
theorem Line.exists_ofText?_of_hasMessage {l : Line} {verb : List Char}
    {body rest : List (List Char)} {message : String}
    (hl : ∀ c ∈ l.text.toList.head?, isBlank c = false) (hverb : SameWord "send" verb)
    (hwords : blankWords l.text.toList = verb :: body)
    (h : HasMessage l.verbGap body message rest) :
    ∃ message recipient channel,
      Sentence.ofText? l.text = some (.send message recipient channel) := by
  obtain ⟨front, behind, htext, hfront, hsolid, hbehind, hbody⟩ :=
    exists_of_blankWords_eq_cons hwords
  have hnil : front = [] := by
    cases front with
    | nil => rfl
    | cons c front =>
      have hc := hl c (by rw [htext]; rfl)
      rw [hfront c List.mem_cons_self] at hc
      cases hc
  rw [hnil, List.nil_append] at htext
  -- Behind the verb there is white space, since there are words.
  have hgap : ∀ c ∈ behind.takeWhile isBlank, isBlank c = true :=
    fun c hc => List.mem_takeWhile_imp hc
  have hrest : ∀ c ∈ (behind.dropWhile isBlank).head?, isBlank c = false :=
    fun c hc => eq_false_of_mem_head?_dropWhile hc
  have hsplit := List.takeWhile_append_dropWhile (p := isBlank) (l := behind)
  rw [← hsplit] at htext
  have hdropped : blankWords (behind.dropWhile isBlank) = body := by
    rw [← blankWords_append_left hgap, hsplit, hbody]
  have hne : behind.takeWhile isBlank ≠ [] := by
    cases behind with
    | nil =>
      rw [← hbody] at h
      cases h with
      | divided h =>
        obtain ⟨⟨_, _, w, _, hnil⟩, _⟩ := h
        simp [blankWords_eq_nil] at hnil
      | blank _ _ _ _ hnil => simp [blankWords_eq_nil] at hnil
    | cons c more => simp [hbehind c rfl]
  rw [Sentence.verbGap_eq hverb hne hgap hrest htext, ← hdropped, ← List.length_reverse] at h
  obtain ⟨found, hfound⟩ := Sentence.exists_splitMessage?_of_hasMessage
    (fun c hc => hgap c (List.mem_reverse.mp hc)) hrest (by simpa using hne) h
  have hsend := Sentence.send?_eq hverb hgap hrest
  rw [hfound, Option.map_some, ← htext] at hsend
  exact ⟨_, _, _, Sentence.ofText?_of_send? hsend⟩

/-! ## Accepted lines -/

/-- A line is accepted as a `Send` statement. -/
def Line.Sends (l : Line) (message recipient channel : String) : Prop :=
  l.Says (.send l.source message recipient channel) ∧
    (Statement.send l.source message recipient channel).isMalformed = false

theorem Line.Sends.divided {l : Line} {message recipient channel : String}
    (h : l.Sends message recipient channel) : l.Divided message recipient channel := by
  obtain ⟨hsaid, _⟩ := h
  cases hsaid with
  | send h => exact Line.divided_of_ofText? h

/-- Words have a message and what follows it in one way. -/
theorem HasMessage.eq {gap gap' : Nat} {body rest rest' : List (List Char)}
    {message message' : String} (h : HasMessage gap body message rest)
    (h' : HasMessage gap' body message' rest') :
    blankWords message.toList = blankWords message'.toList ∧ rest = rest' := by
  cases h with
  | divided h =>
    cases h' with
    | divided h' => exact h.eq h'
    | blank _ hno _ _ _ => exact absurd h.1 (hno _ _)
  | blank _ hno _ _ hbody =>
    cases h' with
    | divided h' => exact absurd h'.1 (hno _ _)
    | blank _ _ _ _ hbody' => exact ⟨rfl, (List.cons.inj (hbody.symm.trans hbody')).2⟩

/-- Words have a recipient in one way. -/
theorem HasRecipient.eq {words : List (List Char)}
    {message recipient channel message' recipient' channel' : String}
    (h : HasRecipient message words recipient channel)
    (h' : HasRecipient message' words recipient' channel') :
    blankWords recipient.toList = blankWords recipient'.toList := by
  cases h with
  | via h =>
    cases h' with
    | via h' => exact (h.eq h').1
    | whole hno _ => exact absurd h.1 (hno _ _)
  | whole hno h =>
    cases h' with
    | via h' => exact absurd h'.1 (hno _ _)
    | whole _ h' => exact h.trans h'.symm

/-- A significant line begins with no white space. -/
theorem isBlank_head?_of_mem_lines {story : String} {l : Line} (h : l ∈ lines story) :
    ∀ c ∈ l.text.toList.head?, isBlank c = false := by
  have hsignificant : ∀ (raws : List (List Char)) (number : Nat), ∀ l ∈ significant number raws,
      ∃ cs, l.text = String.ofList (trim cs) := by
    intro raws
    induction raws with
    | nil => exact fun _ l hl => absurd hl List.not_mem_nil
    | cons raw raws ih =>
      intro number l hl
      rw [significant] at hl
      split at hl
      · rename_i line hline
        rw [Line.ofRaw?] at hline
        rcases List.mem_cons.mp hl with rfl | hl
        · split at hline
          · cases hline
          · cases hline
            exact ⟨_, rfl⟩
        · exact ih _ l hl
      · exact ih _ l hl
  obtain ⟨cs, hcs⟩ := hsignificant _ _ l h
  rw [hcs, String.toList_ofList]
  exact fun c hc => eq_false_of_mem_head?_trim hc

/-- A line with the words of a `Send` line is one, if a message is among the words or there is
    enough white space. -/
theorem exists_sends {story : String} {l l' : Line} (hl' : l' ∈ lines story)
    (hwords : blankWords l'.text.toList = blankWords l.text.toList)
    (hgap : (3 ≤ l.verbGap → 3 ≤ l'.verbGap) ∨
      ∃ front behind, Divides "to" (blankWords l.text.toList).tail front behind)
    (h : ∃ message recipient channel, l.Sends message recipient channel) :
    ∃ message recipient channel, l'.Sends message recipient channel := by
  obtain ⟨message, recipient, channel, hsends⟩ := h
  obtain ⟨verb, body, rest, hverb, hl, hmessage, hrecipient⟩ := hsends.divided
  have hmessage' : HasMessage l'.verbGap body message rest := by
    cases hmessage with
    | divided h => exact .divided h
    | blank h hno hw hrest hbody =>
      refine .blank ?_ hno hw hrest hbody
      rcases hgap with hgap | ⟨front, behind, hdivides⟩
      · exact hgap h
      · rw [hl] at hdivides
        exact absurd hdivides (hno _ _)
  -- The other line is divided at the same words, so its parts have stray braces no more than those
  -- of the first line.
  obtain ⟨m, r, c, hsaid⟩ := Line.exists_ofText?_of_hasMessage (isBlank_head?_of_mem_lines hl')
    hverb (hwords.trans hl) hmessage'
  obtain ⟨verb', body', rest', _, hl'', hm, hr⟩ := Line.divided_of_ofText? hsaid
  obtain ⟨_, rfl⟩ := List.cons.inj ((hwords.trans hl).symm.trans hl'')
  obtain ⟨hmWords, rfl⟩ := hmessage.eq hm
  refine ⟨m, r, _, .send hsaid, ?_⟩
  have hbraces := hsends.2
  simp only [Statement.isMalformed, Statement.parts, List.any_cons, List.any_nil] at hbraces ⊢
  rwa [hasStrayBrace_of_blankWords_eq hmWords, hasStrayBrace_of_blankWords_eq (hrecipient.eq hr)]
    at hbraces

/-- The `Send` statements of a story are lines that are divided by their words.  Lines with the same
    words are both accepted or both not, if the words have a message or if both lines have enough
    white space to stand for one. -/
theorem send_lines_divided (story : String) :
    (∀ statements, parse story = .ok statements → ∀ source message recipient channel,
      .send source message recipient channel ∈ preorderAll statements →
        ∃ l ∈ lines story, l.source = source ∧ l.Sends message recipient channel) ∧
    ∀ l ∈ lines story,
      (∀ message recipient channel, l.Sends message recipient channel →
        l.Divided message recipient channel) ∧
      ∀ story' l', l' ∈ lines story' → blankWords l'.text.toList = blankWords l.text.toList →
        ((3 ≤ l.verbGap ↔ 3 ≤ l'.verbGap) ∨
          ∃ front behind, Divides "to" (blankWords l.text.toList).tail front behind) →
        ((∃ message recipient channel, l.Sends message recipient channel) ↔
          ∃ message recipient channel, l'.Sends message recipient channel) := by
  refine ⟨fun statements h source message recipient channel hmem => ?_, fun l hl =>
    ⟨fun message recipient channel => Line.Sends.divided, fun story' l' hl' hwords hgap => ?_⟩⟩
  · obtain ⟨l, hl, hsaid, hbraces⟩ := stands_of_parse h hmem
    have hsource : l.source = source := by cases hsaid; rfl
    subst hsource
    exact ⟨l, hl, rfl, hsaid, hbraces⟩
  · constructor
    · exact exists_sends hl' hwords (hgap.imp_left Iff.mp)
    · refine exists_sends hl hwords.symm ?_
      rw [hwords]
      exact hgap.imp_left Iff.mpr

/-- A line with several `to` and `via`, some of which are words of the message and of the
    channel. -/
def busyStory : String := "Flow: F\nSend to to b via via via c"

/-- The same words with other white space. -/
def spacedStory : String := "Flow: F\nSend  to   to\tb via  via via c"

theorem lines_spacedStory : lines spacedStory =
    [⟨1, 0, "Flow: F"⟩, ⟨2, 0, "Send  to   to   b via  via via c"⟩] := by cbv

theorem parse_busyStory : parse busyStory = .ok [.header ⟨1, "Flow: F"⟩ "F",
    .send ⟨2, "Send to to b via via via c"⟩ "to" "b" "via via c"] := by cbv

/-- The line is divided at the second `to`, and at the first `via` behind it.  With other white
    space it is accepted too. -/
theorem send_lines_divided_busyStory :
    (∃ l ∈ lines busyStory, l.source = ⟨2, "Send to to b via via via c"⟩ ∧
      l.Divided "to" "b" "via via c") ∧
    ∃ l ∈ lines spacedStory, l.source = ⟨2, "Send  to   to   b via  via via c"⟩ ∧
      ∃ message recipient channel, l.Sends message recipient channel := by
  obtain ⟨hsent, hlines⟩ := send_lines_divided busyStory
  obtain ⟨l, hl, hsource, hsends⟩ := hsent _ parse_busyStory _ _ _ _
    (List.mem_cons_of_mem _ (List.mem_singleton_self _))
  obtain ⟨hdivided, haccepted⟩ := hlines l hl
  have hl' : ⟨2, 0, "Send  to   to   b via  via via c"⟩ ∈ lines spacedStory := by
    rw [lines_spacedStory]
    exact List.mem_cons_of_mem _ (List.mem_singleton_self _)
  have htext : l.text = "Send to to b via via via c" := congrArg Source.text hsource
  have hgap : 3 ≤ l.verbGap ↔
      3 ≤ Line.verbGap ⟨2, 0, "Send  to   to   b via  via via c"⟩ := by
    rw [Line.verbGap, htext]
    decide +kernel
  refine ⟨⟨l, hl, hsource, hdivided _ _ _ hsends⟩, _, hl', rfl, ?_⟩
  refine (haccepted spacedStory _ hl' ?_ (Or.inl hgap)).mp ⟨_, _, _, hsends⟩
  rw [htext]
  decide +kernel

/-- A line without a message, with a single blank behind the verb. -/
def terseStory : String := "Flow: F\nSend to bob"

/-- The same line with three blanks behind the verb. -/
def silentStory : String := "Flow: F\nSend   to bob"

theorem parse_terseStory :
    parse terseStory = .error ⟨.unrecognized, 2, "Send to bob"⟩ := by cbv

theorem parse_silentStory : parse silentStory = .ok [.header ⟨1, "Flow: F"⟩ "F",
    .send ⟨2, "Send   to bob"⟩ "" "bob" "message"] := by cbv

/-- White space is taken for a message: of two lines with the same words one is accepted, and its
    message is empty. -/
theorem send_without_message :
    blankWords "Send   to bob".toList = blankWords "Send to bob".toList ∧
    parse silentStory = .ok [.header ⟨1, "Flow: F"⟩ "F",
      .send ⟨2, "Send   to bob"⟩ "" "bob" "message"] ∧
    parse terseStory = .error ⟨.unrecognized, 2, "Send to bob"⟩ :=
  ⟨by decide +kernel, parse_silentStory, parse_terseStory⟩

end Swimlane.Story
