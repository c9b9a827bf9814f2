import Swimlane.Http.EncodedWord
import Swimlane.Text.Blank
import Swimlane.Text.Lines

/-!
# Header fields

The value of a header field is made of tokens, phrases and quoted texts, with blanks and comments
between them.  What is read is given back as it is written out again: comments and quoted texts
with escapes of their own, encoded words as their texts.
-/

namespace Swimlane.Http.Field

/-- A blank within a field. -/
def isGap (c : Char) : Bool := c == ' ' || c == '\t'

/-- The lines that go on with a field: those that start with a blank. -/
def folded (lines : List (List Char)) : List (List Char) :=
  lines.takeWhile fun line => (line.head?.map isGap).getD false

/-- The value of a field: its first line, and the lines that go on with it. -/
def unfolded (cs : List Char) : List Char :=
  match (Text.unifyLineEnds cs).splitOnP (· == '\n') with
  | [] => []
  | line :: rest => line ++ (folded rest).flatten

/-- The characters that end a token. -/
def endsToken (c : Char) : Bool := isGap c || "()<>@,:;\\\"[]/?=".toList.contains c

/-- The characters that end an atom. -/
def endsAtom (c : Char) : Bool := isGap c || "()<>@,:;.\\\"[]".toList.contains c

/-- What was read, with a text in front of it. -/
def after {α : Type} (text : List α) (r : List α × List Char) : List α × List Char :=
  (text ++ r.1, r.2)

@[simp] theorem snd_after {α : Type} (text : List α) (r : List α × List Char) :
    (after text r).2 = r.2 := rfl

/-! ## Comments and blanks -/

/-- A character of a comment as it is written. -/
def commentChar (c : Char) : List Char :=
  if c == '(' || c == ')' || c == '\\' then ['\\', c] else [c]

/-- The rest of a comment as it is written, and what follows it, given the number of comments that
    are open.  A backslash takes the next character as it is, but no blank.  The end of the field
    closes all of them. -/
def comment (depth : Nat) : List Char → List Char × List Char
  | [] => (List.replicate depth ')', [])
  | '\\' :: c :: rest => after (if isGap c then [c] else commentChar c) (comment depth rest)
  | '(' :: rest => after ['('] (comment (depth + 1) rest)
  | ')' :: rest => if depth ≤ 1 then ([')'], rest) else after [')'] (comment (depth - 1) rest)
  | c :: rest => after (if c = '\\' then [] else [c]) (comment depth rest)

theorem length_comment (depth : Nat) (cs : List Char) :
    (comment depth cs).2.length ≤ cs.length := by
  fun_induction comment depth cs <;> simp_all <;> omega

/-- The blanks and comments at the start of a text as they are written, and what follows them.  A
    blank takes all white space behind it along. -/
def gap (cs : List Char) : List Char × List Char :=
  match cs with
  | [] => ([], [])
  | c :: rest =>
    if isGap c then
      after (c :: rest.takeWhile Text.isBlank) (gap (rest.dropWhile Text.isBlank))
    else if c = '(' then
      let inner := comment 1 rest
      after (c :: inner.1) (gap inner.2)
    else ([], cs)
termination_by cs.length
decreasing_by
  · have := (List.dropWhile_sublist Text.isBlank (l := rest)).length_le
    simp only [List.length_cons]
    omega
  · have := length_comment 1 rest
    simp only [List.length_cons]
    omega

/-! ## Quoted texts -/

/-- The characters up to a blank or a quotation mark, and what follows them.  A backslash takes the
    next character as it is, but no blank. -/
def content : List Char → List Char × List Char
  | [] => ([], [])
  | '\\' :: c :: rest =>
    if isGap c then ([], c :: rest) else after [c] (content rest)
  | c :: rest =>
    if c = '"' || isGap c then ([], c :: rest)
    else after (if c = '\\' then [] else [c]) (content rest)

theorem length_content (cs : List Char) : (content cs).2.length ≤ cs.length := by
  fun_induction content cs <;> simp_all <;> omega

theorem length_content_lt {c : Char} {rest : List Char} (h : c ≠ '"') (hg : isGap c = false) :
    (content (c :: rest)).2.length < (c :: rest).length := by
  rw [content.eq_def]
  split
  · contradiction
  · rename_i rest' he
    cases he
    split
    · exact Nat.lt_succ_self _
    · exact Nat.lt_succ_of_lt (Nat.lt_succ_of_le (length_content rest'))
  · rename_i he
    cases he
    rw [if_neg (by simp [h, hg])]
    exact Nat.lt_succ_of_le (length_content rest)

/-- The text behind a quotation mark up to the next one, and what follows that.  Blanks between
    two encoded words are no part of it, so those behind a word are held back. -/
def quotedText (held : Option (List Char)) (cs : List Char) : RawText × List Char :=
  let kept := RawText.ofChars (held.getD [])
  match cs with
  | [] => (kept, [])
  | c :: rest =>
    if c = '"' then (kept, rest)
    else if isGap c then
      let blanks := c :: rest.takeWhile Text.isBlank
      match held with
      | some more => quotedText (some (more ++ blanks)) (rest.dropWhile Text.isBlank)
      | none => after (RawText.ofChars blanks) (quotedText none (rest.dropWhile Text.isBlank))
    else
      match _ : EncodedWord.read? (c :: rest) with
      | some (text, behind) => after text (quotedText (some []) behind)
      | none =>
        let text := content (c :: rest)
        after (kept ++ RawText.ofChars text.1) (quotedText none text.2)
termination_by cs.length
decreasing_by
  · have := (List.dropWhile_sublist Text.isBlank (l := rest)).length_le
    simp only [List.length_cons]
    omega
  · have := (List.dropWhile_sublist Text.isBlank (l := rest)).length_le
    simp only [List.length_cons]
    omega
  · exact EncodedWord.length_read? (by assumption)
  · exact length_content_lt (by assumption) (by simp_all)

theorem length_quotedText (held : Option (List Char)) (cs : List Char) :
    (quotedText held cs).2.length ≤ cs.length := by
  fun_induction quotedText held cs with
  | case1 => simp
  | case2 => simp
  | case3 _ _ _ _ _ _ ih =>
    exact Nat.le_succ_of_le (Nat.le_trans ih (List.dropWhile_sublist _).length_le)
  | case4 _ _ _ _ _ ih =>
    exact Nat.le_succ_of_le (Nat.le_trans ih (List.dropWhile_sublist _).length_le)
  | case5 _ _ _ _ _ _ _ h ih => exact Nat.le_trans ih (Nat.le_of_lt (EncodedWord.length_read? h))
  | case6 _ _ _ _ _ _ _ _ ih => exact Nat.le_trans ih (length_content _)

/-! ## Tokens and phrases -/

/-- A token with the blanks and comments around it, and what follows it. -/
def token? (cs : List Char) : Option (List Char × List Char) :=
  let before := gap cs
  match before.2.span (!endsToken ·) with
  | ([], _) => none
  | (word, rest) =>
    let behind := gap rest
    some (before.1 ++ word ++ behind.1, behind.2)

/-- The text of a phrase, and what follows it: nothing, or a semicolon that stands in no comment
    and in no quoted text. -/
def phrase (cs : List Char) : RawText × List Char :=
  match cs with
  | [] => ([], [])
  | c :: rest =>
    if c = ';' then ([], cs)
    else if c = '(' then
      let inner := comment 1 rest
      after (RawText.ofChars (c :: inner.1)) (phrase inner.2)
    else if c = '"' then
      let inner := quotedText none rest
      after inner.1.quoted (phrase inner.2)
    else if isGap c then
      after (RawText.ofChars (c :: rest.takeWhile Text.isBlank))
        (phrase (rest.dropWhile Text.isBlank))
    else if endsAtom c then after (RawText.ofChars [c]) (phrase rest)
    else
      match _ : EncodedWord.read? (c :: rest) with
      | some (text, behind) => after text (phrase behind)
      | none =>
        after (RawText.ofChars (c :: rest.takeWhile (!endsAtom ·)))
          (phrase (rest.dropWhile (!endsAtom ·)))
termination_by cs.length
decreasing_by
  · have := length_comment 1 rest
    simp only [List.length_cons]
    omega
  · have := length_quotedText none rest
    simp only [List.length_cons]
    omega
  · have := (List.dropWhile_sublist Text.isBlank (l := rest)).length_le
    simp only [List.length_cons]
    omega
  · simp
  · exact EncodedWord.length_read? (by assumption)
  · have := (List.dropWhile_sublist (!endsAtom ·) (l := rest)).length_le
    simp only [List.length_cons]
    omega

end Swimlane.Http.Field
