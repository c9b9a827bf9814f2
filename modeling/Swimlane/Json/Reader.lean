import Swimlane.Json.Basic
import Swimlane.Number.Numeral
import Swimlane.Text.Hexadecimal
import Swimlane.Text.Surrogate

/-!
# Reading JSON text

The reader accepts the JSON grammar and the names `NaN`, `Infinity` and `-Infinity`.  Of members
with one name the last one counts.  A text that is refused is refused at a place: the number of
characters that are left there says which.
-/

namespace Swimlane.Json

/-- Why a text is refused. -/
inductive ReadFault where
  | expectingValue
  | expectingName
  | expectingColon
  | expectingComma
  | extraData
  | unterminatedString
  | controlCharacter
  | unknownEscape
  | brokenUnitEscape
  | byteOrderMark
  | longInteger
  deriving DecidableEq, Repr

/-- Why a text is refused, and how many characters are left where the fault stands. -/
structure Refusal where
  fault : ReadFault
  left : Nat
  deriving DecidableEq, Repr

/-- A value read from the front of `cs`, and the shorter text behind it. -/
structure Taken (α : Type) (cs : List Char) where
  value : α
  rest : List Char
  shorter : rest.length < cs.length

/-! ## Blanks and literals -/

/-- The four characters that may stand between the parts of a JSON text. -/
def isGap (c : Char) : Bool := c == ' ' || c == '\t' || c == '\n' || c == '\r'

/-- The text behind the blanks at its front. -/
def skipGap (cs : List Char) : List Char := cs.dropWhile isGap

theorem length_dropWhile_le (p : Char → Bool) (cs : List Char) :
    (cs.dropWhile p).length ≤ cs.length := (List.dropWhile_sublist p).length_le

theorem length_skipGap_le (cs : List Char) : (skipGap cs).length ≤ cs.length :=
  length_dropWhile_le isGap cs

/-- What follows a given start of a text. -/
def after? : List Char → List Char → Option (List Char)
  | [], cs => some cs
  | _ :: _, [] => none
  | w :: ws, c :: cs => if w = c then after? ws cs else none

theorem length_after? {word cs rest : List Char} (h : after? word cs = some rest) :
    rest.length + word.length = cs.length := by
  induction word generalizing cs with
  | nil => cases h; rfl
  | cons w ws ih =>
    cases cs with
    | nil => exact nomatch h
    | cons c cs =>
      simp only [after?] at h
      split at h
      · have := ih h; simp only [List.length_cons]; omega
      · exact nomatch h

/-! ## Strings -/

/-- The code unit that four hexadecimal digits denote. -/
def unit? (a b c d : Char) : Option Nat := do
  return (← Text.hexByte? a b) * 256 + (← Text.hexByte? c d)

/-- The character that a one-letter escape denotes. -/
def escaped? (c : Char) : Option Char :=
  if c = '"' || c = '\\' || c = '/' then some c
  else if c = 'b' then some '\x08'
  else if c = 'f' then some '\x0c'
  else if c = 'n' then some '\n'
  else if c = 'r' then some '\r'
  else if c = 't' then some '\t'
  else none

/-- The character of the escape whose four digits and what follows them are given.  A first half
    takes the second half that follows it. -/
def takeUnit : (cs : List Char) → Except Refusal (Taken Char cs)
  | a :: b :: c :: d :: e :: rest =>
    match unit? a b c d with
    | none => .error ⟨.brokenUnitEscape, rest.length + 6⟩
    | some high =>
      match e, rest with
      | '\\', 'u' :: a :: b :: c :: d :: more =>
        if Text.Surrogate.isHigh high && !more.isEmpty then
          match unit? a b c d with
          | none => .error ⟨.brokenUnitEscape, more.length + 5⟩
          | some low =>
            if Text.Surrogate.isLow low then
              .ok ⟨Text.Surrogate.ofPair high low, more, by simp only [List.length_cons]; omega⟩
            else
              .ok ⟨Text.Surrogate.ofUnit high, '\\' :: 'u' :: a :: b :: c :: d :: more,
                by simp only [List.length_cons]; omega⟩
        else
          .ok ⟨Text.Surrogate.ofUnit high, '\\' :: 'u' :: a :: b :: c :: d :: more,
            by simp only [List.length_cons]; omega⟩
      | e, rest => .ok ⟨Text.Surrogate.ofUnit high, e :: rest, by simp only [List.length_cons]; omega⟩
  | cs => .error ⟨.brokenUnitEscape, cs.length + 1⟩

/-- The next character of a string, or none at its closing quote.  `opening` is the number of
    characters left at the opening quote. -/
def takeChar (opening : Nat) : (cs : List Char) → Except Refusal (Taken (Option Char) cs)
  | [] => .error ⟨.unterminatedString, opening⟩
  | '"' :: rest => .ok ⟨none, rest, by simp⟩
  | ['\\'] => .error ⟨.unterminatedString, opening⟩
  | '\\' :: 'u' :: rest =>
    match takeUnit rest with
    | .error refusal => .error refusal
    | .ok ⟨c, more, h⟩ => .ok ⟨some c, more, by simp only [List.length_cons]; omega⟩
  | '\\' :: c :: rest =>
    match escaped? c with
    | none => .error ⟨.unknownEscape, rest.length + 2⟩
    | some e => .ok ⟨some e, rest, by simp only [List.length_cons]; omega⟩
  | c :: rest =>
    if c.toNat < 0x20 then .error ⟨.controlCharacter, rest.length + 1⟩
    else .ok ⟨some c, rest, by simp⟩

/-- The characters of a string up to its closing quote. -/
def takeChars (opening : Nat) (cs : List Char) : Except Refusal (Taken (List Char) cs) :=
  match takeChar opening cs with
  | .error refusal => .error refusal
  | .ok ⟨none, rest, h⟩ => .ok ⟨[], rest, h⟩
  | .ok ⟨some c, rest, h⟩ =>
    match takeChars opening rest with
    | .error refusal => .error refusal
    | .ok ⟨more, last, h'⟩ => .ok ⟨c :: more, last, by omega⟩
termination_by cs.length

/-! ## Numbers -/

/-- The digits at the front of a text, and what follows them. -/
def spanDigits (cs : List Char) : List Char × List Char :=
  (cs.takeWhile Char.isDigit, cs.dropWhile Char.isDigit)

/-- The digits before the point: a single zero, or digits that start with no zero. -/
def takeWhole : (cs : List Char) → Option (Taken (List Char) cs)
  | '0' :: rest => some ⟨['0'], rest, by simp⟩
  | c :: rest =>
    if c.isDigit then
      some ⟨c :: rest.takeWhile Char.isDigit, rest.dropWhile Char.isDigit, by
        have := length_dropWhile_le Char.isDigit rest
        simp only [List.length_cons]; omega⟩
    else none
  | [] => none

/-- The digits behind a point, none if no digit follows one, and the text behind them. -/
def spanFraction : List Char → List Char × List Char
  | '.' :: rest =>
    let (digits, more) := spanDigits rest
    if digits.isEmpty then ([], '.' :: rest) else (digits, more)
  | cs => ([], cs)

/-- The exponent behind its mark, if a digit follows it, and the text behind it. -/
def spanExponent : List Char → Option Int × List Char
  | c :: rest =>
    let (negative, digits) := Numeral.sign rest
    let (ds, more) := spanDigits digits
    if (c = 'e' || c = 'E') && !ds.isEmpty then
      (some (Numeral.signed negative (Numeral.ofDigits (ds.map fun d => d.toNat - 48))), more)
    else (none, c :: rest)
  | [] => (none, [])

theorem length_spanFraction_le (cs : List Char) : (spanFraction cs).2.length ≤ cs.length := by
  unfold spanFraction
  split
  · rename_i rest
    have := length_dropWhile_le Char.isDigit rest
    by_cases h : (rest.takeWhile Char.isDigit).isEmpty
    · simp [spanDigits, h]
    · simp only [spanDigits, h, Bool.false_eq_true, ↓reduceIte, List.length_cons]; omega
  · exact Nat.le_refl _

theorem length_sign_le (cs : List Char) : (Numeral.sign cs).2.length ≤ cs.length := by
  unfold Numeral.sign
  split <;> simp

theorem length_spanExponent_le (cs : List Char) : (spanExponent cs).2.length ≤ cs.length := by
  unfold spanExponent
  split
  · rename_i c rest
    have h₁ := length_sign_le rest
    have h₂ := length_dropWhile_le Char.isDigit (Numeral.sign rest).2
    by_cases h : ((decide (c = 'e') || decide (c = 'E')) &&
        !((Numeral.sign rest).2.takeWhile Char.isDigit).isEmpty) = true
    · simp only [spanDigits, h, ↓reduceIte, List.length_cons]; omega
    · simp [spanDigits, h]
  · exact Nat.le_refl _

/-- The number that the parts of a numeral denote: without fraction and exponent an integer. -/
def numberOf (negative : Bool) (whole fraction : List Char) (exponent : Option Int) :
    Except ReadFault Json :=
  let digits := Numeral.ofDigits ((whole ++ fraction).map fun d => d.toNat - 48)
  match fraction, exponent with
  | [], none =>
    if whole.length ≤ Numeral.maxDigits then .ok (int (Numeral.signed negative digits))
    else .error .longInteger
  | _, _ => .ok (float (.ofDecimal negative digits (exponent.getD 0 - fraction.length)))

/-- The number at the front of a text, behind its sign. -/
def takeMagnitude (negative : Bool) (cs : List Char) : Except Refusal (Taken Json cs) :=
  match takeWhole cs with
  | none => .error ⟨.expectingValue, cs.length⟩
  | some ⟨whole, rest, h⟩ =>
    match numberOf negative whole (spanFraction rest).1 (spanExponent (spanFraction rest).2).1 with
    | .error fault => .error ⟨fault, cs.length⟩
    | .ok v => .ok ⟨v, (spanExponent (spanFraction rest).2).2, by
        have := length_spanFraction_le rest
        have := length_spanExponent_le (spanFraction rest).2
        omega⟩

/-- The number at the front of a text. -/
def takeNumber : (cs : List Char) → Except Refusal (Taken Json cs)
  | '-' :: rest =>
    match takeMagnitude true rest with
    | .error ⟨fault, left⟩ => .error ⟨fault, left + 1⟩
    | .ok ⟨v, more, h⟩ => .ok ⟨v, more, by simp only [List.length_cons]; omega⟩
  | cs => takeMagnitude false cs

/-! ## Values -/

/-- The names that are values. -/
def literals : List (String × Json) :=
  [("null", null), ("true", bool true), ("false", bool false), ("NaN", float .nan),
    ("Infinity", float (.infinite false)), ("-Infinity", float (.infinite true))]

/-- The value that the text starts with by name. -/
def takeLiteral (cs : List Char) : List (String × Json) → Option (Taken Json cs)
  | [] => none
  | (name, v) :: more =>
    match h : after? name.toList cs with
    | none => takeLiteral cs more
    | some rest =>
      if hn : 0 < name.toList.length then
        some ⟨v, rest, by have := length_after? h; omega⟩
      else takeLiteral cs more

/-- A value that is neither a string nor a list nor an object. -/
def takeScalar (cs : List Char) : Except Refusal (Taken Json cs) :=
  match takeLiteral cs literals with
  | some taken => .ok taken
  | none => takeNumber cs

/-- A value found behind the first character. -/
def Taken.behind {α β : Type} {c : Char} {cs : List Char} (f : α → β) (taken : Taken α cs) :
    Taken β (c :: cs) :=
  ⟨f taken.value, taken.rest, Nat.lt_succ_of_lt taken.shorter⟩

mutual

/-- The value at the front of a text. -/
def takeValue (cs : List Char) : Except Refusal (Taken Json cs) :=
  match cs with
  | '"' :: rest =>
    match takeChars (rest.length + 1) rest with
    | .error refusal => .error refusal
    | .ok taken => .ok (taken.behind fun chars => str (String.ofList chars))
  | '[' :: rest =>
    have h₀ := length_skipGap_le rest
    match hs : skipGap rest with
    | ']' :: more => .ok ⟨arr [], more, by rw [hs] at h₀; simp only [List.length_cons] at *; omega⟩
    | start =>
      match takeItems start with
      | .error refusal => .error refusal
      | .ok ⟨items, last, h⟩ =>
        .ok ⟨arr items, last, by rw [hs] at h₀; simp only [List.length_cons]; omega⟩
  | '{' :: rest =>
    have h₀ := length_skipGap_le rest
    match hs : skipGap rest with
    | '}' :: more => .ok ⟨obj [], more, by rw [hs] at h₀; simp only [List.length_cons] at *; omega⟩
    | start =>
      match takeMembers start with
      | .error refusal => .error refusal
      | .ok ⟨members, last, h⟩ =>
        .ok ⟨obj (Assoc.ofPairs members), last, by
          rw [hs] at h₀; simp only [List.length_cons]; omega⟩
  | cs => takeScalar cs
termination_by (cs.length, 0)
decreasing_by
  all_goals (rw [hs] at h₀; simp only [List.length_cons]; apply Prod.Lex.left; omega)

/-- The items of a list from one of them on, up to the closing bracket. -/
def takeItems (cs : List Char) : Except Refusal (Taken (List Json) cs) :=
  match takeValue cs with
  | .error refusal => .error refusal
  | .ok ⟨v, rest, h⟩ =>
    have h₀ := length_skipGap_le rest
    match hs : skipGap rest with
    | ']' :: more => .ok ⟨[v], more, by rw [hs] at h₀; simp only [List.length_cons] at h₀; omega⟩
    | ',' :: more =>
      have h₁ := length_skipGap_le more
      match takeItems (skipGap more) with
      | .error refusal => .error refusal
      | .ok ⟨vs, last, h'⟩ =>
        .ok ⟨v :: vs, last, by rw [hs] at h₀; simp only [List.length_cons] at h₀; omega⟩
    | other => .error ⟨.expectingComma, other.length⟩
termination_by (cs.length, 1)
decreasing_by
  · apply Prod.Lex.right; omega
  · apply Prod.Lex.left; rw [hs] at h₀; simp only [List.length_cons] at h₀; omega

/-- The members of an object from one of them on, up to the closing brace. -/
def takeMembers (cs : List Char) : Except Refusal (Taken (List (String × Json)) cs) :=
  match cs with
  | '"' :: start =>
    match takeChars (start.length + 1) start with
    | .error refusal => .error refusal
    | .ok ⟨name, rest, h⟩ =>
      have h₀ := length_skipGap_le rest
      match hs : skipGap rest with
      | ':' :: behind =>
        have h₁ := length_skipGap_le behind
        match takeValue (skipGap behind) with
        | .error refusal => .error refusal
        | .ok ⟨v, rest', h'⟩ =>
          have h₂ := length_skipGap_le rest'
          match hs' : skipGap rest' with
          | '}' :: more =>
            .ok ⟨[(String.ofList name, v)], more, by
              rw [hs] at h₀; rw [hs'] at h₂; simp only [List.length_cons] at *; omega⟩
          | ',' :: more =>
            have h₃ := length_skipGap_le more
            match takeMembers (skipGap more) with
            | .error refusal => .error refusal
            | .ok ⟨members, last, h''⟩ =>
              .ok ⟨(String.ofList name, v) :: members, last, by
                rw [hs] at h₀; rw [hs'] at h₂; simp only [List.length_cons] at *; omega⟩
          | other => .error ⟨.expectingComma, other.length⟩
      | other => .error ⟨.expectingColon, other.length⟩
  | cs => .error ⟨.expectingName, cs.length⟩
termination_by (cs.length, 1)
decreasing_by
  · apply Prod.Lex.left; rw [hs] at h₀; simp only [List.length_cons] at *; omega
  · apply Prod.Lex.left; rw [hs] at h₀; rw [hs'] at h₂; simp only [List.length_cons] at *; omega

end

/-! ## Whole texts -/

/-- The value of a whole text. -/
def readAll (cs : List Char) : Except Refusal Json :=
  match cs with
  | '\ufeff' :: _ => .error ⟨.byteOrderMark, cs.length⟩
  | _ =>
    match takeValue (skipGap cs) with
    | .error refusal => .error refusal
    | .ok ⟨v, rest, _⟩ =>
      match skipGap rest with
      | [] => .ok v
      | more => .error ⟨.extraData, more.length⟩

/-- Why a text is refused, and at which character, counted from zero. -/
structure ReadError where
  fault : ReadFault
  offset : Nat
  /-- The line of that character, counted from one. -/
  line : Nat
  /-- Its place in the line, counted from one. -/
  column : Nat
  deriving DecidableEq, Repr

/-- The place of a refusal in the text. -/
def Refusal.locate (cs : List Char) (r : Refusal) : ReadError :=
  let offset := cs.length - r.left
  let before := cs.take offset
  { fault := r.fault
    offset := offset
    line := before.count '\n' + 1
    column := (before.reverse.takeWhile (· != '\n')).length + 1 }

/-- The value of a JSON text. -/
def read (s : String) : Except ReadError Json :=
  (readAll s.toList).mapError (·.locate s.toList)

/-- What a message says of a fault. -/
def ReadFault.text : ReadFault → String
  | expectingValue => "Expecting value"
  | expectingName => "Expecting property name enclosed in double quotes"
  | expectingColon => "Expecting ':' delimiter"
  | expectingComma => "Expecting ',' delimiter"
  | extraData => "Extra data"
  | unterminatedString => "Unterminated string starting at"
  | controlCharacter => "Invalid control character at"
  | unknownEscape => "Invalid \\escape"
  | brokenUnitEscape => "Invalid \\uXXXX escape"
  | byteOrderMark => "Unexpected UTF-8 BOM (decode using utf-8-sig)"
  | longInteger => "Integer with too many digits"

/-- The message of a refused text. -/
def ReadError.message (e : ReadError) : String :=
  s!"{e.fault.text}: line {e.line} column {e.column} (char {e.offset})"

end Swimlane.Json
