import Swimlane.Text.Blank
import Swimlane.Text.WordChar

/-!
# Placeholders

A placeholder is a variable name between braces, with white space around it or not.  A text is
a sequence of placeholders and other characters, read from left to right.
-/

namespace Swimlane.Placeholder

/-- The characters that a variable name starts with. -/
def isNameStart (c : Char) : Bool := c.isAlpha || c == '_'

/-- The characters inside of a variable name. -/
def isNameChar (c : Char) : Bool := Text.isWordChar c || c == '.' || c == '-'

/-- The name at the front of a text, and what follows it. -/
def name? : List Char → Option (List Char × List Char)
  | c :: cs =>
    if isNameStart c then some (c :: cs.takeWhile isNameChar, cs.dropWhile isNameChar) else none
  | [] => none

/-- The name of the placeholder whose text behind the opening brace is given, and what follows
    the closing brace. -/
def inner? (cs : List Char) : Option (List Char × List Char) := do
  let (name, rest) ← name? (Text.dropBlank cs)
  match Text.dropBlank rest with
  | '}' :: more => some (name, more)
  | _ => none

/-- A part of a text. -/
inductive Part where
  | char (c : Char)
  | variable (name : List Char)
  deriving DecidableEq, Repr

private theorem dropWhile_length (p : Char → Bool) (cs : List Char) :
    (cs.dropWhile p).length ≤ cs.length := (List.dropWhile_sublist p).length_le

theorem length_inner? {cs name rest : List Char} (h : inner? cs = some (name, rest)) :
    rest.length < cs.length := by
  simp only [inner?, Option.bind_eq_bind, Option.bind_eq_some_iff, Prod.exists] at h
  obtain ⟨n, r, hn, hr⟩ := h
  have hd := dropWhile_length Text.isBlank cs
  have hr' := dropWhile_length Text.isBlank r
  simp only [Text.dropBlank] at hn hr
  split at hr
  · rename_i more heq
    simp only [Option.some.injEq, Prod.mk.injEq] at hr
    obtain ⟨rfl, rfl⟩ := hr
    cases hcs : cs.dropWhile Text.isBlank with
    | nil => rw [hcs] at hn; exact nomatch hn
    | cons c tail =>
      rw [hcs] at hn hd
      simp only [name?] at hn
      split at hn
      · simp only [Option.some.injEq, Prod.mk.injEq] at hn
        obtain ⟨rfl, rfl⟩ := hn
        have ht := dropWhile_length isNameChar tail
        rw [heq] at hr'
        simp only [List.length_cons] at *
        omega
      · exact nomatch hn
  · exact nomatch hr

/-- The parts of a text: at every opening brace a placeholder is tried. -/
def parts : List Char → List Part
  | [] => []
  | c :: cs =>
    if c = '{' then
      match h : inner? cs with
      | some (name, rest) =>
        have := length_inner? h
        .variable name :: parts rest
      | none => .char c :: parts cs
    else .char c :: parts cs
termination_by cs => cs.length

/-- The name of a part that is a placeholder. -/
def Part.name? : Part → Option String
  | .variable name => some (String.ofList name)
  | .char _ => none

/-- Whether a part is a brace outside of every placeholder. -/
def Part.isStrayBrace : Part → Bool
  | .char c => c == '{' || c == '}'
  | .variable _ => false

/-- The text of a part, a placeholder as its bare name. -/
def Part.bare : Part → List Char
  | .char c => [c]
  | .variable name => name

/-- The variables that a text mentions, in the order of their first mention. -/
def names (s : String) : List String := ((parts s.toList).filterMap Part.name?).eraseDups

/-- Whether a text has a brace outside of every placeholder. -/
def hasStrayBrace (s : String) : Bool := (parts s.toList).any Part.isStrayBrace

/-- The text with every placeholder as its bare name. -/
def bare (cs : List Char) : List Char := (parts cs).flatMap Part.bare

/-- The variable that is the whole text, if the text is one placeholder. -/
def whole? (s : String) : Option String :=
  match s.toList with
  | '{' :: cs =>
    match inner? cs with
    | some (name, []) => some (String.ofList name)
    | _ => none
  | _ => none

/-- A text without braces at its ends. -/
def unbraced (s : String) : String :=
  String.ofList (Text.trimBy (fun c => c == '{' || c == '}') s.toList)

end Swimlane.Placeholder
