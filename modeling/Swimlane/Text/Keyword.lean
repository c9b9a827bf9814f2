import Swimlane.Text.WordChar
import Swimlane.Text.Blank

/-!
# Keywords

Keywords are matched in any letter case.  Ignoring case, the long `ſ` is an `s`, the Kelvin
sign is a `k`, and the dotted capital and the dotless small `i` are an `i`.
-/

namespace Swimlane.Text

/-- Whether `c` is the small ASCII letter `k` in some case; any other `k` matches itself. -/
def sameLetter (k c : Char) : Bool :=
  c == k || (k.isLower && c == k.toUpper) ||
    (k == 's' && c == 'ſ') || (k == 'k' && c == '\u212a') ||
    (k == 'i' && (c == 'İ' || c == 'ı'))

/-- What follows the keyword, if the text starts with it. -/
def keyword? : List Char → List Char → Option (List Char)
  | [], cs => some cs
  | _ :: _, [] => none
  | k :: ks, c :: cs => if sameLetter k c then keyword? ks cs else none

theorem length_keyword? {word cs rest : List Char} (h : keyword? word cs = some rest) :
    rest.length + word.length = cs.length := by
  induction word generalizing cs with
  | nil => cases h; rfl
  | cons w ws ih =>
    cases cs with
    | nil => exact nomatch h
    | cons c cs =>
      simp only [keyword?] at h
      split at h
      · have := ih h; simp only [List.length_cons]; omega
      · exact nomatch h

/-- What follows white space, at least one character of it. -/
def blanks? : List Char → Option (List Char)
  | c :: cs => if isBlank c then some (dropBlank cs) else none
  | [] => none

/-- Whether a text does not go on with a word character. -/
def endsWord : List Char → Bool
  | c :: _ => !isWordChar c
  | [] => true

/-- What follows the keyword, if the text starts with it as a whole word. -/
def wholeWord? (word : String) (cs : List Char) : Option (List Char) :=
  match keyword? word.toList cs with
  | some rest => if endsWord rest then some rest else none
  | none => none

theorem length_wholeWord? {word : String} {cs rest : List Char} (h : wholeWord? word cs = some rest) :
    rest.length + word.toList.length = cs.length := by
  unfold wholeWord? at h
  split at h
  · rename_i heq
    split at h
    · cases h; exact length_keyword? heq
    · cases h
  · cases h

/-- Whether the text starts with one of the keywords as a whole word. -/
def startsWithWord (keywords : List String) (cs : List Char) : Bool :=
  keywords.any fun k => (wholeWord? k cs).isSome

/-- Whether the start of a word of the text satisfies `p`, which sees the text from there on;
    `inWord` says that a word character stands before the text. -/
def anyWordStart (p : List Char → Bool) (inWord : Bool) : List Char → Bool
  | [] => false
  | c :: cs =>
    let isWord := isWordChar c
    (isWord && !inWord && p (c :: cs)) || anyWordStart p isWord cs

/-- Whether one of the keywords occurs in the text as a whole word. -/
def mentionsWord (keywords : List String) (cs : List Char) : Bool :=
  anyWordStart (startsWithWord keywords) false cs

end Swimlane.Text
