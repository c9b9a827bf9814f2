import Swimlane.Text.Keyword
import Swimlane.Text.LowerCase

/-!
# Sentences

The shapes that the text of a line can have.  Keywords may be in any case; the first shape that
fits is taken.
-/

namespace Swimlane.Story

/-- What the text of a line says. -/
inductive Sentence where
  /-- `Flow: name` -/
  | flow (name : String)
  /-- `Ask subject rest` -/
  | ask (subject rest : String)
  /-- `Do: action`, the colon optional -/
  | perform (action : String)
  /-- `Send message to recipient`, with `via channel` or not -/
  | send (message recipient : String) (channel : Option String)
  /-- `Stop: reason`, colon and reason optional -/
  | stop (reason : String)
  /-- `If condition:`, the colon optional -/
  | condition (text : String)
  /-- `Otherwise`, or `Otherwise if condition` -/
  | otherwise (condition : Option String)
  deriving DecidableEq, Repr

namespace Sentence

open Text (keyword? blanks? dropBlank trim isBlank)

/-- A text without surrounding white space. -/
def trimmed (cs : List Char) : String := String.ofList (trim cs)

/-- The text itself if it is not empty. -/
def nonempty? (cs : List Char) : Option (List Char) := if cs.isEmpty then none else some cs

/-- The text behind white space, if there is some of both. -/
def behindBlanks? (cs : List Char) : Option (List Char) := blanks? cs >>= nonempty?

/-! ## Flow, ask, do and stop -/

/-- Reads `Flow: name`. -/
def flow? (cs : List Char) : Option Sentence := do
  match dropBlank (← keyword? "flow".toList cs) with
  | ':' :: name => some (.flow (trimmed name))
  | _ => none

/-- Characters of a bare subject. -/
def isSubjectChar (c : Char) : Bool := !isBlank c && c != '{' && c != '}'

/-- The subject at the front of a text: a word, or a word between braces. -/
def subject? : List Char → Option (List Char × List Char)
  | '{' :: cs =>
    match cs.takeWhile isSubjectChar, cs.dropWhile isSubjectChar with
    | [], _ => none
    | name, '}' :: rest => some ('{' :: name ++ ['}'], rest)
    | _, _ => none
  | cs =>
    match cs.takeWhile isSubjectChar with
    | [] => none
    | name => some (name, cs.dropWhile isSubjectChar)

/-- Reads `Ask subject rest`. -/
def ask? (cs : List Char) : Option Sentence := do
  let (subject, cs) ← subject? (← blanks? (← keyword? "ask".toList cs))
  let rest ← behindBlanks? cs
  return .ask (String.ofList subject) (trimmed rest)

/-- The text behind a colon, with white space around the colon or not. -/
def behindColon? (cs : List Char) : Option (List Char) :=
  match dropBlank cs with
  | ':' :: rest => nonempty? (dropBlank rest)
  | _ => none

/-- Reads `Do: action` or `Do action`. -/
def perform? (cs : List Char) : Option Sentence := do
  let cs ← keyword? "do".toList cs
  let action ← behindColon? cs <|> behindBlanks? cs
  return .perform (trimmed action)

/-- Reads `Stop: reason`. -/
def stop? (cs : List Char) : Option Sentence := do
  let cs ← keyword? "stop".toList cs
  if !Text.endsWord cs then none
  else match dropBlank cs with
    | ':' :: reason => some (.stop (trimmed reason))
    | reason => some (.stop (trimmed reason))

/-! ## Send -/

/-- What follows a word that stands between white space and has a text behind it. -/
def behindWord? (word : String) (cs : List Char) : Option (List Char) := do
  behindBlanks? (← keyword? word.toList (← blanks? cs))

/-- The longest text, at least one character, that the word `to` and a recipient follow. -/
def splitLastTo? : List Char → Option (List Char × List Char)
  | [] => none
  | c :: cs =>
    match splitLastTo? cs with
    | some (message, rest) => some (c :: message, rest)
    | none => (behindWord? "to" cs).map fun rest => ([c], rest)

/-- Splits the body of a send at its last `to`.  Only if that fails, white space in front, the
    nearest first, counts as part of the message; one blank of it always remains. -/
def splitMessage? : (gap body : List Char) → Option (List Char × List Char)
  | [], _ => none
  | [_], body => splitLastTo? body
  | g :: g' :: gap, body =>
    match splitLastTo? body with
    | some split => some split
    | none => splitMessage? (g' :: gap) (g :: body)

/-- The shortest recipient, at least one character, up to the word `via` and a channel, or the
    whole text. -/
def splitVia : List Char → List Char × Option (List Char)
  | [] => ([], none)
  | c :: cs =>
    match behindWord? "via" cs with
    | some channel => ([c], some channel)
    | none =>
      let r := splitVia cs
      (c :: r.1, r.2)

/-- Reads `Send message to recipient via channel`. -/
def send? (cs : List Char) : Option Sentence := do
  let cs ← keyword? "send".toList cs
  let (message, rest) ← splitMessage? (cs.takeWhile isBlank).reverse (cs.dropWhile isBlank)
  let (recipient, channel) := splitVia rest
  return .send (trimmed message) (trimmed recipient) (channel.map trimmed)

/-! ## Conditions -/

/-- Whether a text is nothing but white space and a colon at its end, or less. -/
def isConditionEnd (cs : List Char) : Bool :=
  match dropBlank cs with
  | [] => true
  | [':'] => true
  | _ => false

/-- The shortest text, at least one character, that the end of a condition follows. -/
def takeCondition : List Char → List Char
  | [] => []
  | c :: cs => if isConditionEnd cs then [c] else c :: takeCondition cs

/-- Reads `If condition:`. -/
def condition? (cs : List Char) : Option Sentence := do
  let text ← behindBlanks? (← keyword? "if".toList cs)
  return .condition (trimmed (takeCondition text))

/-- Reads `Otherwise:` or `Otherwise if condition:`, with `Else` for `Otherwise` or not. -/
def otherwise? (cs : List Char) : Option Sentence := do
  let cs ← keyword? "otherwise".toList cs <|> keyword? "else".toList cs
  match behindWord? "if" cs with
  | some text => some (.otherwise (some (trimmed (takeCondition text))))
  | none => if isConditionEnd cs then some (.otherwise none) else none

/-- The sentence that a text says, if it has one of the shapes. -/
def ofText? (text : String) : Option Sentence :=
  let cs := text.toList
  flow? cs <|> ask? cs <|> perform? cs <|> send? cs <|> stop? cs <|> condition? cs <|> otherwise? cs

end Sentence

/-! ## Channels -/

/-- The channels that a message can name. -/
def channelHints : List String := ["email", "sms", "slack", "notification"]

/-- The channel for a message: the first one that its text mentions, else a plain message. -/
def inferChannel (message : String) : String :=
  let text := Text.lower message.toList
  (channelHints.find? fun hint => Text.occursIn hint.toList text).getD "message"

end Swimlane.Story
