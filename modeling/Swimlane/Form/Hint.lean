import Swimlane.Text.Identifier
import Swimlane.Text.Keyword

/-!
# Hints for field types

What kind of value a variable holds is guessed from the words of its name and from the words
around its placeholder.
-/

namespace Swimlane

/-- The kinds of values that a field can take. -/
inductive FieldType where
  | text
  | email
  | number
  | date
  | boolean
  | choice
  deriving DecidableEq, Repr

/-- The name of a field type in forms. -/
def FieldType.name : FieldType → String
  | text => "text"
  | email => "email"
  | number => "number"
  | date => "date"
  | boolean => "boolean"
  | choice => "choice"

namespace Hint

/-! ## Names -/

/-- The words of a variable name in lower case. -/
def tokens (name : String) : List String :=
  (Text.nameWords name.toList).map fun w => String.ofList (Text.lower w)

/-- The types that the words of a name tell, first come first served: words that are in the name,
    and endings of words. -/
def nameHints : List (FieldType × List String × List String) :=
  [ (.email, ["email", "mail"], ["email"]),
    (.date, ["date", "time", "datetime", "timestamp", "birthday", "dob", "deadline", "expiry",
      "expiration"], ["timestamp"]),
    (.number, ["amount", "quantity", "count", "qty", "number", "num", "no", "nr", "amt", "total",
      "price", "cost", "age", "salary", "budget", "days", "hours", "percent", "pct", "score"],
      ["amount", "qty", "price"]) ]

/-- The type that a name tells. -/
def ofName? (tokens : List String) : Option FieldType :=
  (nameHints.find? fun (_, wholes, endings) => tokens.any fun t =>
    wholes.contains t || endings.any fun e => e.toList.isSuffixOf t.toList).map (·.1)

/-- First words that make a name of several words a question. -/
def questionWords : List String := ["is", "has", "can", "should"]

/-- Words that make a name a decision. -/
def decisionWords : List String :=
  ["agree", "agreed", "consent", "accept", "accepted", "confirmed", "approved"]

/-- Whether a name looks like one of a yes or no. -/
def isDecision (tokens : List String) : Bool :=
  (match tokens with
    | first :: _ :: _ => questionWords.contains first
    | _ => false) || tokens.any decisionWords.contains

/-- The usual options of some names. -/
def knownOptions : List (String × List String) :=
  [ ("status", ["pending", "approved", "rejected"]),
    ("priority", ["low", "medium", "high", "critical"]),
    ("level", ["low", "medium", "high"]),
    ("department", ["engineering", "sales", "marketing", "hr", "finance"]),
    ("category", ["general", "billing", "technical", "other"]),
    ("type", ["standard", "urgent", "other"]) ]

/-- The usual options of a name. -/
def optionsOfName? (tokens : List String) : Option (List String) :=
  tokens.findSome? (knownOptions.lookup ·)

/-- Words of names whose texts may be long. -/
def longTextWords : List String :=
  ["description", "notes", "comments", "details", "reason", "justification", "feedback", "message"]

/-! ## Contexts -/

/-- The types that the words around a placeholder tell, first come first served. -/
def contextHints : List (FieldType × List String) :=
  [ (.email, ["email", "e-mail"]),
    (.date, ["date", "time", "timestamp", "when", "deadline", "birthday"]),
    (.number, ["amount", "quantity", "how many", "how much", "count", "total", "price", "cost"]) ]

/-- The type that a context tells. -/
def ofContext? (context : List Char) : Option FieldType :=
  (contextHints.find? fun (_, keywords) => Text.mentionsWord keywords context).map (·.1)

/-- Phrases that make a field optional. -/
def optionalPhrases : List String :=
  ["optional", "optionally", "if available", "if any", "if applicable", "if known", "not required"]

/-- Whether a context makes its field optional. -/
def isOptional (context : List Char) : Bool := Text.mentionsWord optionalPhrases context

/-! ## Enumerations -/

/-- Whether a text is a value of an enumeration: an ASCII letter, then word characters and
    dashes. -/
def isEnumValue : List Char → Bool
  | [] => false
  | c :: cs => c.isAlpha && cs.all fun d => Text.isWordChar d || d == '-'

/-- The values of the enumeration whose text behind the opening parenthesis is given. -/
def enumValues? (cs : List Char) : Option (List (List Char)) :=
  match cs.span fun c => c != '(' && c != ')' with
  | (inner, ')' :: _) =>
    let values := (inner.splitOnP (· == '/')).map Text.trim
    if 1 < values.length && values.all isEnumValue then some values else none
  | _ => none

/-- The values of the first enumeration in a text: two values or more between parentheses,
    divided by slashes. -/
def enumeration? : List Char → Option (List (List Char))
  | [] => none
  | c :: cs => (if c = '(' then enumValues? cs else none) <|> enumeration? cs

/-- The pairs of values that stand for yes and no. -/
def answerPairs : List (String × String) :=
  [("yes", "no"), ("true", "false"), ("y", "n"), ("on", "off")]

/-- Whether the values of an enumeration are just a yes and a no. -/
def isAnswerPair (values : List (List Char)) : Bool :=
  let lowered := values.map fun v => String.ofList (Text.lower v)
  answerPairs.any fun (yes, no) =>
    lowered.contains yes && lowered.contains no && lowered.all fun v => v == yes || v == no

end Hint

end Swimlane
