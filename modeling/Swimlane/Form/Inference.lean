import Swimlane.Form.Basic
import Swimlane.Form.Hint
import Swimlane.Placeholder

/-!
# Inference of forms

Every variable that a prompt mentions becomes a field of a form.  Its type is the first of: what
its name tells, an enumeration in its clause, what the words of its clause tell, a decision, a
name with usual options; else it is a text.
-/

namespace Swimlane

namespace Field

/-- The pattern of email addresses. -/
def emailPattern : String := "^[^@\\s]+@[^@\\s]+\\.[^@\\s]+$"

/-- The pattern of dates. -/
def datePattern : String :=
  "^\\d\x7b4\x7d-\\d\x7b2\x7d-\\d\x7b2\x7d([T ]\\d\x7b2\x7d:\\d\x7b2\x7d(:\\d\x7b2\x7d)?)?$"

/-- The options with the given values. -/
def optionsOf (values : List (List Char)) : List Choice :=
  values.map fun v =>
    { value := .str (String.ofList (Text.lower v)), label := .str (Text.label (String.ofList v)) }

/-- The type of a field, and the options to choose from. -/
def inferType (name : String) (context : List Char) : FieldType × List Choice :=
  let tokens := Hint.tokens name
  match Hint.ofName? tokens with
  | some type => (type, [])
  | none =>
    match Hint.enumeration? context with
    | some values => if Hint.isAnswerPair values then (.boolean, []) else (.choice, optionsOf values)
    | none =>
      match Hint.ofContext? context with
      | some type => (type, [])
      | none =>
        if Hint.isDecision tokens then (.boolean, [])
        else match Hint.optionsOfName? tokens with
          | some values => (.choice, optionsOf (values.map String.toList))
          | none => (.text, [])

/-- A rule with a type only. -/
def bareRule (type : String) : Rule :=
  { type := .str type, pattern := .null, min := .null, max := .null, value := .null,
    message := .str "" }

/-- The rule that a field must be filled in. -/
def requiredRule (label : String) : Rule :=
  { bareRule "required" with message := .str (label ++ " is required") }

/-- The rule that a text must match a pattern. -/
def patternRule (pattern message : String) : Rule :=
  { bareRule "pattern" with pattern := .str pattern, message := .str message }

/-- The rule for the values of a type, in a field whose name has the given words. -/
def typeRules (tokens : List String) : FieldType → List Rule
  | .email => [patternRule emailPattern "Must be a valid email address"]
  | .number =>
    if tokens.contains "age" then
      [{ bareRule "range" with min := .int 0, max := .int 120, message := .str "Must be a valid age" }]
    else [{ bareRule "range" with min := .int 0, message := .str "Must be a positive number" }]
  | .date => [patternRule datePattern "Use an ISO 8601 date (YYYY-MM-DD)"]
  | .text =>
    [{ bareRule "maxLength" with
        value := .int (if tokens.any Hint.longTextWords.contains then 5000 else 255) }]
  | .boolean => []
  | .choice => []

/-- The text with every group in braces as a blank.  `inGroup` says that a group has begun; a
    brace that is never closed begins none. -/
def eraseBraced (inGroup : Bool) : List Char → List Char
  | [] => []
  | c :: cs =>
    if inGroup then (if c = '}' then eraseBraced false cs else eraseBraced true cs)
    else if c = '{' && cs.contains '}' then ' ' :: eraseBraced true cs
    else c :: eraseBraced false cs

/-- The field of a variable that a clause mentions. -/
def infer (name clause : String) : Field :=
  let context := eraseBraced false clause.toList
  let (type, options) := inferType name context
  let label := match Text.label name with
    | "" => name
    | label => label
  { name := .str name
    label := .str label
    type := .str type.name
    rules := (if Hint.isOptional context then [] else [requiredRule label]) ++
      typeRules (Hint.tokens name) type
    options := options }

end Field

namespace Form

/-! ## Clauses -/

/-- What follows the word `and` or `or` at the front of a text.  Inside of a word there is no
    such word. -/
def behindConjunction? (inWord : Bool) (cs : List Char) : Option (List Char) :=
  if inWord then none
  else match Text.wholeWord? "and" cs with
    | some rest => some rest
    | none => Text.wholeWord? "or" cs

theorem length_behindConjunction? {inWord : Bool} {cs rest : List Char}
    (h : behindConjunction? inWord cs = some rest) : rest.length < cs.length := by
  unfold behindConjunction? at h
  split at h
  · exact nomatch h
  · split at h
    · rename_i heq
      cases h
      have := Text.length_wholeWord? heq
      simp at this; omega
    · have := Text.length_wholeWord? h
      simp at this; omega

/-- The clauses of a prompt, which commas, semicolons and the words `and` and `or` divide.
    `inWord` says that a word character stands in front. -/
def clausesFrom (inWord : Bool) (cs : List Char) : List (List Char) :=
  match cs with
  | [] => [[]]
  | c :: rest =>
    if c = ',' || c = ';' then [] :: clausesFrom false rest
    else match h : behindConjunction? inWord (c :: rest) with
      | some behind =>
        have := length_behindConjunction? h
        [] :: clausesFrom true behind
      | none =>
        match clausesFrom (Text.isWordChar c) rest with
        | [] => [[c]]
        | clause :: more => (c :: clause) :: more
termination_by cs.length
decreasing_by all_goals simp only [List.length_cons] at *; omega

/-- The clauses of a prompt. -/
def clauses (prompt : String) : List String :=
  (clausesFrom false prompt.toList).map String.ofList

/-- The clauses of a prompt, each with the variables that it mentions. -/
def mentions (prompt : String) : List (String × List String) :=
  (clauses prompt).map fun clause => (clause, Placeholder.names clause)

/-- The first clause that mentions a variable; none is empty. -/
def clauseOf (clauses : List (String × List String)) (name : String) : String :=
  ((clauses.find? fun (_, names) => names.contains name).map (·.1)).getD ""

/-! ## Titles -/

/-- Words that a title leaves out. -/
def titleStopWords : List String :=
  ["for", "and", "or", "to", "the", "a", "an", "their", "his", "her", "optionally", "optional",
    "if", "available", "provide"]

/-- The text with every group in braces or parentheses and every punctuation mark but the dash as
    a blank.  `closing` is the mark that ends the group that has begun. -/
def titleText (closing : Option Char) : List Char → List Char
  | [] => []
  | c :: cs =>
    match closing with
    | some mark => if c = mark then titleText none cs else titleText closing cs
    | none =>
      if c = '{' && cs.contains '}' then ' ' :: titleText (some '}') cs
      else if c = '(' && cs.contains ')' then ' ' :: titleText (some ')') cs
      else if Text.isWordChar c || Text.isBlank c || c == '-' then c :: titleText none cs
      else ' ' :: titleText none cs

/-- The word with a capital first letter. -/
def titleWord : List Char → String
  | [] => ""
  | c :: cs => String.ofList (Text.upperChar c ++ cs)

/-- The title of the form for a prompt. -/
def titleOf (prompt : String) : String :=
  let kept := (Text.blankWords (titleText none prompt.toList)).filter fun w =>
    !titleStopWords.contains (String.ofList (Text.lower w))
  match " ".intercalate (kept.map titleWord) with
  | "" => "User Input"
  | title => title

/-! ## Forms -/

/-- The form for the prompt of a state, with a field for every variable that it mentions, the
    excluded ones apart; none if there is no such variable. -/
def infer? (stateId prompt : String) (exclude : List String) : Option Form :=
  match (Placeholder.names prompt).filter (!exclude.contains ·) with
  | [] => none
  | names =>
    let clauses := mentions prompt
    some {
      id := .str ("form_" ++ stateId)
      title := .str (titleOf prompt)
      fields := names.map fun name => Field.infer name (clauseOf clauses name) }

end Form

end Swimlane
