import Swimlane.Http.Continuation
import Swimlane.Http.Parameter

/-!
# Media types

The type of a body as a header field names it: two tokens with a slash between them, and
parameters behind a semicolon.  A field that is written in another way is read as a phrase, in
which encoded words stand for their texts.
-/

namespace Swimlane.Http.MediaType

/-- The text of a field up to its parameters, and what follows it. -/
def head (cs : List Char) : RawText × List Char :=
  match Field.token? cs with
  | some (type, '/' :: rest) =>
    match Field.token? rest with
    | some (subtype, rest) =>
      Field.after (RawText.ofChars (type ++ '/' :: subtype)) (Field.phrase rest)
    | none => Field.after (RawText.ofChars (type ++ ['/'])) (Field.phrase rest)
  | some (type, rest) => Field.after (RawText.ofChars type) (Field.phrase rest)
  | none => Field.phrase cs

/-- A field as it is written with its parameters, if they can be read. -/
def written? (cs : List Char) : Option RawText :=
  match head cs with
  | (text, _ :: rest) => do
    let parameters ← Parameter.readAll? rest
    return text ++ 0x3b :: (← Parameter.writeAll? parameters)
  | (text, []) => some text

/-- The media type that a field names, in lower case and without parameters, if the field can be
    read. -/
def ofField? (value : String) : Option String := do
  let field ← (← written? (Field.unfolded value.toList)).chars?
  if Continuation.canJoin field then
    return String.ofList (Text.trim (Text.lower (field.takeWhile (· != ';'))))
  else none

end Swimlane.Http.MediaType
