import Swimlane.Http.Field
import Swimlane.Number.Numeral

/-!
# Parameters of header fields

A parameter is a name and a value.  A star behind the name marks an extended value, whose bytes
are escaped and belong to a character set.  A star and a number make it one piece of a value that
other parameters go on with.  Parameters are written out again with their pieces joined and their
bytes resolved.
-/

namespace Swimlane.Http

/-- A parameter of a header field. -/
structure Parameter where
  name : List Char
  /-- The place among the pieces of a value. -/
  number : Nat
  isExtended : Bool
  /-- The name of the character set of an extended value. -/
  charset : List Char
  /-- The value.  An extended value between quotation marks may be missing. -/
  value : Option RawText

namespace Parameter

/-- Why a parameter is not read. -/
inductive Fault where
  /-- It is written in another way, and is passed over. -/
  | malformed
  /-- It cannot be read, and with it the field. -/
  | unreadable
  deriving DecidableEq, Repr

/-! ## Reading -/

/-- The characters that end a name. -/
def endsName (c : Char) : Bool := Field.endsToken c || c == '*' || c == '\'' || c == '%'

/-- The characters that end a value without quotation marks. -/
def endsValue (c : Char) : Bool := endsName c && c != '%'

/-- The characters up to one of those that end them, at least one, and what follows them. -/
def run (ends : Char → Bool) (cs : List Char) : Except Fault (List Char × List Char) :=
  match cs.span (!ends ·) with
  | ([], _) => .error .malformed
  | r => .ok r

/-- A name, and what follows it behind blanks and comments. -/
def readName (cs : List Char) : Except Fault (List Char × List Char) := do
  let (name, rest) ← run endsName (Field.gap cs).2
  return (Text.trim name, (Field.gap rest).2)

/-- The number of a piece, zero if there is none, and what follows it.  Digits that denote no
    number cannot be read. -/
def readNumber (cs : List Char) : Except Fault (Nat × List Char) :=
  match cs with
  | '*' :: rest =>
    match rest.span Text.isDigit with
    | ([], _) => .ok (0, cs)
    | (digits, behind) =>
      match Numeral.integer? (String.ofList digits) with
      | some n => .ok (n.toNat, behind)
      | none => .error .unreadable
  | _ => .ok (0, cs)

/-- A value, between quotation marks or without them, and what follows it behind blanks and
    comments. -/
def readValue (cs : List Char) : Except Fault (RawText × List Char) :=
  match (Field.gap cs).2 with
  | '"' :: rest =>
    let (text, behind) := Field.quotedText none rest
    .ok (text, (Field.gap behind).2)
  | rest => do
    let (text, behind) ← run endsValue rest
    return (RawText.ofChars text, (Field.gap behind).2)

/-- The text of an extended value that stands between quotation marks with all its marks, and what
    follows it.  The first piece of a value needs an apostrophe behind its character set, another
    piece has nothing but a value. -/
def readWhole (number : Nat) (cs : List Char) : Except Fault (Option (List Char × List Char)) :=
  match cs with
  | '"' :: rest => do
    let (raw, behind) := Field.quotedText none rest
    let text := Text.Utf8.decodeLossy raw
    let isWhole ←
      if number = 0 && text.head? != some '\'' then do
        let (_, more) ← run endsName text
        pure (more.head? == some '\'')
      else if number = 0 then pure true
      else pure (!text.isEmpty && text.all (!endsValue ·))
    return if isWhole then some (text, (Field.gap behind).2) else none
  | _ => .ok none

/-- What follows the two apostrophes behind a character set, with a language between them or
    not. -/
def dropLanguage (cs : List Char) : Except Fault (List Char) :=
  match cs with
  | ['\''] => .ok []
  | '\'' :: '\'' :: rest => .ok rest
  | '\'' :: rest => do
    match ← run endsName rest with
    | (_, '\'' :: rest) => return rest
    | _ => throw .malformed
  | _ => .error .malformed

/-- A text between quotation marks that is read once more: white space is one blank, and a
    backslash takes the next character as it is. -/
def loosened (cs : List Char) : List Char :=
  match cs with
  | [] => []
  | c :: rest =>
    if c = '"' then c :: loosened rest
    else if Field.isGap c then ' ' :: loosened (rest.dropWhile Text.isBlank)
    else
      let text := Field.content (c :: rest)
      text.1 ++ loosened text.2
termination_by cs.length
decreasing_by
  · simp
  · have := (List.dropWhile_sublist Text.isBlank (l := rest)).length_le
    simp only [List.length_cons]
    omega
  · exact Field.length_content_lt (by assumption) (by simp_all)

/-- The character set that is not named. -/
def plainCharset : List Char := "us-ascii".toList

/-- The parameter behind an equals sign, and what follows it. -/
def readBehind (name : List Char) (number : Nat) (isExtended : Bool) (cs : List Char) :
    Except Fault (Parameter × List Char) := do
  let whole ← if isExtended then readWhole number cs else pure none
  let text := (whole.map (·.1)).getD cs
  let (first, rest) ←
    if text.head? == some '\'' then pure (none, text)
    else do
      let (value, rest) ← readValue text
      pure (some value, rest)
  let isDone := rest.isEmpty || rest.head? != some '\'' && (!isExtended || 0 < number)
  if isDone then
    return (⟨name, number, isExtended, plainCharset, first⟩, (whole.map (·.2)).getD rest)
  else
    let charset := (first.map Text.Utf8.decodeLossy).getD plainCharset
    let behind ← dropLanguage rest
    match whole with
    | some (_, rest) =>
      let value := if behind.isEmpty then none else some (RawText.ofChars (loosened behind))
      return (⟨name, number, isExtended, charset, value⟩, rest)
    | none =>
      let (value, rest) ← readValue behind
      return (⟨name, number, isExtended, charset, some value⟩, rest)

/-- The parameter at the start of a text, and what follows it.  A field that ends behind the mark
    of an extended value cannot be read. -/
def read (cs : List Char) : Except Fault (Parameter × List Char) := do
  let (name, rest) ← readName cs
  if rest.isEmpty || rest.head? == some ';' then
    return (⟨name, 0, false, plainCharset, some []⟩, rest)
  let (number, rest) ← readNumber rest
  match rest with
  | ['*'] => throw .unreadable
  | '*' :: '=' :: rest => readBehind name number true (Field.gap rest).2
  | '=' :: rest => readBehind name number false (Field.gap rest).2
  | _ => throw .malformed

/-- What follows the next semicolon. -/
def next (cs : List Char) : List Char := (Field.phrase cs).2.drop 1

/-- The parameters of a text, `most` at most, if none of them is unreadable. -/
def readUpTo (most : Nat) (cs : List Char) : Option (List Parameter) :=
  match most, cs with
  | 0, _ => some []
  | _, [] => some []
  | more + 1, cs =>
    match read cs with
    | .ok (p, rest) => (readUpTo more (next rest)).map (p :: ·)
    | .error .malformed => readUpTo more (next cs)
    | .error .unreadable => none

/-- The parameters of a text.  Every one has a character of its own. -/
def readAll? (cs : List Char) : Option (List Parameter) := readUpTo cs.length cs

/-! ## Writing -/

/-- The bytes of an extended value: a percent sign stands before the digits of a byte. -/
def unescaped : RawText → List Nat
  | 0x25 :: a :: b :: rest =>
    match Text.hexByte? (Char.ofNat a) (Char.ofNat b) with
    | some byte => byte :: unescaped rest
    | none => 0x25 :: unescaped (a :: b :: rest)
  | n :: rest => n :: unescaped rest
  | [] => []

/-- The text of a parameter, with its bytes taken from a character set. -/
def text? (charset : List Char) (p : Parameter) : Option RawText := do
  let value ← p.value
  if p.isExtended then
    let set ← Charset.ofName? charset
    set.decode? (unescaped value)
  else return value

/-- The joined texts of pieces from a number on.  A piece that has another number counts only if
    it is extended. -/
def join? (charset : List Char) (number : Nat) : List Parameter → Option RawText
  | [] => some []
  | p :: rest =>
    if p.number != number && !p.isExtended then join? charset number rest
    else do return (← p.text? charset) ++ (← join? charset (number + 1) rest)

/-- The value of the pieces with one name.  A plain value in front makes others without a number
    duplicates, which do not count. -/
def valueOf? (pieces : List Parameter) : Option RawText :=
  match pieces.mergeSort (·.number ≤ ·.number) with
  | [] => some []
  | first :: rest =>
    let isRepeated := !first.isExtended && (rest.head?.map (·.number)) == some 0
    join? first.charset 0 (first :: if isRepeated then [] else rest)

/-- A parameter as it is written; without a value it is its name. -/
def written? (name : List Char) (pieces : List Parameter) : Option RawText := do
  let value ← valueOf? pieces
  let text := RawText.ofChars name
  return if value.isEmpty then text else text ++ 0x3d :: RawText.quoted value

/-- Parameters as they are written, every name once. -/
def writeAll? (ps : List Parameter) : Option RawText := do
  let names := (ps.map (·.name)).eraseDups
  let texts ← names.mapM fun name => written? name (ps.filter (·.name == name))
  let all := [0x3b, 0x20].intercalate texts
  return if all.isEmpty then [] else 0x20 :: all

end Parameter

end Swimlane.Http
