/-!
# UTF-8

Bytes are decoded strictly, where the first fault ends the decoding, or leniently, where every
ill-formed piece is replaced.  An ill-formed piece is the longest start of a well-formed
character, or a single byte.
-/

namespace Swimlane.Text.Utf8

/-- What is wrong with a piece of bytes. -/
inductive Fault where
  | invalidStart
  | invalidContinuation
  | unexpectedEnd
  deriving DecidableEq, Repr

/-- What a message says of a fault. -/
def Fault.text : Fault → String
  | invalidStart => "invalid start byte"
  | invalidContinuation => "invalid continuation byte"
  | unexpectedEnd => "unexpected end of data"

/-- A continuation byte. -/
def isContinuation (b : Nat) : Bool := 0x80 ≤ b && b < 0xc0

/-- Whether the second byte may follow the first one: overlong forms, surrogates and code points
    that do not exist are ruled out here. -/
def isSecond (first second : Nat) : Bool :=
  isContinuation second &&
    !(first == 0xe0 && second < 0xa0) && !(first == 0xed && 0xa0 ≤ second) &&
    !(first == 0xf0 && second < 0x90) && !(first == 0xf4 && 0x90 ≤ second)

/-- The number of bytes of the character that starts with the given byte. -/
def width? (first : Nat) : Option Nat :=
  if first < 0x80 then some 1
  else if first < 0xc2 then none
  else if first < 0xe0 then some 2
  else if first < 0xf0 then some 3
  else if first < 0xf5 then some 4
  else none

/-- How many of the bytes behind the first one may belong to its character, `more` at most. -/
def goodBytes (first : Nat) (more : Nat) (bytes : List Nat) : Nat :=
  match bytes with
  | [] => 0
  | second :: rest =>
    if isSecond first second then 1 + ((rest.take (more - 1)).takeWhile isContinuation).length else 0

/-- The code point of the bytes of a character. -/
def codePoint (width first : Nat) (bytes : List Nat) : Nat :=
  let lead := if width = 1 then first else first % Nat.pow 2 (7 - width)
  bytes.foldl (fun n b => n * 64 + b % 64) lead

/-- The first character of some bytes, or the fault of their first piece, with the number of
    bytes behind the first one that belong to it. -/
def first (b : Nat) (rest : List Nat) : Except Fault Char × Nat :=
  match width? b with
  | none => (.error .invalidStart, 0)
  | some width =>
    let good := goodBytes b (width - 1) rest
    if width - 1 ≤ good then (.ok (Char.ofNat (codePoint width b (rest.take (width - 1)))), width - 1)
    else if rest.length ≤ good then (.error .unexpectedEnd, good)
    else (.error .invalidContinuation, good)

/-- A fault and the piece of bytes that has it. -/
structure DecodeError where
  fault : Fault
  start : Nat
  /-- The first byte of the piece. -/
  byte : Nat
  /-- The number of bytes of the piece. -/
  size : Nat
  deriving DecidableEq, Repr

/-- A byte in hexadecimal. -/
def byteText (b : Nat) : String :=
  let ds := Nat.toDigits 16 b
  "0x" ++ String.ofList (List.replicate (2 - ds.length) '0' ++ ds)

/-- The message of a decoding error. -/
def DecodeError.message (e : DecodeError) : String :=
  let place := if e.size = 1 then s!"byte {byteText e.byte} in position {e.start}"
    else s!"bytes in position {e.start}-{e.start + e.size - 1}"
  s!"'utf-8' codec can't decode {place}: {e.fault.text}"

/-- The text of bytes that start at the given position. -/
def decodeFrom (position : Nat) (bytes : List Nat) : Except DecodeError (List Char) :=
  match bytes with
  | [] => .ok []
  | b :: rest =>
    match first b rest with
    | (.error fault, more) => .error ⟨fault, position, b, more + 1⟩
    | (.ok c, more) => do
      return c :: (← decodeFrom (position + more + 1) (rest.drop more))
termination_by bytes.length
decreasing_by simp only [List.length_drop, List.length_cons]; omega

/-- The text of bytes. -/
def decode (bytes : List Nat) : Except DecodeError (List Char) := decodeFrom 0 bytes

/-- The text of bytes, with a replacement character for every ill-formed piece. -/
def decodeLossy (bytes : List Nat) : List Char :=
  match bytes with
  | [] => []
  | b :: rest =>
    let r := first b rest
    (match r.1 with
      | .ok c => c
      | .error _ => '�') :: decodeLossy (rest.drop r.2)
termination_by bytes.length
decreasing_by simp only [List.length_drop, List.length_cons]; omega

/-- The bytes of a character. -/
def encodeChar (c : Char) : List Nat :=
  let n := c.toNat
  if n < 0x80 then [n]
  else if n < 0x800 then [0xc0 + n / 0x40, 0x80 + n % 0x40]
  else if n < 0x10000 then [0xe0 + n / 0x1000, 0x80 + n / 0x40 % 0x40, 0x80 + n % 0x40]
  else [0xf0 + n / 0x40000, 0x80 + n / 0x1000 % 0x40, 0x80 + n / 0x40 % 0x40, 0x80 + n % 0x40]

/-- The bytes of a text. -/
def encode (s : String) : List Nat := s.toList.flatMap encodeChar

end Swimlane.Text.Utf8
