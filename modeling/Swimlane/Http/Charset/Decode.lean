import Swimlane.Http.Charset.Names
import Swimlane.Http.RawText
import Swimlane.Text.Base64
import Swimlane.Text.Surrogate

/-!
# Texts in a character set

The raw text of bytes in a character set.  Where bytes stand for no character, those above ASCII
are kept as stray bytes, and one of ASCII leaves the whole without a text.
-/

namespace Swimlane.Http.Charset

/-- The character at the start of bytes, if there is one, and the number of bytes behind the first
    one that belong to it, or to the piece that stands for none. -/
abbrev First := Nat → List Nat → Option Char × Nat

/-- The raw text of bytes, character by character. -/
def decodeBy (first : First) (bytes : List Nat) : Option RawText :=
  match bytes with
  | [] => some []
  | b :: rest =>
    let r := first b rest
    match r.1 with
    | some c => (decodeBy first (rest.drop r.2)).map (Text.Utf8.encodeChar c ++ ·)
    | none =>
      if b < 0x80 then none
      else
        let more := (rest.take r.2).takeWhile (0x80 ≤ ·)
        (decodeBy first (rest.drop more.length)).map (b :: more ++ ·)
termination_by bytes.length
decreasing_by all_goals simp only [List.length_drop, List.length_cons]; omega

/-- The number of some bytes in a given order. -/
def number (bigEndian : Bool) (bytes : List Nat) : Nat :=
  let inOrder := if bigEndian then bytes else bytes.reverse
  inOrder.foldl (fun n b => n * 0x100 + b) 0

/-- The first character of units of two bytes.  A half of a pair needs the other one. -/
def first16 (bigEndian : Bool) : First
  | _, [] => (none, 0)
  | a, b :: rest =>
    let unit := number bigEndian [a, b]
    if !Text.Surrogate.isHalf unit then (some (Char.ofNat unit), 1)
    else if Text.Surrogate.isHigh unit then
      match rest with
      | c :: d :: _ =>
        let next := number bigEndian [c, d]
        if Text.Surrogate.isLow next then (some (Text.Surrogate.ofPair unit next), 3) else (none, 1)
      | few => (none, 1 + few.length)
    else (none, 1)

/-- The first character of units of four bytes. -/
def first32 (bigEndian : Bool) : First
  | a, b :: c :: d :: _ =>
    let n := number bigEndian [a, b, c, d]
    (if n.isValidChar then some (Char.ofNat n) else none, 3)
  | _, few => (none, few.length)

/-- The order that is told or that a mark in front tells, and the bytes behind the mark; else small
    ends are first.  The mark is given with its small end first. -/
def ordered (mark : List Nat) (bigEndian : Option Bool) (bytes : List Nat) : Bool × List Nat :=
  match bigEndian with
  | some order => (order, bytes)
  | none =>
    if mark.isPrefixOf bytes then (false, bytes.drop mark.length)
    else if mark.reverse.isPrefixOf bytes then (true, bytes.drop mark.length)
    else (false, bytes)

/-- A run of base 64 within ASCII: bits that are not used yet, how many there are, and the first
    half of a pair. -/
structure Run where
  left : Nat
  bits : Nat
  high : Option Nat

namespace Run

/-- The run before its first character. -/
def start : Run := ⟨0, 0, none⟩

/-- Whether a run may end here but for a half of a pair: bits that are left only fill up the last
    character, and are zero. -/
def isFilled (r : Run) : Bool := r.bits < 6 && r.left == 0

/-- A half of a pair alone.  Some of the second halves stand for stray bytes. -/
def half (n : Nat) : RawText := if 0xdc80 ≤ n && n < 0xdd00 then [n - 0xdc00] else [n]

/-- A unit of two bytes: the text it completes, and the half that it leaves. -/
def unit (high : Option Nat) (n : Nat) : RawText × Option Nat :=
  match high with
  | some h =>
    if Text.Surrogate.isLow n then (Text.Utf8.encodeChar (Text.Surrogate.ofPair h n), none)
    else if Text.Surrogate.isHigh n then (half h, some n)
    else (half h ++ Text.Utf8.encodeChar (Char.ofNat n), none)
  | none =>
    if Text.Surrogate.isHigh n then ([], some n)
    else if Text.Surrogate.isLow n then (half n, none)
    else (Text.Utf8.encodeChar (Char.ofNat n), none)

/-- The text that a character of six bits completes, and the run behind it. -/
def push (r : Run) (v : Nat) : RawText × Run :=
  let left := r.left * 64 + v
  let bits := r.bits + 6
  if bits < 16 then ([], ⟨left, bits, r.high⟩)
  else
    let size := Nat.pow 2 (bits - 16)
    let (text, high) := unit r.high (left / size)
    (text, ⟨left % size, bits - 16, high⟩)

end Run

/-- Where a reader of ASCII with runs of base 64 stands. -/
inductive Place where
  | plain
  /-- Right behind the plus sign that opens a run. -/
  | opened
  | inside (run : Run)

/-- Whether a text may end at a place. -/
def Place.mayEnd : Place → Bool
  | inside run => run.isFilled && run.high.isNone
  | _ => true

/-- The text of a byte at a place, and the place behind it.  A hyphen closes a run; right behind
    the plus sign it makes that stand for itself. -/
def Place.step (place : Place) (b : Nat) : Option (RawText × Place) :=
  let value := Text.Base64.value? (Char.ofNat b)
  let go (run : Run) (v : Nat) :=
    let (text, next) := run.push v
    (text, inside next)
  match place with
  | plain => some (if b = 0x2b then ([], opened) else ([b], plain))
  | opened => if b = 0x2d then some ([0x2b], plain) else value.map (go .start)
  | inside run =>
    match value with
    | some v => some (go run v)
    | none =>
      let kept := if b < 0x80 then (run.high.map Run.half).getD [] else []
      let closing := if b = 0x2d then [] else [b]
      if run.isFilled then some (kept ++ closing, plain) else none

/-- The raw text of ASCII with runs of base 64. -/
def decode7 (place : Place) : List Nat → Option RawText
  | [] => if place.mayEnd then some [] else none
  | b :: rest => do
    let (text, next) ← place.step b
    return text ++ (← decode7 next rest)

/-- The characters of the bytes of EBCDIC. -/
def ebcdicCodes : List Nat :=
  [
    0, 1, 2, 3, 156, 9, 134, 127, 151, 141, 142, 11, 12, 13, 14, 15, 16, 17, 18, 19, 157, 133, 8,
    135, 24, 25, 146, 143, 28, 29, 30, 31, 128, 129, 130, 131, 132, 10, 23, 27, 136, 137, 138,
    139, 140, 5, 6, 7, 144, 145, 22, 147, 148, 149, 150, 4, 152, 153, 154, 155, 20, 21, 158, 26,
    32, 160, 226, 228, 224, 225, 227, 229, 231, 241, 162, 46, 60, 40, 43, 124, 38, 233, 234, 235,
    232, 237, 238, 239, 236, 223, 33, 36, 42, 41, 59, 172, 45, 47, 194, 196, 192, 193, 195, 197,
    199, 209, 166, 44, 37, 95, 62, 63, 248, 201, 202, 203, 200, 205, 206, 207, 204, 96, 58, 35,
    64, 39, 61, 34, 216, 97, 98, 99, 100, 101, 102, 103, 104, 105, 171, 187, 240, 253, 254, 177,
    176, 106, 107, 108, 109, 110, 111, 112, 113, 114, 170, 186, 230, 184, 198, 164, 181, 126,
    115, 116, 117, 118, 119, 120, 121, 122, 161, 191, 208, 221, 222, 174, 94, 163, 165, 183, 169,
    167, 182, 188, 189, 190, 91, 93, 175, 168, 180, 215, 123, 65, 66, 67, 68, 69, 70, 71, 72, 73,
    173, 244, 246, 242, 243, 245, 125, 74, 75, 76, 77, 78, 79, 80, 81, 82, 185, 251, 252, 249,
    250, 255, 92, 247, 83, 84, 85, 86, 87, 88, 89, 90, 178, 212, 214, 210, 211, 213, 48, 49, 50,
    51, 52, 53, 54, 55, 56, 57, 179, 219, 220, 217, 218, 159
  ]

/-- The character of a byte in a set of one byte a character. -/
def ofByte (blanks : List Nat) (b : Nat) : Char :=
  if b < 0x80 then Char.ofNat b else if blanks.contains b then ' ' else '�'

/-- The raw text of bytes in a set.  No bytes are the empty text in every set. -/
def decode? (set : Charset) (bytes : List Nat) : Option RawText :=
  if bytes.isEmpty then some []
  else match set with
    | utf8 false => some bytes
    | utf8 true => some (if [0xef, 0xbb, 0xbf].isPrefixOf bytes then bytes.drop 3 else bytes)
    | utf7 => decode7 .plain bytes
    | utf16 told =>
      let (order, bytes) := ordered [0xff, 0xfe] told bytes
      decodeBy (first16 order) bytes
    | utf32 told =>
      let (order, bytes) := ordered [0xff, 0xfe, 0, 0] told bytes
      decodeBy (first32 order) bytes
    | singleByte blanks => some (RawText.ofChars (bytes.map (ofByte blanks)))
    | ebcdic => some (RawText.ofChars (bytes.map fun b => Char.ofNat (ebcdicCodes.getD b 0)))
    | hostName => none
    | punycode => none
    | empty => none
    | other => some bytes

end Swimlane.Http.Charset
