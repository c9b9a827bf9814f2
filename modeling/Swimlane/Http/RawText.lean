import Swimlane.Text.Utf8

/-!
# Raw texts

A text of a header field may hold bytes that stand for no character.  It is kept as the bytes of
its characters in UTF-8 with the stray bytes between them, so that stray bytes which make up a
character become one where they meet.
-/

namespace Swimlane.Http

/-- The bytes of a text in UTF-8, and stray bytes.  The half of a surrogate pair, which has no
    bytes, stands for itself. -/
abbrev RawText := List Nat

namespace RawText

/-- The raw text of characters. -/
def ofChars (cs : List Char) : RawText := cs.flatMap Text.Utf8.encodeChar

/-- The characters of a raw text that is nothing but bytes; ill-formed pieces are replaced. -/
def chars? (text : RawText) : Option (List Char) :=
  if text.all (· < 0x100) then some (Text.Utf8.decodeLossy text) else none

/-- The text between quotation marks, with a backslash before every quotation mark and every
    backslash of it. -/
def quoted (text : RawText) : RawText :=
  let written := text.flatMap fun n => if n = 0x22 || n = 0x5c then [0x5c, n] else [n]
  0x22 :: written ++ [0x22]

end RawText

end Swimlane.Http
