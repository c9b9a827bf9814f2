/-!
# Character sets

The character sets that a header field can name.
-/

namespace Swimlane.Http

/-- A character set. -/
inductive Charset where
  /-- One to four bytes a character.  The byte order mark in front may be no part of the text. -/
  | utf8 (marked : Bool)
  /-- ASCII, with all other characters in runs of base 64. -/
  | utf7
  /-- Units of two bytes.  If their order is not told, a mark in front of them may tell it. -/
  | utf16 (bigEndian : Option Bool)
  /-- Units of four bytes. -/
  | utf32 (bigEndian : Option Bool)
  /-- One byte a character.  Sets above ASCII are told apart by their blanks alone: what else
      they hold is no part of a media type. -/
  | singleByte (blanks : List Nat)
  /-- One byte a character, with the letters of ASCII in other places. -/
  | ebcdic
  /-- Names of hosts.  They have no stray bytes. -/
  | hostName
  /-- ASCII up to the last hyphen, and all other characters told behind it.  There are no stray
      bytes. -/
  | punycode
  /-- The set that has no texts. -/
  | empty
  /-- A set that is not known here; it is taken for a superset of ASCII. -/
  | other
  deriving DecidableEq, Repr

end Swimlane.Http
