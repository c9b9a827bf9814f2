import Swimlane.Http.Charset.Decode
import Swimlane.Text.Hexadecimal

/-!
# Encoded words

A header field may hold a word as bytes of a named character set, written between question
marks: the name of the set, a letter for the way the bytes are written, and the bytes.
-/

namespace Swimlane.Http.EncodedWord

/-- The parts of a text before and behind the first mark that closes a word. -/
def close? : List Char → Option (List Char × List Char)
  | [] => none
  | '?' :: '=' :: rest => some ([], rest)
  | c :: rest => (close? rest).map fun (word, behind) => (c :: word, behind)

theorem length_close? {cs word rest : List Char} (h : close? cs = some (word, rest)) :
    rest.length < cs.length := by
  fun_induction close? cs generalizing word with
  | case1 => exact nomatch h
  | case2 => cases h; simp only [List.length_cons]; omega
  | case3 c cs _ ih =>
    obtain ⟨⟨w, r⟩, hr, he⟩ := Option.map_eq_some_iff.1 h
    cases he
    have := ih hr
    simp only [List.length_cons]
    omega

/-- Whether a text starts with the two digits of a byte. -/
def startsWithByte : List Char → Bool
  | a :: b :: _ => (Text.hexByte? a b).isSome
  | _ => false

/-- A word without its marks, and what follows it.  Bytes may start right behind a mark that looks
    like the closing one. -/
def span? (cs : List Char) : Option (List Char × List Char) := do
  let (word, rest) ← close? cs
  if word.count '?' < 2 && startsWithByte rest then
    match close? rest with
    | some (more, behind) => return (word ++ '?' :: '=' :: more, behind)
    | none => return (word ++ '?' :: '=' :: rest, [])
  else return (word, rest)

theorem length_span? {cs word rest : List Char} (h : span? cs = some (word, rest)) :
    rest.length < cs.length := by
  obtain ⟨⟨w, r⟩, hc, he⟩ := Option.bind_eq_some_iff.1 h
  have hr := length_close? hc
  dsimp only at he
  split at he
  · split at he
    · rename_i hm
      have := length_close? hm
      cases he
      omega
    · cases he
      simp only [List.length_nil]
      omega
  · cases he
    exact hr

/-- The bytes of a text in which a low line stands for a blank and an equals sign for a byte. -/
def quotedBytes : List Char → List Nat
  | [] => []
  | '_' :: cs => 0x20 :: quotedBytes cs
  | '=' :: a :: b :: cs =>
    match Text.hexByte? a b with
    | some byte => byte :: quotedBytes cs
    | none => 0x3d :: quotedBytes (a :: b :: cs)
  | c :: cs => c.toNat :: quotedBytes cs

/-- The bytes that are written in the way of a letter. -/
def bytes? (way : List Char) (text : List Char) : Option (List Nat) :=
  if text.all (·.toNat < 0x80) then
    match way.map Char.toLower with
    | ['q'] => some (quotedBytes text)
    | ['b'] => some (Text.Base64.decode text)
    | _ => none
  else none

/-- The text of bytes in a set.  Names of hosts that are plain ASCII stand for themselves. -/
def decode? (set : Charset) (bytes : List Nat) : Option RawText :=
  let isPlain := bytes.all (· < 0x80)
  if set = .hostName && isPlain then some bytes
  else if set = .punycode && isPlain && bytes.getLast? == some 0x2d then some bytes.dropLast
  else set.decode? bytes

/-- The text of a word without its marks.  A language may follow the name of the set. -/
def text? (word : List Char) : Option RawText :=
  match word.splitOnP (· == '?') with
  | [charset, way, text] => do
    let set ← Charset.ofName? (charset.takeWhile (· != '*'))
    decode? set (← bytes? way text)
  | _ => none

/-- The text of the encoded word at the start of a text, and what follows it. -/
def read? : List Char → Option (RawText × List Char)
  | '=' :: '?' :: cs => do
    let (word, rest) ← span? cs
    return (← text? word, rest)
  | _ => none

theorem length_read? {cs rest : List Char} {word : RawText} (h : read? cs = some (word, rest)) :
    rest.length < cs.length := by
  unfold read? at h
  split at h
  · obtain ⟨⟨w, r⟩, hs, he⟩ := Option.bind_eq_some_iff.1 h
    obtain ⟨t, _, ht⟩ := Option.bind_eq_some_iff.1 he
    cases ht
    have := length_span? hs
    simp only [List.length_cons]
    omega
  · exact nomatch h

end Swimlane.Http.EncodedWord
