import Mathlib.Algebra.Group.Nat.Defs
import Mathlib.Data.List.TakeWhile
import Swimlane.Json.Printer
import Swimlane.Json.Reader
import Swimlane.Proofs.Assoc

/-!
# What is written is read

A value whose numbers are integers that can be written, and whose objects have no name twice, is
read back from its text as it was, be it indented or on one line.

## Key results

- `takes_takeChars`: the characters of a string are read back from their escapes
- `takes_int`: an integer is read back from its digits
- `takes_blockChars`: a value is read back from its text at any level
- `takes_lineChars`: a value is read back from its text on one line
- `read_pretty`, `read_dense`: a value is read back from its whole text
- `carriage_not_mem_blockChars`: the lines of a text end with a line feed alone
-/

namespace Swimlane.Json

/-- The outcome of reading: a value, and the text behind it. -/
def Takes {α : Type} {cs : List Char} (outcome : Except Refusal (Taken α cs)) (value : α)
    (rest : List Char) : Prop :=
  ∃ h, outcome = .ok ⟨value, rest, h⟩

/-! ## Strings -/

/-- The escape of a control character denotes it. -/
theorem hexDigits_control : ∀ n < 32,
    Text.hexDigits 4 n = ['0', '0', Nat.digitChar (n / 16), Nat.digitChar (n % 16)] ∧
    unit? '0' '0' (Nat.digitChar (n / 16)) (Nat.digitChar (n % 16)) = some n := by
  decide

/-- The escape of a control character is read back, whatever follows. -/
theorem takes_takeUnit {n : Nat} (hn : n < 32) (e : Char) (rest : List Char) :
    Takes (takeUnit (Text.hexDigits 4 n ++ e :: rest)) (Char.ofNat n) (e :: rest) := by
  obtain ⟨hdigits, hunit⟩ := hexDigits_control n hn
  have hhigh : Text.Surrogate.isHigh n = false := by
    simp only [Text.Surrogate.isHigh, Bool.and_eq_false_iff, decide_eq_false_iff_not]; omega
  have hlow : Text.Surrogate.isLow n = false := by
    simp only [Text.Surrogate.isLow, Bool.and_eq_false_iff, decide_eq_false_iff_not]; omega
  have hchar : Text.Surrogate.ofUnit n = Char.ofNat n := by
    rw [Text.Surrogate.ofUnit, Text.Surrogate.isHalf, hhigh, hlow]; rfl
  rw [hdigits]
  refine ⟨by simp, ?_⟩
  simp only [List.cons_append, List.nil_append, takeUnit, hunit, hchar]
  split
  · rw [hhigh]; rfl
  · rfl

/-- The characters with an escape of one letter. -/
def lettered : List Char := ['"', '\\', '\n', '\r', '\t', '\x08', '\x0c']

/-- Of the other characters only control characters are escaped. -/
theorem escapeChar_of_not_mem {c : Char} (h : c ∉ lettered) :
    escapeChar false c = if c.toNat < 0x20 then unitEscape c.toNat else [c] := by
  simp only [lettered, List.mem_cons, List.not_mem_nil, or_false, not_or] at h
  obtain ⟨hq, hb, hn, hr, ht, hbs, hff⟩ := h
  simp [escapeChar, hq, hb, hn, hr, ht, hbs, hff]

/-- A character of a string is read back from its escape, if the string goes on. -/
theorem takes_takeChar (opening : Nat) (c e : Char) (rest : List Char) :
    Takes (takeChar opening (escapeChar false c ++ e :: rest)) (some c) (e :: rest) := by
  by_cases hc : c ∈ lettered
  · simp only [lettered, List.mem_cons, List.not_mem_nil, or_false] at hc
    rcases hc with rfl | rfl | rfl | rfl | rfl | rfl | rfl <;> exact ⟨by simp [escapeChar], rfl⟩
  · rw [escapeChar_of_not_mem hc]
    by_cases hcontrol : c.toNat < 0x20
    · rw [if_pos hcontrol]
      obtain ⟨hlen, hunit⟩ := takes_takeUnit hcontrol e rest
      refine ⟨by simp only [unitEscape, List.cons_append, List.length_cons] at hlen ⊢; omega, ?_⟩
      rw [Char.ofNat_toNat] at hunit
      simp only [unitEscape, List.cons_append, takeChar, hunit]
    · rw [if_neg hcontrol]
      refine ⟨by simp, ?_⟩
      -- The character stands for itself: it is neither a quote nor a backslash.
      have hq : c ≠ '"' := fun h => hc (by rw [h]; decide)
      have hb : c ≠ '\\' := fun h => hc (by rw [h]; decide)
      show takeChar opening (c :: e :: rest) = _
      rw [takeChar, if_neg hcontrol]
      · exact hq
      · exact fun h _ => hb h
      · exact fun _ h _ => hb h
      · exact fun _ _ h _ => hb h

/-- The characters of a string are read back from their escapes. -/
theorem takes_takeChars (opening : Nat) (cs rest : List Char) :
    Takes (takeChars opening (cs.flatMap (escapeChar false) ++ '"' :: rest)) cs rest := by
  induction cs with
  | nil =>
    show Takes (takeChars opening ('"' :: rest)) [] rest
    refine ⟨by simp, ?_⟩
    rw [takeChars, takeChar]
  | cons c cs ih =>
    obtain ⟨e, more, htext⟩ := List.exists_cons_of_ne_nil
      (show cs.flatMap (escapeChar false) ++ '"' :: rest ≠ [] by simp)
    rw [List.flatMap_cons, List.append_assoc, htext]
    rw [htext] at ih
    obtain ⟨hlen, hchar⟩ := takes_takeChar opening c e more
    obtain ⟨hlen', hmore⟩ := ih
    refine ⟨Nat.lt_trans hlen' hlen, ?_⟩
    rw [takeChars]
    simp only [hchar, hmore]

/-! ## Numbers -/

/-- A text in front of which a number ends. -/
def EndsNumber (rest : List Char) : Prop :=
  ∀ c ∈ rest.head?, c.isDigit = false ∧ c ≠ '.' ∧ c ≠ 'e' ∧ c ≠ 'E'

/-- Where a number ends, digits end. -/
theorem EndsNumber.span {rest ds : List Char} (h : EndsNumber rest)
    (hds : ∀ c ∈ ds, c.isDigit = true) :
    (ds ++ rest).takeWhile Char.isDigit = ds ∧ (ds ++ rest).dropWhile Char.isDigit = rest := by
  rw [List.takeWhile_append_of_pos hds, List.dropWhile_append_of_pos hds]
  cases rest with
  | nil => simp
  | cons c more =>
    have hc := (h c rfl).1
    simp [hc]

/-- Where a number ends, there is no fraction. -/
theorem EndsNumber.spanFraction {rest : List Char} (h : EndsNumber rest) :
    spanFraction rest = ([], rest) := by
  cases rest with
  | nil => rfl
  | cons c more =>
    rw [Json.spanFraction]
    exact fun _ heq => (h c rfl).2.1 (List.cons.inj heq).1

/-- Where a number ends, there is no exponent. -/
theorem EndsNumber.spanExponent {rest : List Char} (h : EndsNumber rest) :
    spanExponent rest = (none, rest) := by
  cases rest with
  | nil => rfl
  | cons c more =>
    obtain ⟨_, _, he, hE⟩ := h c rfl
    simp [Json.spanExponent, he, hE]

/-- The digits of a positive number start with no zero. -/
theorem toDigits_head (n : Nat) (hn : 0 < n) : ∃ c ds, Nat.toDigits 10 n = c :: ds ∧ c ≠ '0' := by
  induction n using Nat.strongRecOn with
  | ind n ih =>
    by_cases hlt : n < 10
    · have hdigit : ∀ n < 10, 0 < n → Nat.digitChar n ≠ '0' := by decide
      exact ⟨_, [], Nat.toDigits_of_lt_base hlt, hdigit n hlt hn⟩
    · obtain ⟨c, ds, hds, hc⟩ := ih (n / 10) (by omega) (by omega)
      refine ⟨c, ds ++ [Nat.digitChar (n % 10)], ?_, hc⟩
      rw [Nat.toDigits_of_base_le (by omega) (by omega), hds]
      rfl

/-- The digits of a number are digits. -/
theorem isDigit_toDigits (n : Nat) : ∀ c ∈ Nat.toDigits 10 n, c.isDigit = true :=
  fun _ hc => Nat.isDigit_of_mem_toDigits (by omega) (by omega) hc

/-- The digits of a number are taken as a whole. -/
theorem takeWhole_toDigits (n : Nat) {rest : List Char} (h : EndsNumber rest) :
    ∃ hlt, takeWhole (Nat.toDigits 10 n ++ rest) = some ⟨Nat.toDigits 10 n, rest, hlt⟩ := by
  rcases Nat.eq_zero_or_pos n with rfl | hn
  · rw [Nat.toDigits_zero]
    exact ⟨by simp, rfl⟩
  · obtain ⟨c, ds, hds, hc⟩ := toDigits_head n hn
    have hdigits := isDigit_toDigits n
    rw [hds] at hdigits ⊢
    obtain ⟨htake, hdrop⟩ := h.span fun d hd => hdigits d (List.mem_cons_of_mem _ hd)
    refine ⟨by simp only [List.cons_append, List.length_cons, List.length_append]; omega, ?_⟩
    show takeWhole (c :: (ds ++ rest)) = _
    rw [takeWhole, if_pos (hdigits c List.mem_cons_self)]
    · simp only [htake, hdrop]
    · exact hc

/-- The digits of a number denote it. -/
theorem ofDigits_toDigits (n : Nat) :
    Numeral.ofDigits ((Nat.toDigits 10 n).map fun d => d.toNat - 48) = n := by
  rw [Numeral.ofDigits, List.foldl_map]
  exact Nat.ofDigitChars_ten_toDigits

/-- A number is read back from its digits, with the sign in front of them. -/
theorem takes_takeMagnitude (negative : Bool) {n : Nat} (hn : n < 10 ^ Numeral.maxDigits)
    {rest : List Char} (h : EndsNumber rest) :
    Takes (takeMagnitude negative (Nat.toDigits 10 n ++ rest))
      (.int (Numeral.signed negative n)) rest := by
  obtain ⟨hlt, hwhole⟩ := takeWhole_toDigits n h
  have hlen : (Nat.toDigits 10 n).length ≤ Numeral.maxDigits :=
    (Nat.length_toDigits_le_iff (by omega) (by simp [Numeral.maxDigits])).mpr hn
  refine ⟨hlt, ?_⟩
  simp only [takeMagnitude, hwhole, h.spanFraction, h.spanExponent, numberOf, List.append_nil,
    ofDigits_toDigits, hlen, ↓reduceIte]

/-- A text that starts with no name of a value has no value by name. -/
theorem takeLiteral_eq_none {cs : List Char} {names : List (String × Json)}
    (h : ∀ p ∈ names, after? p.1.toList cs = none) : takeLiteral cs names = none := by
  induction names with
  | nil => rfl
  | cons p more ih =>
    obtain ⟨name, v⟩ := p
    rw [takeLiteral]
    split
    · exact ih fun q hq => h q (List.mem_cons_of_mem _ hq)
    · rename_i rest hsome
      cases (h _ List.mem_cons_self).symm.trans hsome

/-- A character that is no digit. -/
theorem ne_of_isDigit {c d : Char} (hc : c.isDigit = true) (hd : d.isDigit = false) : d ≠ c := by
  rintro rfl
  cases hc.symm.trans hd

/-- A text with another first character does not start with a word. -/
theorem after?_of_ne {w c : Char} (h : w ≠ c) (ws cs : List Char) :
    after? (w :: ws) (c :: cs) = none := by
  rw [after?, if_neg h]

/-- Digits are no value by name. -/
theorem takeLiteral_digits {c : Char} (hc : c.isDigit = true) (more : List Char) :
    takeLiteral (c :: more) literals = none := by
  refine takeLiteral_eq_none fun p hp => ?_
  simp only [literals, List.mem_cons, List.not_mem_nil, or_false] at hp
  rcases hp with rfl | rfl | rfl | rfl | rfl | rfl <;>
    exact after?_of_ne (ne_of_isDigit hc rfl) _ _

/-- A sign and digits are no value by name. -/
theorem takeLiteral_negative {c : Char} (hc : c.isDigit = true) (more : List Char) :
    takeLiteral ('-' :: c :: more) literals = none := by
  refine takeLiteral_eq_none fun p hp => ?_
  simp only [literals, List.mem_cons, List.not_mem_nil, or_false] at hp
  rcases hp with rfl | rfl | rfl | rfl | rfl | rfl
  · rfl
  · rfl
  · rfl
  · rfl
  · rfl
  · show after? ('I' :: "nfinity".toList) (c :: more) = none
    exact after?_of_ne (ne_of_isDigit hc rfl) _ _

/-- The digits of a number start with a digit. -/
theorem toDigits_eq_cons (n : Nat) :
    ∃ c ds, Nat.toDigits 10 n = c :: ds ∧ c.isDigit = true := by
  obtain ⟨c, ds, hds⟩ := List.exists_cons_of_ne_nil (Nat.toDigits_ne_nil (n := n) (b := 10))
  exact ⟨c, ds, hds, isDigit_toDigits n c (by rw [hds]; exact List.mem_cons_self)⟩

/-- A natural number is written as its digits. -/
theorem toList_toString_ofNat (n : Nat) : (toString (Int.ofNat n)).toList = Nat.toDigits 10 n :=
  Nat.toList_repr

/-- A negative number is written as a sign and digits. -/
theorem toList_toString_negSucc (n : Nat) :
    (toString (Int.negSucc n)).toList = '-' :: Nat.toDigits 10 (n + 1) := by
  show ("-" ++ (n + 1).repr).toList = _
  rw [String.toList_append, Nat.toList_repr]
  rfl

/-- An integer is read back from its digits. -/
theorem takes_int {n : Int} (hn : n.natAbs < 10 ^ Numeral.maxDigits) {rest : List Char}
    (h : EndsNumber rest) : Takes (takeScalar ((toString n).toList ++ rest)) (.int n) rest := by
  cases n with
  | ofNat m =>
    obtain ⟨c, ds, hds, hc⟩ := toDigits_eq_cons m
    obtain ⟨hlt, hmagnitude⟩ := takes_takeMagnitude false (n := m) hn h
    rw [toList_toString_ofNat]
    refine ⟨hlt, ?_⟩
    have hnumber : takeNumber (Nat.toDigits 10 m ++ rest) = takeMagnitude false _ := by
      rw [hds, List.cons_append, takeNumber]
      exact fun _ heq => ne_of_isDigit hc rfl (List.cons.inj heq).1.symm
    have hliteral : takeLiteral (Nat.toDigits 10 m ++ rest) literals = none := by
      rw [hds]
      exact takeLiteral_digits hc _
    simp only [takeScalar, hliteral, hnumber, hmagnitude]
    rfl
  | negSucc m =>
    obtain ⟨c, ds, hds, hc⟩ := toDigits_eq_cons (m + 1)
    obtain ⟨hlt, hmagnitude⟩ := takes_takeMagnitude true (n := m + 1) hn h
    rw [toList_toString_negSucc]
    refine ⟨Nat.lt_succ_of_lt hlt, ?_⟩
    have hliteral : takeLiteral ('-' :: (Nat.toDigits 10 (m + 1) ++ rest)) literals = none := by
      rw [hds]
      exact takeLiteral_negative hc _
    simp only [takeScalar, List.cons_append, hliteral, takeNumber, hmagnitude]
    rfl

/-! ## Lists and objects -/

/-- An empty list is read. -/
theorem takes_arr_nil {rest more : List Char} (hs : skipGap rest = ']' :: more) :
    Takes (takeValue ('[' :: rest)) (.arr []) more := by
  have hlen := length_skipGap_le rest
  rw [hs, List.length_cons] at hlen
  refine ⟨by rw [List.length_cons]; omega, ?_⟩
  rw [takeValue]
  split
  · rename_i more' hs'
    cases hs.symm.trans hs'
    rfl
  · rename_i hne
    exact absurd hs (hne more)

/-- A list is read item by item. -/
theorem takes_arr {rest last : List Char} {items : List Json}
    (hne : ∀ more, skipGap rest ≠ ']' :: more) (h : Takes (takeItems (skipGap rest)) items last) :
    Takes (takeValue ('[' :: rest)) (.arr items) last := by
  obtain ⟨hlt, h⟩ := h
  have hlen := length_skipGap_le rest
  refine ⟨by rw [List.length_cons]; omega, ?_⟩
  rw [takeValue]
  split
  · rename_i more hs
    exact absurd hs (hne more)
  · simp only [h]

/-- What stands behind a part of a list or an object: the mark that closes it, or a comma and
    the other parts. -/
def Follows {α : Type} (close : Char)
    (take : (cs : List Char) → Except Refusal (Taken (List α) cs)) (rest : List Char)
    (parts : List α) (last : List Char) : Prop :=
  (parts = [] ∧ skipGap rest = close :: last) ∨
    ∃ more, skipGap rest = ',' :: more ∧ Takes (take (skipGap more)) parts last

/-- Behind the last part the text is shorter. -/
theorem Follows.length_lt {α : Type} {close : Char}
    {take : (cs : List Char) → Except Refusal (Taken (List α) cs)} {rest last : List Char}
    {parts : List α} (h : Follows close take rest parts last) : last.length < rest.length := by
  have hlen := length_skipGap_le rest
  rcases h with ⟨_, hs⟩ | ⟨more, hs, hlt, _⟩
  · rw [hs, List.length_cons] at hlen
    omega
  · have hmore := length_skipGap_le more
    rw [hs, List.length_cons] at hlen
    omega

/-- An item of a list is read, and those behind it. -/
theorem takes_items {cs rest last : List Char} {v : Json} {vs : List Json}
    (hv : Takes (takeValue cs) v rest) (h : Follows ']' takeItems rest vs last) :
    Takes (takeItems cs) (v :: vs) last := by
  obtain ⟨hlt, hv⟩ := hv
  refine ⟨Nat.lt_trans h.length_lt hlt, ?_⟩
  rw [takeItems]
  simp only [hv]
  rcases h with ⟨rfl, hs⟩ | ⟨more, hs, _, hvs⟩
  · -- The list is closed.
    split
    · rename_i more' hs'
      cases hs.symm.trans hs'
      rfl
    · rename_i more' hs'
      cases hs.symm.trans hs'
    · rename_i hne _
      exact absurd hs (hne last)
  · -- A comma stands before the other items.
    split
    · rename_i more' hs'
      cases hs.symm.trans hs'
    · rename_i more' hs'
      cases hs.symm.trans hs'
      simp only [hvs]
    · rename_i _ hne
      exact absurd hs (hne more)

/-- An empty object is read. -/
theorem takes_obj_nil {rest more : List Char} (hs : skipGap rest = '}' :: more) :
    Takes (takeValue ('{' :: rest)) (.obj []) more := by
  have hlen := length_skipGap_le rest
  rw [hs, List.length_cons] at hlen
  refine ⟨by rw [List.length_cons]; omega, ?_⟩
  rw [takeValue]
  split
  · rename_i more' hs'
    cases hs.symm.trans hs'
    rfl
  · rename_i hne
    exact absurd hs (hne more)

/-- An object is read member by member. -/
theorem takes_obj {rest last : List Char} {members : List (String × Json)}
    (hne : ∀ more, skipGap rest ≠ '}' :: more)
    (h : Takes (takeMembers (skipGap rest)) members last) :
    Takes (takeValue ('{' :: rest)) (.obj (Assoc.ofPairs members)) last := by
  obtain ⟨hlt, h⟩ := h
  have hlen := length_skipGap_le rest
  refine ⟨by rw [List.length_cons]; omega, ?_⟩
  rw [takeValue]
  split
  · rename_i more hs
    exact absurd hs (hne more)
  · simp only [h]

/-- A string stands between quotes. -/
theorem stringChars_append (s : String) (rest : List Char) :
    stringChars false s ++ rest = '"' :: (s.toList.flatMap (escapeChar false) ++ '"' :: rest) := by
  simp [stringChars]

/-- A member of an object is read, and those behind it. -/
theorem takes_members {name : String} {text rest last : List Char} {v : Json}
    {members : List (String × Json)} (hv : Takes (takeValue (skipGap text)) v rest)
    (h : Follows '}' takeMembers rest members last) :
    Takes (takeMembers (stringChars false name ++ ':' :: text)) ((name, v) :: members) last := by
  rw [stringChars_append]
  obtain ⟨hlt, hname⟩ := takes_takeChars
    ((name.toList.flatMap (escapeChar false) ++ '"' :: ':' :: text).length + 1) name.toList
    (':' :: text)
  obtain ⟨hlt', hv⟩ := hv
  have hlast := h.length_lt
  have hlen := length_skipGap_le text
  have hcolon : skipGap (':' :: text) = ':' :: text := rfl
  rw [List.length_cons] at hlt
  refine ⟨by rw [List.length_cons]; omega, ?_⟩
  rw [takeMembers]
  simp only [hname]
  split
  · rename_i behind hs'
    cases hcolon.symm.trans hs'
    simp only [hv]
    rcases h with ⟨rfl, hs⟩ | ⟨more, hs, _, hmembers⟩
    · -- The object is closed.
      split
      · rename_i more' hs'
        cases hs.symm.trans hs'
        simp only [String.ofList_toList]
      · rename_i more' hs'
        cases hs.symm.trans hs'
      · rename_i hne _
        exact absurd hs (hne last)
    · -- A comma stands before the other members.
      split
      · rename_i more' hs'
        cases hs.symm.trans hs'
      · rename_i more' hs'
        cases hs.symm.trans hs'
        simp only [hmembers, String.ofList_toList]
      · rename_i _ hne
        exact absurd hs (hne more)
  · rename_i hne
    exact absurd hcolon (hne text)

/-! ## Values -/

mutual

/-- Values that are read as they are written: all numbers are integers that can be written, and
    no object has a name twice. -/
def Readable : Json → Prop
  | float _ => False
  | int n => n.natAbs < 10 ^ Numeral.maxDigits
  | arr items => ReadableItems items
  | obj members => (members.map (·.1)).Nodup ∧ ReadableMembers members
  | _ => True

/-- All items are readable. -/
def ReadableItems : List Json → Prop
  | [] => True
  | v :: vs => v.Readable ∧ ReadableItems vs

/-- The values of all members are readable. -/
def ReadableMembers : List (String × Json) → Prop
  | [] => True
  | (_, v) :: members => v.Readable ∧ ReadableMembers members

end

/-- The characters that a value may start with: none of them is skipped, closes a list or an
    object, or marks an encoding. -/
def Starts (c : Char) : Prop := isGap c = false ∧ c ≠ ']' ∧ c ≠ '}' ∧ c ≠ '\ufeff'

instance (c : Char) : Decidable (Starts c) := inferInstanceAs (Decidable (_ ∧ _))

/-- A digit may start a value. -/
theorem starts_of_isDigit {c : Char} (hc : c.isDigit = true) : Starts c := by
  have hne : ∀ d : Char, d.isDigit = false → c ≠ d := fun d hd => (ne_of_isDigit hc hd).symm
  refine ⟨?_, hne _ rfl, hne _ rfl, hne _ rfl⟩
  simp only [isGap, Bool.or_eq_false_iff, beq_eq_false_iff_ne]
  exact ⟨⟨⟨hne _ rfl, hne _ rfl⟩, hne _ rfl⟩, hne _ rfl⟩

/-- The text of a value starts with a character that may start one. -/
theorem blockChars_eq_cons (level : Nat) {v : Json} (h : v.Readable) :
    ∃ c more, blockChars level v = c :: more ∧ Starts c := by
  cases v with
  | null => exact ⟨_, _, rfl, by decide⟩
  | bool b => cases b <;> exact ⟨_, _, rfl, by decide⟩
  | int n =>
    cases n with
    | ofNat m =>
      obtain ⟨c, ds, hds, hc⟩ := toDigits_eq_cons m
      exact ⟨c, ds, (toList_toString_ofNat m).trans hds, starts_of_isDigit hc⟩
    | negSucc m => exact ⟨_, _, toList_toString_negSucc m, by decide⟩
  | float x => exact h.elim
  | str s => exact ⟨_, _, rfl, by decide⟩
  | arr items => cases items <;> exact ⟨_, _, rfl, by decide⟩
  | obj members => rcases members with _ | ⟨⟨k, v⟩, rest⟩ <;> exact ⟨_, _, rfl, by decide⟩

/-- A new line is skipped. -/
theorem skipGap_newLine (level : Nat) {c : Char} (hc : isGap c = false) (rest : List Char) :
    skipGap (newLine level ++ c :: rest) = c :: rest := by
  have hgap : ∀ d ∈ newLine level, isGap d = true := by
    intro d hd
    rcases List.mem_cons.mp hd with rfl | hd
    · rfl
    · rw [List.eq_of_mem_replicate hd]; rfl
  rw [skipGap, List.dropWhile_append_of_pos hgap, List.dropWhile_cons_of_neg (by simp [hc])]

/-- In front of the other items of a list a number ends. -/
theorem endsNumber_blockItems (level k : Nat) (vs : List Json) (rest : List Char) :
    EndsNumber (blockItems level vs ++ (newLine k ++ rest)) := by
  cases vs <;> (rintro c ⟨⟩; decide)

/-- In front of the other members of an object a number ends. -/
theorem endsNumber_blockMembers (level k : Nat) (ms : List (String × Json)) (rest : List Char) :
    EndsNumber (blockMembers level ms ++ (newLine k ++ rest)) := by
  rcases ms with _ | ⟨⟨name, v⟩, ms⟩ <;> (rintro c ⟨⟩; decide)

/-- A string is read back from its text. -/
theorem takes_str (s : String) (rest : List Char) :
    Takes (takeValue (stringChars false s ++ rest)) (.str s) rest := by
  rw [stringChars_append]
  obtain ⟨hlt, hchars⟩ := takes_takeChars
    ((s.toList.flatMap (escapeChar false) ++ '"' :: rest).length + 1) s.toList rest
  refine ⟨Nat.lt_succ_of_lt hlt, ?_⟩
  rw [takeValue]
  simp only [hchars, Taken.behind, String.ofList_toList]

/-- A text that starts with no quote and no bracket is a name or a number. -/
theorem takeValue_of_ne {c : Char} {rest : List Char} (hq : c ≠ '"') (hl : c ≠ '[') (ho : c ≠ '{') :
    takeValue (c :: rest) = takeScalar (c :: rest) := by
  rw [takeValue]
  · exact fun _ heq => hq (List.cons.inj heq).1
  · exact fun _ heq => hl (List.cons.inj heq).1
  · exact fun _ heq => ho (List.cons.inj heq).1

/-- An integer is read back from its text. -/
theorem takes_value_int {n : Int} (hn : n.natAbs < 10 ^ Numeral.maxDigits) {rest : List Char}
    (h : EndsNumber rest) : Takes (takeValue ((toString n).toList ++ rest)) (.int n) rest := by
  have hscalar := takes_int hn h
  cases n with
  | ofNat m =>
    obtain ⟨c, ds, hds, hc⟩ := toDigits_eq_cons m
    rw [toList_toString_ofNat, hds, List.cons_append] at hscalar ⊢
    rw [takeValue_of_ne (ne_of_isDigit hc rfl).symm (ne_of_isDigit hc rfl).symm
      (ne_of_isDigit hc rfl).symm]
    exact hscalar
  | negSucc m =>
    rw [toList_toString_negSucc, List.cons_append] at hscalar ⊢
    rw [takeValue_of_ne (by decide) (by decide) (by decide)]
    exact hscalar

/-- A new line in front of a value is skipped. -/
theorem skipGap_blockChars (k level : Nat) {v : Json} (h : v.Readable) (rest : List Char) :
    skipGap (newLine k ++ (blockChars level v ++ rest)) = blockChars level v ++ rest := by
  obtain ⟨c, more, hc, hstart⟩ := blockChars_eq_cons level h
  rw [hc, List.cons_append, skipGap_newLine k hstart.1]

/-- A new line in front of a name is skipped. -/
theorem skipGap_stringChars (k : Nat) (s : String) (rest : List Char) :
    skipGap (newLine k ++ (stringChars false s ++ rest)) = stringChars false s ++ rest := by
  rw [stringChars_append, skipGap_newLine k rfl]

/-- A blank in front of a value is skipped. -/
theorem skipGap_blank (level : Nat) {v : Json} (h : v.Readable) (rest : List Char) :
    skipGap (' ' :: (blockChars level v ++ rest)) = blockChars level v ++ rest := by
  obtain ⟨c, more, hc, hstart⟩ := blockChars_eq_cons level h
  rw [hc, List.cons_append, skipGap, List.dropWhile_cons_of_pos (by rfl),
    List.dropWhile_cons_of_neg (by simp [hstart.1])]

mutual

/-- A value is read back from its text at any level, if no number goes on behind it. -/
theorem takes_blockChars (level : Nat) {rest : List Char} (h : EndsNumber rest) :
    (v : Json) → v.Readable → Takes (takeValue (blockChars level v ++ rest)) v rest
  | .null, _ | .bool true, _ | .bool false, _ => by
    refine ⟨by simp only [blockChars, scalarChars, List.length_append]; exact
      Nat.lt_add_of_pos_left (by decide), ?_⟩
    show takeValue (_ :: _) = _
    rw [takeValue_of_ne (by decide) (by decide) (by decide)]
    rfl
  | .int n, hn => takes_value_int hn h
  | .str s, _ => takes_str s rest
  | .arr [], _ => takes_arr_nil rfl
  | .obj [], _ => takes_obj_nil rfl
  | .arr (v :: vs), hv => by
    have htext : blockChars level (.arr (v :: vs)) ++ rest =
        '[' :: (newLine (level + 1) ++ (blockChars (level + 1) v ++
          (blockItems (level + 1) vs ++ (newLine level ++ ']' :: rest)))) := by
      simp [blockChars]
    rw [htext]
    refine takes_arr (fun more heq => ?_) ?_
    · obtain ⟨c, cs, hc, hstart⟩ := blockChars_eq_cons (level + 1) hv.1
      rw [skipGap_blockChars _ _ hv.1, hc] at heq
      exact hstart.2.1 (List.cons.inj heq).1
    · rw [skipGap_blockChars _ _ hv.1]
      exact takes_items (takes_blockChars _ (endsNumber_blockItems _ _ _ _) v hv.1)
        (follows_blockItems _ level rest vs hv.2)
  | .obj ((name, v) :: ms), ⟨hnames, hv⟩ => by
    have htext : blockChars level (.obj ((name, v) :: ms)) ++ rest =
        '{' :: (newLine (level + 1) ++ (stringChars false name ++ ':' :: ' ' ::
          (blockChars (level + 1) v ++
            (blockMembers (level + 1) ms ++ (newLine level ++ '}' :: rest))))) := by
      simp [blockChars]
    rw [htext, ← Assoc.ofPairs_eq_self hnames]
    refine takes_obj (fun more heq => ?_) ?_
    · rw [skipGap_stringChars, stringChars_append] at heq
      cases heq
    · rw [skipGap_stringChars]
      refine takes_members ?_ (follows_blockMembers (level + 1) level rest ms hv.2)
      rw [skipGap_blank _ hv.1]
      exact takes_blockChars _ (endsNumber_blockMembers _ _ _ _) v hv.1

/-- The other items of a list are read back. -/
theorem follows_blockItems (level k : Nat) (rest : List Char) :
    (vs : List Json) → ReadableItems vs →
      Follows ']' takeItems (blockItems level vs ++ (newLine k ++ ']' :: rest)) vs rest
  | [], _ => .inl ⟨rfl, skipGap_newLine k rfl rest⟩
  | v :: vs, hv => by
    have htext : blockItems level (v :: vs) ++ (newLine k ++ ']' :: rest) =
        ',' :: (newLine level ++ (blockChars level v ++
          (blockItems level vs ++ (newLine k ++ ']' :: rest)))) := by
      simp [blockItems]
    rw [htext]
    refine .inr ⟨_, rfl, ?_⟩
    rw [skipGap_blockChars _ _ hv.1]
    exact takes_items (takes_blockChars _ (endsNumber_blockItems _ _ _ _) v hv.1)
      (follows_blockItems _ k rest vs hv.2)

/-- The other members of an object are read back. -/
theorem follows_blockMembers (level k : Nat) (rest : List Char) :
    (ms : List (String × Json)) → ReadableMembers ms →
      Follows '}' takeMembers (blockMembers level ms ++ (newLine k ++ '}' :: rest)) ms rest
  | [], _ => .inl ⟨rfl, skipGap_newLine k rfl rest⟩
  | (name, v) :: ms, hv => by
    have htext : blockMembers level ((name, v) :: ms) ++ (newLine k ++ '}' :: rest) =
        ',' :: (newLine level ++ (stringChars false name ++ ':' :: ' ' ::
          (blockChars level v ++ (blockMembers level ms ++ (newLine k ++ '}' :: rest))))) := by
      simp [blockMembers]
    rw [htext]
    refine .inr ⟨_, rfl, ?_⟩
    rw [skipGap_stringChars]
    refine takes_members ?_ (follows_blockMembers level k rest ms hv.2)
    rw [skipGap_blank _ hv.1]
    exact takes_blockChars _ (endsNumber_blockMembers _ _ _ _) v hv.1

end

/-! ## One line -/

/-- The text of a value on one line starts with a character that may start one. -/
theorem lineChars_eq_cons {v : Json} (h : v.Readable) :
    ∃ c more, lineChars .dense v = c :: more ∧ Starts c := by
  cases v with
  | arr items => exact ⟨_, _, rfl, by decide⟩
  | obj members => exact ⟨_, _, rfl, by decide⟩
  | float x => exact h.elim
  | _ => exact blockChars_eq_cons 0 h

/-- Nothing is skipped in front of a value. -/
theorem skipGap_lineChars {v : Json} (h : v.Readable) (rest : List Char) :
    skipGap (lineChars .dense v ++ rest) = lineChars .dense v ++ rest := by
  obtain ⟨c, more, hc, hstart⟩ := lineChars_eq_cons h
  rw [hc, List.cons_append, skipGap, List.dropWhile_cons_of_neg (by simp [hstart.1])]

/-- The items behind the first one, each behind a comma. -/
def otherItems : List Json → List Char
  | [] => []
  | v :: rest => ',' :: lineChars .dense v ++ otherItems rest

/-- The members behind the first one, each behind a comma. -/
def otherMembers : List (String × Json) → List Char
  | [] => []
  | (k, v) :: rest =>
    ',' :: stringChars false k ++ ':' :: lineChars .dense v ++ otherMembers rest

theorem lineItems_cons (v : Json) (vs : List Json) :
    lineItems .dense (v :: vs) = lineChars .dense v ++ otherItems vs := by
  induction vs generalizing v with
  | nil => rw [lineItems, otherItems, List.append_nil]
  | cons w ws ih =>
    rw [lineItems, ih, otherItems]
    simp [Style.dense]

theorem lineMembers_cons (k : String) (v : Json) (ms : List (String × Json)) :
    lineMembers .dense ((k, v) :: ms) =
      stringChars false k ++ ':' :: lineChars .dense v ++ otherMembers ms := by
  induction ms generalizing k v with
  | nil => simp [lineMembers, otherMembers, Style.dense]
  | cons m ms ih =>
    obtain ⟨k', w⟩ := m
    rw [lineMembers, ih, otherMembers]
    simp [Style.dense]

/-- In front of the other items of a list a number ends. -/
theorem endsNumber_otherItems (vs : List Json) (rest : List Char) :
    EndsNumber (otherItems vs ++ ']' :: rest) := by
  cases vs <;> (rintro c ⟨⟩; decide)

/-- In front of the other members of an object a number ends. -/
theorem endsNumber_otherMembers (ms : List (String × Json)) (rest : List Char) :
    EndsNumber (otherMembers ms ++ '}' :: rest) := by
  rcases ms with _ | ⟨⟨k, v⟩, ms⟩ <;> (rintro c ⟨⟩; decide)

mutual

/-- A value is read back from its text on one line, if no number goes on behind it. -/
theorem takes_lineChars {rest : List Char} (h : EndsNumber rest) :
    (v : Json) → v.Readable → Takes (takeValue (lineChars .dense v ++ rest)) v rest
  | .null, hv | .bool true, hv | .bool false, hv => takes_blockChars 0 h _ hv
  | .int n, hn => takes_value_int hn h
  | .str s, _ => takes_str s rest
  | .arr [], _ => takes_arr_nil rfl
  | .obj [], _ => takes_obj_nil rfl
  | .arr (v :: vs), hv => by
    have htext : lineChars .dense (.arr (v :: vs)) ++ rest =
        '[' :: (lineChars .dense v ++ (otherItems vs ++ ']' :: rest)) := by
      simp [lineChars, lineItems_cons]
    rw [htext]
    refine takes_arr (fun more heq => ?_) ?_
    · obtain ⟨c, cs, hc, hstart⟩ := lineChars_eq_cons hv.1
      rw [skipGap_lineChars hv.1, hc] at heq
      exact hstart.2.1 (List.cons.inj heq).1
    · rw [skipGap_lineChars hv.1]
      exact takes_items (takes_lineChars (endsNumber_otherItems _ _) v hv.1)
        (follows_otherItems rest vs hv.2)
  | .obj ((name, v) :: ms), ⟨hnames, hv⟩ => by
    have htext : lineChars .dense (.obj ((name, v) :: ms)) ++ rest =
        '{' :: (stringChars false name ++ ':' ::
          (lineChars .dense v ++ (otherMembers ms ++ '}' :: rest))) := by
      simp [lineChars, lineMembers_cons]
    rw [htext, ← Assoc.ofPairs_eq_self hnames]
    refine takes_obj (fun more heq => ?_) ?_
    · rw [stringChars_append] at heq
      cases heq
    · refine takes_members ?_ (follows_otherMembers rest ms hv.2)
      rw [skipGap_lineChars hv.1]
      exact takes_lineChars (endsNumber_otherMembers _ _) v hv.1

/-- The other items of a list are read back. -/
theorem follows_otherItems (rest : List Char) : (vs : List Json) → ReadableItems vs →
    Follows ']' takeItems (otherItems vs ++ ']' :: rest) vs rest
  | [], _ => .inl ⟨rfl, rfl⟩
  | v :: vs, hv => by
    have htext : otherItems (v :: vs) ++ ']' :: rest =
        ',' :: (lineChars .dense v ++ (otherItems vs ++ ']' :: rest)) := by
      simp [otherItems]
    rw [htext]
    refine .inr ⟨_, rfl, ?_⟩
    rw [skipGap_lineChars hv.1]
    exact takes_items (takes_lineChars (endsNumber_otherItems _ _) v hv.1)
      (follows_otherItems rest vs hv.2)

/-- The other members of an object are read back. -/
theorem follows_otherMembers (rest : List Char) : (ms : List (String × Json)) →
    ReadableMembers ms → Follows '}' takeMembers (otherMembers ms ++ '}' :: rest) ms rest
  | [], _ => .inl ⟨rfl, rfl⟩
  | (name, v) :: ms, hv => by
    have htext : otherMembers ((name, v) :: ms) ++ '}' :: rest =
        ',' :: (stringChars false name ++ ':' ::
          (lineChars .dense v ++ (otherMembers ms ++ '}' :: rest))) := by
      simp [otherMembers]
    rw [htext]
    refine .inr ⟨_, rfl, takes_members ?_ (follows_otherMembers rest ms hv.2)⟩
    rw [skipGap_lineChars hv.1]
    exact takes_lineChars (endsNumber_otherMembers _ _) v hv.1

end

/-! ## Whole texts -/

/-- A text that holds a value and nothing else is read. -/
theorem readAll_of_takes {cs rest : List Char} {v : Json} (hmark : ∀ more, cs ≠ '\ufeff' :: more)
    (h : Takes (takeValue (skipGap cs)) v rest) (hrest : skipGap rest = []) :
    readAll cs = .ok v := by
  obtain ⟨hlt, h⟩ := h
  rw [readAll.eq_def]
  split
  · rename_i more
    exact absurd rfl (hmark more)
  · simp only [h, hrest]

/-- A value is read back from its text, with blanks behind it. -/
theorem read_pretty {v : Json} (h : v.Readable) {gap : String}
    (hgap : ∀ c ∈ gap.toList, isGap c = true) : read (v.pretty ++ gap) = .ok v := by
  have hends : EndsNumber gap.toList := by
    intro c hc
    have hc := hgap c (List.mem_of_mem_head? hc)
    simp only [isGap, Bool.or_eq_true, beq_iff_eq] at hc
    rcases hc with ((rfl | rfl) | rfl) | rfl <;> decide
  obtain ⟨c, more, hc, hstart, -, -, hmark⟩ := blockChars_eq_cons 0 h
  have hskip : skipGap (blockChars 0 v ++ gap.toList) = blockChars 0 v ++ gap.toList := by
    rw [hc, List.cons_append, skipGap, List.dropWhile_cons_of_neg (by simp [hstart])]
  have hall : readAll (blockChars 0 v ++ gap.toList) = .ok v := by
    refine readAll_of_takes (fun _ heq => ?_) ?_ (List.dropWhile_eq_nil_iff.mpr hgap)
    · rw [hc] at heq
      exact hmark (List.cons.inj heq).1
    · rw [hskip]
      exact takes_blockChars 0 hends v h
  rw [read, pretty, String.toList_append, String.toList_ofList, hall]
  rfl

/-- A value is read back from its text without blanks. -/
theorem read_dense {v : Json} (h : v.Readable) : read v.dense = .ok v := by
  obtain ⟨c, more, hc, -, -, -, hmark⟩ := lineChars_eq_cons h
  have hall : readAll (lineChars .dense v) = .ok v := by
    have hends : EndsNumber [] := by rintro c ⟨⟩
    have hskip := skipGap_lineChars h []
    have htakes := takes_lineChars hends v h
    rw [← hskip, List.append_nil] at htakes
    refine readAll_of_takes (fun _ heq => ?_) htakes rfl
    rw [hc] at heq
    exact hmark (List.cons.inj heq).1
  rw [read, dense, String.toList_ofList, hall]
  rfl

/-! ## Line ends -/

/-- No escape holds a carriage return. -/
theorem carriage_not_mem_escapeChar (c : Char) : '\r' ∉ escapeChar false c := by
  by_cases hc : c ∈ lettered
  · simp only [lettered, List.mem_cons, List.not_mem_nil, or_false] at hc
    rcases hc with rfl | rfl | rfl | rfl | rfl | rfl | rfl <;> decide
  · rw [escapeChar_of_not_mem hc]
    split
    · rename_i hcontrol
      exact (show ∀ n < 0x20, '\r' ∉ unitEscape n by decide) _ hcontrol
    · intro hmem
      exact hc (by rw [← List.mem_singleton.mp hmem]; decide)

/-- No string holds a carriage return. -/
theorem carriage_not_mem_stringChars (s : String) : '\r' ∉ stringChars false s := by
  simp only [stringChars, List.cons_append, List.mem_cons, List.mem_append, List.mem_flatMap,
    List.not_mem_nil, or_false, not_or, not_exists, not_and]
  exact ⟨by decide, fun c _ => carriage_not_mem_escapeChar c, by decide⟩

/-- No integer holds a carriage return. -/
theorem carriage_not_mem_toString (n : Int) : '\r' ∉ (toString n).toList := by
  have hdigits : ∀ m : Nat, '\r' ∉ Nat.toDigits 10 m := by
    intro m hmem
    cases isDigit_toDigits m _ hmem
  cases n with
  | ofNat m =>
    rw [toList_toString_ofNat]
    exact hdigits m
  | negSucc m =>
    rw [toList_toString_negSucc, List.mem_cons, not_or]
    exact ⟨by decide, hdigits (m + 1)⟩

/-- No new line holds a carriage return. -/
theorem carriage_not_mem_newLine (level : Nat) : '\r' ∉ newLine level := by
  simp [newLine]

mutual

/-- The text of a readable value holds no carriage return. -/
theorem carriage_not_mem_blockChars (level : Nat) :
    (v : Json) → v.Readable → '\r' ∉ blockChars level v
  | .null, _ | .bool true, _ | .bool false, _ => by simp [blockChars, scalarChars]
  | .int n, _ => carriage_not_mem_toString n
  | .str s, _ => carriage_not_mem_stringChars s
  | .arr [], _ | .obj [], _ => by simp [blockChars]
  | .arr (v :: vs), h => by
    have hv := carriage_not_mem_blockChars (level + 1) v h.1
    have hvs := carriage_not_mem_blockItems (level + 1) vs h.2
    simp [blockChars, carriage_not_mem_newLine, hv, hvs]
  | .obj ((name, v) :: ms), h => by
    have hv := carriage_not_mem_blockChars (level + 1) v h.2.1
    have hms := carriage_not_mem_blockMembers (level + 1) ms h.2.2
    simp [blockChars, carriage_not_mem_newLine, carriage_not_mem_stringChars, hv, hms]

/-- The text of readable items holds no carriage return. -/
theorem carriage_not_mem_blockItems (level : Nat) :
    (vs : List Json) → ReadableItems vs → '\r' ∉ blockItems level vs
  | [], _ => by simp [blockItems]
  | v :: vs, h => by
    have hv := carriage_not_mem_blockChars level v h.1
    have hvs := carriage_not_mem_blockItems level vs h.2
    simp [blockItems, carriage_not_mem_newLine, hv, hvs]

/-- The text of readable members holds no carriage return. -/
theorem carriage_not_mem_blockMembers (level : Nat) :
    (ms : List (String × Json)) → ReadableMembers ms → '\r' ∉ blockMembers level ms
  | [], _ => by simp [blockMembers]
  | (name, v) :: ms, h => by
    have hv := carriage_not_mem_blockChars level v h.1
    have hms := carriage_not_mem_blockMembers level ms h.2
    simp [blockMembers, carriage_not_mem_newLine, carriage_not_mem_stringChars, hv, hms]

end

end Swimlane.Json
