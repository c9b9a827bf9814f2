import Mathlib.Data.List.TakeWhile
import Swimlane.CommandLine.Run
import Swimlane.Proofs.Assoc
import Swimlane.Proofs.Except

/-!
# Texts in files

A text is read back from the file that it was written to.  Three steps have to be undone: the
characters become bytes, the line ends are unified when they are read, and the path has to lead
to the same place in the folder that has the new file.

## Key results

- `Text.Utf8.decode_encode`: a text is read back from its bytes
- `Folder.locate_put`: a new file does not change where its path leads
- `Folder.read_of_write`: what is written at a path is read there
-/

namespace Swimlane

/-! ## Bytes -/

namespace Text.Utf8

/-- A byte that continues a character. -/
theorem isContinuation_iff {b : Nat} : isContinuation b = true ↔ 0x80 ≤ b ∧ b < 0xc0 := by
  simp [isContinuation]

/-- Which byte may follow a first one. -/
theorem isSecond_iff {first second : Nat} : isSecond first second = true ↔
    (0x80 ≤ second ∧ second < 0xc0) ∧ ¬ (first = 0xe0 ∧ second < 0xa0) ∧
      ¬ (first = 0xed ∧ 0xa0 ≤ second) ∧ ¬ (first = 0xf0 ∧ second < 0x90) ∧
      ¬ (first = 0xf4 ∧ 0x90 ≤ second) := by
  simp only [isSecond, isContinuation_iff, Bool.and_eq_true, Bool.not_eq_true',
    Bool.and_eq_false_iff, decide_eq_false_iff_not, beq_eq_false_iff_ne, and_assoc, not_and_or,
    ne_eq]

/-- No character is one half of a pair. -/
theorem toNat_lt (c : Char) : c.toNat < 0xd800 ∨ 0xdfff < c.toNat ∧ c.toNat < 0x110000 :=
  c.valid

/-- A first byte alone is a character if it has the width of one byte. -/
theorem first_of_width_one {b : Nat} (hw : width? b = some 1) (rest : List Nat) :
    first b rest = (.ok (Char.ofNat b), 0) := by
  simp [first, hw, codePoint]

/-- A first byte and as many bytes behind it as its width asks for are a character. -/
theorem first_of_width {b second n : Nat} (more rest : List Nat)
    (hw : width? b = some (more.length + 2)) (hsecond : isSecond b second = true)
    (hmore : ∀ m ∈ more, isContinuation m = true)
    (hcode : codePoint (more.length + 2) b (second :: more) = n) :
    first b (second :: (more ++ rest)) = (.ok (Char.ofNat n), more.length + 1) := by
  have hgood : goodBytes b (more.length + 1) (second :: (more ++ rest)) = more.length + 1 := by
    have htake : (more ++ rest).take more.length = more := List.take_left
    simp only [goodBytes, hsecond, ↓reduceIte, Nat.add_sub_cancel, htake,
      List.takeWhile_eq_self_iff.mpr hmore]
    omega
  have htake : (second :: (more ++ rest)).take (more.length + 1) = second :: more := by
    rw [List.take_succ_cons, List.take_left]
  simp only [first, hw, Nat.add_succ_sub_one, hgood, Nat.le_refl, ↓reduceIte, htake, hcode]

/-- Two bytes: five bits in the first one and six in the second one. -/
theorem first_two {n : Nat} (hlow : 0x80 ≤ n) (hhigh : n < 0x800) (rest : List Nat) :
    first (0xc0 + n / 0x40) ([0x80 + n % 0x40] ++ rest) = (.ok (Char.ofNat n), 1) := by
  have hw : width? (0xc0 + n / 0x40) = some 2 := by
    rw [width?, if_neg (by omega), if_neg (by omega), if_pos (by omega)]
  have hcode : codePoint 2 (0xc0 + n / 0x40) [0x80 + n % 0x40] = n := by
    show (0xc0 + n / 0x40) % 32 * 64 + (0x80 + n % 0x40) % 64 = n
    omega
  exact first_of_width [] rest hw (isSecond_iff.mpr (by omega)) (fun _ h => nomatch h) hcode

/-- Three bytes: the second one rules out overlong forms and halves of pairs. -/
theorem first_three {n : Nat} (hlow : 0x800 ≤ n) (hhigh : n < 0x10000)
    (hpair : n < 0xd800 ∨ 0xdfff < n) (rest : List Nat) :
    first (0xe0 + n / 0x1000) ([0x80 + n / 0x40 % 0x40, 0x80 + n % 0x40] ++ rest) =
      (.ok (Char.ofNat n), 2) := by
  have hw : width? (0xe0 + n / 0x1000) = some 3 := by
    rw [width?, if_neg (by omega), if_neg (by omega), if_neg (by omega), if_pos (by omega)]
  have hcode : codePoint 3 (0xe0 + n / 0x1000) [0x80 + n / 0x40 % 0x40, 0x80 + n % 0x40] = n := by
    show ((0xe0 + n / 0x1000) % 16 * 64 + (0x80 + n / 0x40 % 0x40) % 64) * 64 +
      (0x80 + n % 0x40) % 64 = n
    omega
  refine first_of_width [0x80 + n % 0x40] rest hw (isSecond_iff.mpr (by omega)) ?_ hcode
  intro m hm
  rw [List.mem_singleton.mp hm]
  exact isContinuation_iff.mpr (by omega)

/-- Four bytes: the second one rules out overlong forms and code points that do not exist. -/
theorem first_four {n : Nat} (hlow : 0x10000 ≤ n) (hhigh : n < 0x110000) (rest : List Nat) :
    first (0xf0 + n / 0x40000)
      ([0x80 + n / 0x1000 % 0x40, 0x80 + n / 0x40 % 0x40, 0x80 + n % 0x40] ++ rest) =
      (.ok (Char.ofNat n), 3) := by
  have hw : width? (0xf0 + n / 0x40000) = some 4 := by
    rw [width?, if_neg (by omega), if_neg (by omega), if_neg (by omega), if_neg (by omega),
      if_pos (by omega)]
  have hcode : codePoint 4 (0xf0 + n / 0x40000)
      [0x80 + n / 0x1000 % 0x40, 0x80 + n / 0x40 % 0x40, 0x80 + n % 0x40] = n := by
    show (((0xf0 + n / 0x40000) % 8 * 64 + (0x80 + n / 0x1000 % 0x40) % 64) * 64 +
      (0x80 + n / 0x40 % 0x40) % 64) * 64 + (0x80 + n % 0x40) % 64 = n
    omega
  refine first_of_width [0x80 + n / 0x40 % 0x40, 0x80 + n % 0x40] rest hw
    (isSecond_iff.mpr (by omega)) ?_ hcode
  intro m hm
  rcases List.mem_cons.mp hm with rfl | hm
  · exact isContinuation_iff.mpr (by omega)
  · rw [List.mem_singleton.mp hm]
    exact isContinuation_iff.mpr (by omega)

/-- The first character is read back from its bytes, whatever follows them. -/
theorem first_encodeChar (c : Char) (rest : List Nat) :
    ∃ b more, encodeChar c = b :: more ∧ first b (more ++ rest) = (.ok c, more.length) := by
  have hc := toNat_lt c
  have hback : Char.ofNat c.toNat = c := Char.ofNat_toNat c
  generalize hn : c.toNat = n at hc hback
  simp only [encodeChar, hn]
  rw [← hback]
  by_cases h1 : n < 0x80
  · rw [if_pos h1]
    exact ⟨_, _, rfl, first_of_width_one (if_pos h1) rest⟩
  · rw [if_neg h1]
    by_cases h2 : n < 0x800
    · rw [if_pos h2]
      exact ⟨_, _, rfl, first_two (by omega) h2 rest⟩
    · rw [if_neg h2]
      by_cases h3 : n < 0x10000
      · rw [if_pos h3]
        exact ⟨_, _, rfl, first_three (by omega) h3 (by omega) rest⟩
      · rw [if_neg h3]
        exact ⟨_, _, rfl, first_four (by omega) (by omega) rest⟩

/-- A text is read back from its bytes. -/
theorem decode_encode (s : String) : decode (encode s) = .ok s.toList := by
  have hfrom : ∀ (cs : List Char) (position : Nat),
      decodeFrom position (cs.flatMap encodeChar) = .ok cs := by
    intro cs
    induction cs with
    | nil => intro position; rw [List.flatMap_nil, decodeFrom]
    | cons c cs ih =>
      intro position
      obtain ⟨b, more, hbytes, hfirst⟩ := first_encodeChar c (cs.flatMap encodeChar)
      rw [List.flatMap_cons, hbytes, List.cons_append, decodeFrom, hfirst]
      simp only [List.drop_left, ih]
      rfl
  exact hfrom s.toList 0

end Text.Utf8

/-! ## Line ends -/

/-- A text without carriage returns has unified line ends. -/
theorem Text.unifyLineEnds_of_not_mem {cs : List Char} (h : '\r' ∉ cs) :
    Text.unifyLineEnds cs = cs := by
  induction cs with
  | nil => rfl
  | cons c cs ih =>
    rw [List.mem_cons, not_or] at h
    rw [Text.unifyLineEnds, ih h.2]
    · exact fun _ hc _ => h.1 hc.symm
    · exact fun hc => h.1 hc.symm

/-- A text without carriage returns is read back from the bytes of a file. -/
theorem Command.textOf_encode {s : String} (h : '\r' ∉ s.toList) :
    Command.textOf (Text.Utf8.encode s) = .ok s := by
  rw [Command.textOf, Text.Utf8.decode_encode]
  show Except.ok (String.ofList (Text.unifyLineEnds s.toList)) = .ok s
  rw [Text.unifyLineEnds_of_not_mem h, String.ofList_toList]

/-! ## Places -/

namespace Folder

/-- The folder with bytes in the file of the given names. -/
def put (d : Folder) (target : List String) (bytes : List Nat) : Folder :=
  ⟨Assoc.put target bytes d.files⟩

/-- A new file makes the folders that it is in, and no others. -/
theorem hasFolder_put (d : Folder) (target : List String) (bytes : List Nat)
    (names : List String) : (d.put target bytes).hasFolder names =
      (d.hasFolder names || (names.isPrefixOf target && target != names)) := by
  simp only [hasFolder, put,
    Assoc.any_put (fun file => names.isPrefixOf file && file != names), Bool.or_assoc]

/-- A step that leads to a folder, or to the new file, leads there with the new file too. -/
theorem step_put {d : Folder} {path name : String} {place place' : Place} {target : List String}
    (bytes : List Nat) (h : d.step path place name = .ok place')
    (hfile : ∀ names, place' = .file names → names = target) :
    (d.put target bytes).step path place name = .ok place' := by
  cases place with
  | outside => exact h
  | file names =>
    -- No step leads on from a file.
    rw [step] at h
    split at h <;> cases h
  | folder names =>
    rw [step] at h ⊢
    by_cases hup : name = ".."
    · rw [if_pos hup] at h ⊢
      exact h
    · rw [if_neg hup] at h ⊢
      by_cases hlong : nameLimit < name.utf8ByteSize
      · rw [if_pos hlong] at h
        cases h
      · rw [if_neg hlong] at h ⊢
        cases hfolder : d.hasFolder (names ++ [name]) with
        | true =>
          simp only [hasFolder_put, hfolder, Bool.true_or] at h ⊢
          exact h
        | false =>
          -- The file itself is no folder that it is in.
          simp only [hfolder, Bool.false_eq_true, ↓reduceIte] at h
          cases h
          have htarget := hfile _ rfl
          rw [htarget] at hfolder
          simp [hasFolder_put, hfolder, htarget]

/-- A path that leads to a file leads there with the new file too. -/
theorem foldlM_step_put {d : Folder} {path : String} {target : List String} (bytes : List Nat)
    {names : List String} {place : Place}
    (h : names.foldlM (d.step path) place = .ok (.file target)) :
    names.foldlM ((d.put target bytes).step path) place = .ok (.file target) := by
  induction names generalizing place with
  | nil => exact h
  | cons name rest ih =>
    rw [List.foldlM_cons] at h ⊢
    obtain ⟨place', hstep, hrest⟩ := Except.bind_eq_ok.mp h
    refine Except.bind_eq_ok.mpr ⟨place', step_put bytes hstep fun ns hns => ?_, ih hrest⟩
    -- A file stands at the end of the path.
    subst hns
    cases rest with
    | nil => cases hrest; rfl
    | cons next rest =>
      rw [List.foldlM_cons] at hrest
      obtain ⟨_, hfile, _⟩ := Except.bind_eq_ok.mp hrest
      rw [step] at hfile
      split at hfile <;> cases hfile

/-- A new file does not change where its path leads. -/
theorem locate_put {d : Folder} {path : String} {target : List String} (bytes : List Nat)
    (h : d.locate path = .ok target) : (d.put target bytes).locate path = .ok target := by
  rw [locate] at h ⊢
  split at h
  · cases h
  · rename_i hshort
    rw [if_neg hshort]
    obtain ⟨place, hplace, hend⟩ := Except.bind_eq_ok.mp h
    cases place with
    | file names =>
      cases hend
      exact Except.bind_eq_ok.mpr ⟨_, foldlM_step_put bytes hplace, rfl⟩
    | _ => cases hend

/-- What is written at a path is read there. -/
theorem read_of_write {d d' : Folder} {path : String} {bytes : List Nat}
    (h : d.write path bytes = .ok d') : d'.read path = .ok bytes := by
  obtain ⟨target, htarget, hd⟩ := Except.bind_eq_ok.mp h
  cases hd
  refine Except.bind_eq_ok.mpr ⟨target, locate_put bytes htarget, ?_⟩
  rw [find?, Assoc.get?_put, if_pos (beq_self_eq_true target)]
  rfl

end Folder

end Swimlane
