import Swimlane.Proofs.Placeholders

/-!
# Braces in parts of a text

A text is read in parts that were cut out of a line.  A placeholder is lost if a cut goes through
it, and a new one may come up where two parts are joined.  Neither happens behind a part in which
every opening brace is closed, nor in front of a part without a closing brace.

## Key results

- `braced_append`: when the placeholders and the stray braces of two texts are those of both
- `exists_inner?_of_tidy`: in a text without stray braces every opening brace opens a placeholder
- `braced_intercalate`: what is in texts without stray braces is in all of them together
- `Encloses.braced_eq`: text without braces around another text does not matter
-/

namespace Swimlane.Placeholder

/-! ## Parts with braces -/

/-- Whether a part has braces: a placeholder, or a brace outside of all placeholders. -/
def Part.isBraced : Part → Bool
  | .char c => c == '{' || c == '}'
  | .variable _ => true

/-- The placeholders and the stray braces of a text, in order. -/
def braced (cs : List Char) : List Part := (parts cs).filter Part.isBraced

/-- The names of the placeholders among the parts with braces. -/
def bracedNames (cs : List Char) : List String := (braced cs).filterMap Part.name?

/-- A text without stray braces. -/
def Tidy (cs : List Char) : Prop := ∀ part ∈ braced cs, part.isStrayBrace = false

theorem bracedNames_eq_occurrences (cs : List Char) : bracedNames cs = occurrences cs := by
  rw [← filterMap_parts, bracedNames, braced, List.filterMap_filter]
  refine List.filterMap_congr fun part _ => ?_
  rcases part with c | name
  · rw [Part.name?, ite_self]
  · rfl

theorem names_eq_bracedNames (s : String) : names s = (bracedNames s.toList).eraseDups := by
  rw [names_eq_occurrences, bracedNames_eq_occurrences]

/-- Stray braces are among the parts with braces. -/
theorem any_braced (cs : List Char) :
    (braced cs).any Part.isStrayBrace = (parts cs).any Part.isStrayBrace := by
  rw [braced, List.any_filter]
  refine List.any_congr rfl fun part => ?_
  rcases part with c | name
  · exact Bool.and_self _
  · rfl

theorem hasStrayBrace_eq (s : String) :
    hasStrayBrace s = (braced s.toList).any Part.isStrayBrace :=
  (any_braced s.toList).symm

theorem tidy_iff {s : String} : Tidy s.toList ↔ hasStrayBrace s = false := by
  rw [hasStrayBrace_eq, List.any_eq_false]
  exact forall₂_congr fun _ _ => by rw [Bool.not_eq_true]

/-- What a text mentions that has the placeholders and the stray braces of some texts. -/
theorem names_of_braced_eq {s : String} {texts : List String}
    (h : braced s.toList = texts.flatMap fun t => braced t.toList) :
    names s = (texts.flatMap names).eraseDups ∧ hasStrayBrace s = texts.any hasStrayBrace := by
  have hnames : bracedNames s.toList = texts.flatMap fun t => bracedNames t.toList := by
    rw [bracedNames, h, List.filterMap_flatMap]
    rfl
  have hstray : texts.any hasStrayBrace =
      texts.any fun t => (braced t.toList).any Part.isStrayBrace :=
    List.any_congr rfl fun t => hasStrayBrace_eq t
  constructor
  · rw [names_eq_bracedNames, hnames, ← eraseDups_flatMap_eraseDups]
    exact congrArg List.eraseDups (List.flatMap_congr fun t _ => (names_eq_bracedNames t).symm)
  · rw [hasStrayBrace_eq, h, List.any_flatMap, hstray]

/-- Texts with the same placeholders and stray braces mention the same variables, and either both
    have a stray brace or none has. -/
theorem names_and_hasStrayBrace_congr {s t : String} (h : braced s.toList = braced t.toList) :
    names s = names t ∧ hasStrayBrace s = hasStrayBrace t := by
  rw [names_eq_bracedNames, names_eq_bracedNames, hasStrayBrace_eq, hasStrayBrace_eq, bracedNames,
    bracedNames, h]
  exact ⟨rfl, rfl⟩

/-! ## Joining texts -/

/-- A text in which every opening brace has a closing one behind it. -/
def Closes (cs : List Char) : Prop := ∀ before behind, cs = before ++ '{' :: behind → '}' ∈ behind

theorem Closes.of_append (front : List Char) {rest : List Char} (h : Closes (front ++ rest)) :
    Closes rest :=
  fun before behind heq => h (front ++ before) behind (by rw [heq, List.append_assoc])

theorem closes_of_not_mem {cs : List Char} (h : '{' ∉ cs) : Closes cs :=
  fun before behind heq => absurd (by rw [heq]; simp) h

/-- In front of a closing brace everything is closed. -/
theorem closes_append_closing (cs : List Char) : Closes (cs ++ ['}']) := by
  intro before behind heq
  have hlast := congrArg List.getLast? heq
  rw [List.getLast?_concat, List.getLast?_append, List.getLast?_cons] at hlast
  cases hbehind : behind.getLast? with
  | none => rw [hbehind] at hlast; cases hlast
  | some c =>
    rw [hbehind] at hlast
    cases hlast
    exact List.mem_of_getLast? hbehind

/-! ## Text without braces -/

/-- Text without braces. -/
def Braceless (cs : List Char) : Prop := '{' ∉ cs ∧ '}' ∉ cs

theorem braceless_nil : Braceless [] := ⟨List.not_mem_nil, List.not_mem_nil⟩

theorem Braceless.append {cs x : List Char} (h : Braceless cs) (hx : Braceless x) :
    Braceless (cs ++ x) :=
  ⟨fun hmem => (List.mem_append.mp hmem).elim h.1 hx.1,
    fun hmem => (List.mem_append.mp hmem).elim h.2 hx.2⟩

/-- Characters of a class without braces. -/
theorem braceless_of_forall {p : Char → Bool} (hopening : p '{' = false) (hclosing : p '}' = false)
    {cs : List Char} (h : ∀ c ∈ cs, p c = true) : Braceless cs := by
  refine ⟨fun hmem => ?_, fun hmem => ?_⟩
  · exact Bool.false_ne_true (hopening.symm.trans (h _ hmem))
  · exact Bool.false_ne_true (hclosing.symm.trans (h _ hmem))

theorem braceless_of_isBlank {cs : List Char} (h : ∀ c ∈ cs, Text.isBlank c = true) :
    Braceless cs :=
  braceless_of_forall (by decide) (by decide) h

theorem IsName.braceless {name : List Char} (h : IsName name) : Braceless name :=
  braceless_of_forall (by decide) (by decide) h.isNameChar

/-! ## Parts in a row -/

/-- What stands in a placeholder between its braces has no braces. -/
theorem inner?_eq_some {cs name rest : List Char} (h : inner? cs = some (name, rest)) :
    ∃ inside, cs = inside ++ '}' :: rest ∧ '{' ∉ inside ∧ '}' ∉ inside := by
  obtain ⟨hname, before, after, hbefore, hafter, rfl⟩ := inner?_eq_some_iff.mp h
  exact ⟨before ++ (name ++ after), by simp, (braceless_of_isBlank hbefore).append
    (hname.braceless.append (braceless_of_isBlank hafter))⟩

/-- A placeholder that is not closed in a text is not closed behind it either, unless there is a
    closing brace. -/
theorem inner?_append {cs x : List Char} (h : '}' ∈ cs ∨ '}' ∉ x) :
    inner? (cs ++ x) = (inner? cs).map fun found => (found.1, found.2 ++ x) := by
  cases hfound : inner? cs with
  | some found =>
    obtain ⟨hname, before, after, hbefore, hafter, rfl⟩ := inner?_eq_some_iff.mp hfound
    exact inner?_eq_some_iff.mpr ⟨hname, before, after, hbefore, hafter, by simp⟩
  | none =>
    cases hlonger : inner? (cs ++ x) with
    | none => rfl
    | some found =>
      obtain ⟨inside, heq, _, hinside⟩ := inner?_eq_some hlonger
      -- The closing brace is in `x`, or else the placeholder is in `cs` already.
      rcases List.append_eq_append_iff.mp heq with ⟨more, rfl, rfl⟩ | ⟨more, rfl, hmore⟩
      · rcases h with h | h
        · exact absurd (List.mem_append_left _ h) hinside
        · simp at h
      · cases more with
        | nil =>
          rw [List.append_nil] at h
          rw [List.nil_append] at hmore
          rcases h with h | h
          · exact absurd h hinside
          · rw [← hmore] at h; simp at h
        | cons c more =>
          obtain ⟨rfl, hrest⟩ := List.cons.inj hmore
          obtain ⟨hname, before, after, hbefore, hafter, hcs⟩ := inner?_eq_some_iff.mp hlonger
          have hshorter : inner? (inside ++ '}' :: more) = some (found.1, more) := by
            refine inner?_eq_some_iff.mpr ⟨hname, before, after, hbefore, hafter, ?_⟩
            rw [hrest] at hcs
            have hcut : (inside ++ '}' :: more) ++ x =
                (before ++ (found.1 ++ (after ++ '}' :: more))) ++ x := by rw [hcs]; simp
            exact List.append_cancel_right hcut
          rw [hshorter] at hfound
          cases hfound

/-- The parts of a text with a placeholder at its front. -/
theorem parts_of_inner? {cs name rest : List Char} (h : inner? cs = some (name, rest)) :
    parts ('{' :: cs) = .variable name :: parts rest := by
  rw [parts, if_pos rfl]
  split
  · rename_i heq
    cases h.symm.trans heq
    rfl
  · rename_i heq
    cases h.symm.trans heq

/-- The parts of a text with a brace at its front that opens no placeholder. -/
theorem parts_of_inner?_eq_none {cs : List Char} (h : inner? cs = none) :
    parts ('{' :: cs) = .char '{' :: parts cs := by
  rw [parts, if_pos rfl]
  split
  · rename_i heq
    cases h.symm.trans heq
  · rfl

/-- The parts of two texts in a row are those of the first and those of the second, unless a
    placeholder goes from the one to the other. -/
theorem parts_append {cs x : List Char} (h : Closes cs ∨ '}' ∉ x) :
    parts (cs ++ x) = parts cs ++ parts x := by
  fun_induction parts cs with
  | case1 => rfl
  | case2 cs name rest hfound _ ih =>
    have hclosing : '}' ∈ cs := by
      obtain ⟨inside, rfl, _⟩ := inner?_eq_some hfound
      simp
    have hrest : Closes rest ∨ '}' ∉ x := by
      obtain ⟨inside, rfl, _⟩ := inner?_eq_some hfound
      refine h.imp_left fun h => Closes.of_append ('{' :: inside ++ ['}']) ?_
      simpa using h
    have hlonger := inner?_append (x := x) (Or.inl hclosing)
    rw [hfound, Option.map_some] at hlonger
    rw [List.cons_append, parts_of_inner? hlonger, List.cons_append, ← ih hrest]
  | case3 cs hnone ih =>
    have hclosing : '}' ∈ cs ∨ '}' ∉ x := h.imp_left fun h => h [] cs rfl
    have hlonger := inner?_append hclosing
    rw [hnone, Option.map_none] at hlonger
    rw [List.cons_append, parts_of_inner?_eq_none hlonger, List.cons_append,
      ← ih (h.imp_left (Closes.of_append ['{']))]
  | case4 c cs hc ih =>
    rw [List.cons_append, parts, if_neg hc, List.cons_append,
      ← ih (h.imp_left (Closes.of_append [c]))]

theorem braced_append {cs x : List Char} (h : Closes cs ∨ '}' ∉ x) :
    braced (cs ++ x) = braced cs ++ braced x := by
  rw [braced, parts_append h, List.filter_append, braced, braced]

theorem Braceless.closes {cs : List Char} (h : Braceless cs) : Closes cs := closes_of_not_mem h.1

theorem braced_of_braceless {cs : List Char} (h : Braceless cs) : braced cs = [] := by
  obtain ⟨hopening, hclosing⟩ := h
  induction cs with
  | nil => rw [braced, parts]; rfl
  | cons c cs ih =>
    rw [List.mem_cons, not_or] at hopening hclosing
    rw [braced, parts, if_neg (Ne.symm hopening.1), List.filter_cons_of_neg, ← braced,
      ih hopening.2 hclosing.2]
    simp [Part.isBraced, Ne.symm hopening.1, Ne.symm hclosing.1]

/-! ## Texts without stray braces -/

/-- Behind a placeholder a text goes on with the next opening brace. -/
theorem eq_append_of_inside {inside rest before behind : List Char} (hinside : '{' ∉ inside)
    (h : inside ++ '}' :: rest = before ++ '{' :: behind) :
    ∃ between, rest = between ++ '{' :: behind := by
  rcases List.append_eq_append_iff.mp h with ⟨more, rfl, hmore⟩ | ⟨more, rfl, hmore⟩
  · cases more with
    | nil => cases hmore
    | cons c more => exact ⟨more, (List.cons.inj hmore).2⟩
  · cases more with
    | nil => cases hmore
    | cons c more =>
      rw [← (List.cons.inj hmore).1] at hinside
      simp at hinside

/-- In a text without stray braces, every opening brace opens a placeholder. -/
theorem exists_inner?_of_tidy {cs before behind : List Char} (h : Tidy cs)
    (hcs : cs = before ++ '{' :: behind) : ∃ found, inner? behind = some found := by
  unfold Tidy braced at h
  fun_induction parts cs generalizing before with
  | case1 => simp at hcs
  | case2 cs name rest hfound _ ih =>
    cases before with
    | nil => exact ⟨_, (List.cons.inj hcs).2 ▸ hfound⟩
    | cons c before =>
      obtain ⟨inside, rfl, hopening, _⟩ := inner?_eq_some hfound
      obtain ⟨between, hrest⟩ := eq_append_of_inside hopening (List.cons.inj hcs).2
      refine ih (fun part hpart => h part ?_) hrest
      rw [List.filter_cons_of_pos rfl]
      exact List.mem_cons_of_mem _ hpart
  | case3 cs hnone ih => exact absurd (h (.char '{') (by simp [Part.isBraced])) (by decide)
  | case4 c cs hc ih =>
    cases before with
    | nil => exact absurd (List.cons.inj hcs).1 hc
    | cons d before =>
      refine ih (fun part hpart => h part ?_) (List.cons.inj hcs).2
      rw [List.filter_cons]
      split
      · exact List.mem_cons_of_mem _ hpart
      · exact hpart

theorem Tidy.closes {cs : List Char} (h : Tidy cs) : Closes cs := by
  intro before behind hcs
  obtain ⟨found, hfound⟩ := exists_inner?_of_tidy h hcs
  obtain ⟨inside, rfl, _⟩ := inner?_eq_some hfound
  simp

/-- Texts without stray braces, with blanks between them, have the placeholders of all. -/
theorem braced_intercalate {texts : List String} (h : ∀ t ∈ texts, hasStrayBrace t = false) :
    braced (" ".intercalate texts).toList = texts.flatMap fun t => braced t.toList := by
  have hchars : ∀ pieces : List (List Char), (∀ cs ∈ pieces, Tidy cs) →
      braced ([' '].intercalate pieces) = pieces.flatMap braced := by
    intro pieces hpieces
    induction pieces with
    | nil => exact braced_of_braceless braceless_nil
    | cons cs rest ih =>
      obtain ⟨hcs, hrest⟩ := List.forall_mem_cons.mp hpieces
      cases rest with
      | nil => simp
      | cons cs' rest =>
        have hblank : Braceless [' '] := ⟨by decide, by decide⟩
        rw [List.intercalate_cons_cons, List.append_assoc, braced_append (Or.inl hcs.closes),
          braced_append (Or.inl hblank.closes), braced_of_braceless hblank, ih hrest]
        rfl
  have htidy : ∀ cs ∈ texts.map String.toList, Tidy cs := by
    intro cs hcs
    obtain ⟨t, ht, rfl⟩ := List.mem_map.mp hcs
    exact tidy_iff.mpr (h t ht)
  rw [String.toList_intercalate]
  exact (hchars _ htidy).trans (List.flatMap_map _ _ _)

/-! ## Text around another text -/

/-- A text is another one with text without braces around it. -/
def Encloses (cs inner : List Char) : Prop :=
  ∃ front back, Braceless front ∧ Braceless back ∧ cs = front ++ (inner ++ back)

namespace Encloses

variable {cs inner : List Char}

theorem trans {inmost : List Char} (h : Encloses cs inner) (h' : Encloses inner inmost) :
    Encloses cs inmost := by
  obtain ⟨front, back, hfront, hback, rfl⟩ := h
  obtain ⟨front', back', hfront', hback', rfl⟩ := h'
  exact ⟨front ++ front', back' ++ back, hfront.append hfront', hback'.append hback, by simp⟩

theorem of_front (front : List Char) (h : Braceless front) (inner : List Char) :
    Encloses (front ++ inner) inner :=
  ⟨front, [], h, braceless_nil, by simp⟩

theorem of_back (back : List Char) (h : Braceless back) (inner : List Char) :
    Encloses (inner ++ back) inner :=
  ⟨[], back, braceless_nil, h, by simp⟩

theorem mem {c : Char} (h : Encloses cs inner) (hc : c ∈ inner) : c ∈ cs := by
  obtain ⟨front, back, _, _, rfl⟩ := h
  simp [hc]

/-- The text around does not matter. -/
theorem braced_eq (h : Encloses cs inner) : braced cs = braced inner := by
  obtain ⟨front, back, hfront, hback, rfl⟩ := h
  rw [braced_append (Or.inl hfront.closes), braced_append (Or.inr hback.2),
    braced_of_braceless hfront, braced_of_braceless hback, List.nil_append, List.append_nil]

end Encloses

end Swimlane.Placeholder
