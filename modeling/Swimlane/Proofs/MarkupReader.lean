import Swimlane.Proofs.Entities
import Swimlane.Proofs.XmlTree

/-!
# Reading markup

A plain reader of tags, one character after the other: tags with double-quoted attributes, texts
and the five entities.  It knows nothing of BPMN, does not look at which characters a text has, and
keeps every blank.  It refuses a text in which tags are not closed in their order, in which a `&`
does not begin an entity, or which has other than one element at its top.

The lines of an element are read back as the element itself, with the line breaks and the
indentation as texts between its children, whatever its attributes and texts hold.

## Key results

- `run_openChars`, `run_closeChars`: what becomes of tags
- `run_chars`: the lines of an element
- `read_document`: the text of a document
-/

namespace Swimlane

/-- Markup as it is read: elements and texts. -/
inductive Markup where
  | element (tag : String) (attributes : List (String × String)) (content : List Markup)
  | text (content : String)
  deriving Repr

namespace Markup

/-! ## The reader -/

/-- A character of the name of a tag or an attribute. -/
def isNameChar (c : Char) : Bool := c.isAlphanum || c ∈ [':', '_', '-', '.']

/-- A character between attributes. -/
def isBlank (c : Char) : Bool := c ∈ [' ', '\t', '\n', '\r']

/-- A text, if there is one. -/
def ofText (cs : List Char) : List Markup := if cs = [] then [] else [.text (String.ofList cs)]

/-- A text of blanks only. -/
def isGap : Markup → Bool
  | .text content => content.toList.all isBlank
  | .element .. => false

/-- Where a reader is, with what it has read there and not yet used. -/
inductive Mode where
  /-- Between tags. -/
  | content (raw : List Char)
  /-- Behind `<`. -/
  | opened
  /-- Behind `<?`, and whether the last character was `?`. -/
  | instruction (mark : Bool)
  /-- In the name of a tag. -/
  | name (tag : List Char)
  /-- In a tag between attributes, and whether there was a blank. -/
  | inside (tag : String) (attributes : List (String × String)) (blank : Bool)
  /-- In the name of an attribute. -/
  | attribute (tag : String) (attributes : List (String × String)) (name : List Char)
  /-- Behind `=`. -/
  | equals (tag : String) (attributes : List (String × String)) (name : String)
  /-- In the value of an attribute. -/
  | value (tag : String) (attributes : List (String × String)) (name : String) (raw : List Char)
  /-- Behind the `/` at the end of a tag without content. -/
  | lone (tag : String) (attributes : List (String × String))
  /-- Behind `</`. -/
  | closing (tag : List Char)

/-- An element that is still open, with what stands before it in the element around it. -/
structure Frame where
  tag : String
  attributes : List (String × String)
  before : List Markup

/-- A reader in the midst of a text. -/
structure Reader where
  mode : Mode
  /-- What was read in the innermost open element. -/
  content : List Markup
  /-- The open elements, the innermost first. -/
  around : List Frame

namespace Reader

/-- A reader at the start of a text. -/
def start : Reader := ⟨.content [], [], []⟩

/-- The next character between the attributes of a tag. -/
def stepInside (r : Reader) (tag : String) (attributes : List (String × String)) (blank : Bool)
    (c : Char) : Option Reader :=
  if isBlank c then some { r with mode := .inside tag attributes true }
  else if c = '/' then some { r with mode := .lone tag attributes }
  else if c = '>' then some ⟨.content [], [], ⟨tag, attributes, r.content⟩ :: r.around⟩
  else if blank && isNameChar c then some { r with mode := .attribute tag attributes [c] }
  else none

/-- The end of a closing tag: it has to be that of the innermost open element. -/
def close (r : Reader) (tag : String) : Option Reader :=
  match r.around with
  | [] => none
  | f :: rest =>
    if f.tag = tag then
      some ⟨.content [], f.before ++ [.element f.tag f.attributes r.content], rest⟩
    else none

/-- The next character. -/
def step (r : Reader) (c : Char) : Option Reader :=
  match r.mode with
  | .content raw =>
    if c = '<' then
      (decode raw).map fun text => { r with mode := .opened, content := r.content ++ ofText text }
    else some { r with mode := .content (raw ++ [c]) }
  | .opened =>
    if c = '/' then some { r with mode := .closing [] }
    else if c = '?' then
      -- Instructions stand only in front of everything else.
      if r.content.isEmpty && r.around.isEmpty then some { r with mode := .instruction false }
      else none
    else if isNameChar c then some { r with mode := .name [c] }
    else none
  | .instruction mark =>
    if mark && c = '>' then some { r with mode := .content [] }
    else some { r with mode := .instruction (c = '?') }
  | .name tag =>
    if isNameChar c then some { r with mode := .name (tag ++ [c]) }
    else r.stepInside (String.ofList tag) [] false c
  | .inside tag attributes blank => r.stepInside tag attributes blank c
  | .attribute tag attributes name =>
    if isNameChar c then some { r with mode := .attribute tag attributes (name ++ [c]) }
    else if c = '=' then some { r with mode := .equals tag attributes (String.ofList name) }
    else none
  | .equals tag attributes name =>
    if c = '"' then some { r with mode := .value tag attributes name [] } else none
  | .value tag attributes name raw =>
    if c = '"' then
      (decode raw).map fun value =>
        { r with mode := .inside tag (attributes ++ [(name, String.ofList value)]) false }
    else if c = '<' then none
    else some { r with mode := .value tag attributes name (raw ++ [c]) }
  | .lone tag attributes =>
    if c = '>' then
      some { r with mode := .content [], content := r.content ++ [.element tag attributes []] }
    else none
  | .closing tag =>
    if isNameChar c then some { r with mode := .closing (tag ++ [c]) }
    else if c = '>' then r.close (String.ofList tag)
    else none

/-- Several characters, one after the other. -/
def run (r : Reader) (cs : List Char) : Option Reader := cs.foldlM step r

/-- The element that was read, if nothing is open and nothing but blanks is around it. -/
def result (r : Reader) : Option Markup :=
  match r.mode, r.around with
  | .content raw, [] =>
    if raw.all isBlank then
      match r.content.filter (!·.isGap) with
      | [.element tag attributes content] => some (.element tag attributes content)
      | _ => none
    else none
  | _, _ => none

end Reader

/-- The element that a text is the markup of. -/
def read (text : String) : Option Markup := (Reader.start.run text.toList).bind Reader.result

example : read "<?xml?>\n<a x=\"&lt;1\">&amp;lt; <b /></a>" =
    some (.element "a" [("x", "<1")] [.text "&lt; ", .element "b" [] []]) := by cbv

example : (read "<a><b></a></b>").isNone = true := by cbv

/-! ## Tags -/

/-- Neither quotes nor brackets are left in an escaped text. -/
theorem plain_escapeChars {cs : List Char} : ∀ c ∈ Xml.escapeChars cs, c ≠ '"' ∧ c ≠ '<' := by
  intro c hc
  constructor
  · rintro rfl
    exact Xml.not_mem_escapeChars (by decide) (by decide) cs hc
  · rintro rfl
    exact Xml.not_mem_escapeChars (by decide) (by decide) cs hc

/-- Whether a text is the name of a tag or an attribute. -/
def isName (name : String) : Bool := !name.toList.isEmpty && name.toList.all isNameChar

theorem isName_iff {name : String} : isName name = true ↔
    name.toList ≠ [] ∧ ∀ c ∈ name.toList, isNameChar c = true := by
  simp [isName]

/-- A name does not start like the end of a tag. -/
theorem not_end_of_isNameChar {c : Char} (h : isNameChar c = true) :
    isBlank c = false ∧ c ≠ '/' ∧ c ≠ '>' ∧ c ≠ '?' := by
  have hother : ∀ d ∈ [' ', '\t', '\n', '\r', '/', '>', '?'], c ≠ d := by
    rintro d hd rfl
    have hnot : [' ', '\t', '\n', '\r', '/', '>', '?'].all (!isNameChar ·) = true := by decide
    simpa [h] using List.all_eq_true.mp hnot c hd
  simp only [List.forall_mem_cons, List.not_mem_nil, false_implies, implies_true, and_true]
    at hother
  simp [isBlank, hother]

namespace Reader

variable (content : List Markup) (around : List Frame)

theorem run_append (r : Reader) (xs ys : List Char) :
    r.run (xs ++ ys) = (r.run xs).bind fun r' => r'.run ys := by
  simp [run, List.foldlM_append, Option.bind_eq_bind]

theorem run_cons (r : Reader) (c : Char) (cs : List Char) :
    r.run (c :: cs) = (r.step c).bind fun r' => r'.run cs := by
  simp [run, List.foldlM_cons, Option.bind_eq_bind]

/-- Characters are gathered as long as each of them is kept. -/
theorem run_gather (mode : List Char → Mode) {cs : List Char}
    (h : ∀ raw, ∀ c ∈ cs, step ⟨mode raw, content, around⟩ c =
      some ⟨mode (raw ++ [c]), content, around⟩) (raw : List Char) :
    run ⟨mode raw, content, around⟩ cs = some ⟨mode (raw ++ cs), content, around⟩ := by
  induction cs generalizing raw with
  | nil => rw [List.append_nil]; rfl
  | cons c rest ih =>
    rw [run_cons, h raw c List.mem_cons_self, Option.bind_some,
      ih fun raw d hd => h raw d (List.mem_cons_of_mem c hd)]
    simp

/-- A text goes on up to the next tag. -/
theorem run_text {cs : List Char} (h : ∀ c ∈ cs, c ≠ '<') (raw : List Char) :
    run ⟨.content raw, content, around⟩ cs = some ⟨.content (raw ++ cs), content, around⟩ := by
  apply run_gather content around .content
  intro raw c hc
  simp [step, h c hc]

/-- An attribute is read with its value, whatever the value holds. -/
theorem run_attributeChars (tag : String) (attributes : List (String × String)) (blank : Bool)
    {name : String} (hname : isName name = true) (value : String) :
    run ⟨.inside tag attributes blank, content, around⟩ (Xml.attributeChars (name, value)) =
      some ⟨.inside tag (attributes ++ [(name, value)]) false, content, around⟩ := by
  obtain ⟨hne, hchars⟩ := isName_iff.mp hname
  obtain ⟨c, rest, hc⟩ := List.exists_cons_of_ne_nil hne
  rw [hc] at hchars
  have hfirst : isNameChar c = true := hchars c List.mem_cons_self
  have hgather : run ⟨.attribute tag attributes [c], content, around⟩ rest =
      some ⟨.attribute tag attributes (c :: rest), content, around⟩ :=
    run_gather content around (.attribute tag attributes)
      (fun raw d hd => by simp [step, hchars d (List.mem_cons_of_mem c hd)]) [c]
  have hvalue : run ⟨.value tag attributes name [], content, around⟩
      (Xml.escapeChars value.toList) =
      some ⟨.value tag attributes name (Xml.escapeChars value.toList), content, around⟩ := by
    rw [run_gather content around (.value tag attributes name)
      (fun raw d hd => by simp [step, plain_escapeChars d hd]) [], List.nil_append]
  have hstart : step ⟨.inside tag attributes true, content, around⟩ c =
      some ⟨.attribute tag attributes [c], content, around⟩ := by
    simp [step, stepInside, not_end_of_isNameChar hfirst, hfirst]
  have hblank : step ⟨.inside tag attributes blank, content, around⟩ ' ' =
      some ⟨.inside tag attributes true, content, around⟩ := rfl
  have hequals : step ⟨.attribute tag attributes (c :: rest), content, around⟩ '=' =
      some ⟨.equals tag attributes name, content, around⟩ := by
    rw [← hc]
    simp [step, isNameChar]
  have hquote : step ⟨.equals tag attributes name, content, around⟩ '"' =
      some ⟨.value tag attributes name [], content, around⟩ := rfl
  have hend :
      step ⟨.value tag attributes name (Xml.escapeChars value.toList), content, around⟩ '"' =
      some ⟨.inside tag (attributes ++ [(name, value)]) false, content, around⟩ := by
    simp [step, decode_escapeChars]
  simp only [Xml.attributeChars, hc, List.cons_append, List.append_assoc, run_cons, run_append,
    hblank, hstart, hgather, hequals, hquote, hvalue, hend, Option.bind_some]
  rfl

theorem run_attributes (tag : String) {given : List (String × String)}
    (hnames : ∀ a ∈ given, isName a.1 = true) (attributes : List (String × String)) :
    run ⟨.inside tag attributes false, content, around⟩ (given.flatMap Xml.attributeChars) =
      some ⟨.inside tag (attributes ++ given) false, content, around⟩ := by
  induction given generalizing attributes with
  | nil => rw [List.append_nil]; rfl
  | cons a rest ih =>
    rw [List.flatMap_cons, run_append,
      run_attributeChars content around tag attributes false (hnames a List.mem_cons_self) a.2,
      Option.bind_some, ih fun b hb => hnames b (List.mem_cons_of_mem a hb)]
    simp

/-- Behind the name of a tag its attributes follow, or its end. -/
theorem run_name_end (tag : String) {c : Char} (hc : isNameChar c = false) (rest : List Char) :
    run ⟨.name tag.toList, content, around⟩ (c :: rest) =
      run ⟨.inside tag [] false, content, around⟩ (c :: rest) := by
  have hstep : step ⟨.name tag.toList, content, around⟩ c =
      step ⟨.inside tag [] false, content, around⟩ c := by simp [step, stepInside, hc]
  rw [run_cons, run_cons, hstep]

/-- The start of a tag is read up to its end, a blank or a bracket. -/
theorem run_openChars {raw text : List Char} (hraw : decode raw = some text) {tag : String}
    (htag : isName tag = true) {attributes : List (String × String)}
    (hnames : ∀ a ∈ attributes, isName a.1 = true) {c : Char} (hc : isNameChar c = false)
    (rest : List Char) :
    run ⟨.content raw, content, around⟩ (Xml.openChars tag attributes ++ c :: rest) =
      run ⟨.inside tag attributes false, content ++ ofText text, around⟩ (c :: rest) := by
  obtain ⟨hne, hchars⟩ := isName_iff.mp htag
  obtain ⟨d, ds, hd⟩ := List.exists_cons_of_ne_nil hne
  rw [hd] at hchars
  have hfirst : isNameChar d = true := hchars d List.mem_cons_self
  have hbracket : step ⟨.content raw, content, around⟩ '<' =
      some ⟨.opened, content ++ ofText text, around⟩ := by simp [step, hraw]
  have hstart : step ⟨.opened, content ++ ofText text, around⟩ d =
      some ⟨.name [d], content ++ ofText text, around⟩ := by
    simp [step, not_end_of_isNameChar hfirst, hfirst]
  have hgather : run ⟨.name [d], content ++ ofText text, around⟩ ds =
      some ⟨.name tag.toList, content ++ ofText text, around⟩ := by
    rw [hd]
    exact run_gather (content ++ ofText text) around .name
      (fun raw e he => by simp [step, hchars e (List.mem_cons_of_mem d he)]) [d]
  -- Either an attribute or the end of the tag comes next.
  have hnext : run ⟨.name tag.toList, content ++ ofText text, around⟩
      (attributes.flatMap Xml.attributeChars ++ c :: rest) =
      run ⟨.inside tag [] false, content ++ ofText text, around⟩
        (attributes.flatMap Xml.attributeChars ++ c :: rest) := by
    cases attributes with
    | nil => exact run_name_end _ _ tag hc rest
    | cons a more =>
      simp only [List.flatMap_cons, Xml.attributeChars, List.cons_append]
      exact run_name_end _ _ tag (by decide) _
  simp only [Xml.openChars, hd, List.cons_append, List.append_assoc, run_cons _ '<', run_cons _ d,
    hbracket, hstart, Option.bind_some]
  rw [run_append, hgather, Option.bind_some, hnext, run_append, run_attributes _ _ tag hnames,
    Option.bind_some, List.nil_append]

section Ends

variable {content around} {raw text : List Char} (hraw : decode raw = some text) {tag : String}
  (htag : isName tag = true) {attributes : List (String × String)}
  (hnames : ∀ a ∈ attributes, isName a.1 = true)

include hraw htag hnames

theorem run_loneTag :
    run ⟨.content raw, content, around⟩ (Xml.openChars tag attributes ++ [' ', '/', '>']) =
      some ⟨.content [], content ++ ofText text ++ [.element tag attributes []], around⟩ := by
  rw [run_openChars content around hraw htag hnames (by decide)]
  rfl

theorem run_openTag :
    run ⟨.content raw, content, around⟩ (Xml.openChars tag attributes ++ ['>']) =
      some ⟨.content [], [], ⟨tag, attributes, content ++ ofText text⟩ :: around⟩ := by
  rw [run_openChars content around hraw htag hnames (by decide)]
  rfl

end Ends

/-- A closing tag ends the innermost open element. -/
theorem run_closeChars {raw text : List Char} (hraw : decode raw = some text) {tag : String}
    (htag : isName tag = true) (attributes : List (String × String)) (before : List Markup) :
    run ⟨.content raw, content, ⟨tag, attributes, before⟩ :: around⟩ (Xml.closeChars tag) =
      some ⟨.content [], before ++ [.element tag attributes (content ++ ofText text)], around⟩ := by
  have hbracket : step ⟨.content raw, content, ⟨tag, attributes, before⟩ :: around⟩ '<' =
      some ⟨.opened, content ++ ofText text, ⟨tag, attributes, before⟩ :: around⟩ := by
    simp [step, hraw]
  have hslash : step ⟨.opened, content ++ ofText text, ⟨tag, attributes, before⟩ :: around⟩ '/' =
      some ⟨.closing [], content ++ ofText text, ⟨tag, attributes, before⟩ :: around⟩ := rfl
  have hgather : run ⟨.closing [], content ++ ofText text, ⟨tag, attributes, before⟩ :: around⟩
      tag.toList = some ⟨.closing tag.toList, content ++ ofText text,
        ⟨tag, attributes, before⟩ :: around⟩ :=
    run_gather (content ++ ofText text) (⟨tag, attributes, before⟩ :: around) .closing
      (fun raw c hc => by simp [step, (isName_iff.mp htag).2 c hc]) []
  have hend : step ⟨.closing tag.toList, content ++ ofText text,
      ⟨tag, attributes, before⟩ :: around⟩ '>' =
      some ⟨.content [], before ++ [.element tag attributes (content ++ ofText text)], around⟩ := by
    simp [step, close, isNameChar]
  simp only [Xml.closeChars, List.cons_append, run_cons _ '<', run_cons _ '/', hbracket, hslash,
    Option.bind_some]
  rw [run_append, hgather, Option.bind_some, run_cons, hend]
  rfl

end Reader

end Markup

/-! ## Elements -/

open Markup

namespace Xml

/-- The line break in front of a line at the given level, with its indentation. -/
def gapChars (level : Nat) : List Char := '\n' :: List.replicate (2 * level) ' '

/-- The text between elements at the given level. -/
def gap (level : Nat) : Markup := .text (String.ofList (gapChars level))

mutual

/-- An element at the given level as markup: its tag, its attributes and its text as they are, and
    line breaks with indentation around its children. -/
def markup (level : Nat) : Xml → Markup
  | leaf tag attributes => .element tag attributes []
  | text tag attributes content => .element tag attributes (ofText content.toList)
  | block tag attributes children =>
    .element tag attributes (allMarkup (level + 1) children ++ [gap level])

/-- Elements at the given level, each behind a line break. -/
def allMarkup (level : Nat) : List Xml → List Markup
  | [] => []
  | x :: rest => gap level :: markup level x :: allMarkup level rest

end

/-- Whether the tags and the attributes of a vocabulary have names. -/
def Vocabulary.isNamed (words : Vocabulary) : Bool :=
  words.all fun w => isName w.1 && w.2.all isName

theorem Vocabulary.Has.isName {words : Vocabulary} (hw : words.isNamed = true) {tag : String}
    {attributes : List (String × String)} (h : words.Has tag attributes) :
    isName tag = true ∧ ∀ a ∈ attributes, isName a.1 = true := by
  obtain ⟨names, hmem, hsub⟩ := h
  have hword := List.all_eq_true.mp hw _ hmem
  rw [Bool.and_eq_true, List.all_eq_true] at hword
  exact ⟨hword.1, fun a ha => hword.2 a.1 (hsub.subset (List.mem_map_of_mem ha))⟩

end Xml

namespace Markup.Reader

open Xml

variable (content : List Markup) (around : List Frame)

theorem decode_gapChars (level : Nat) : decode (gapChars level) = some (gapChars level) := by
  apply decode_eq_self
  simp [gapChars]

/-- A line goes on behind its indentation. -/
theorem run_lineChars (level : Nat) (cs : List Char) :
    run ⟨.content ['\n'], content, around⟩ (lineChars level cs) =
      run ⟨.content (gapChars level), content, around⟩ (cs ++ ['\n']) := by
  rw [lineChars, List.append_assoc, run_append, run_text]
  · rfl
  · intro c hc
    rw [List.eq_of_mem_replicate hc]
    decide

theorem ofText_gapChars (level : Nat) : ofText (gapChars level) = [gap level] := rfl

theorem run_newline : run ⟨.content [], content, around⟩ ['\n'] =
    some ⟨.content ['\n'], content, around⟩ := rfl

/-- The line in front of a document is passed over. -/
theorem run_declaration : run start declaration.toList = some ⟨.content ['\n'], [], []⟩ := by
  cbv

mutual

/-- The lines of an element are read as the element, between line breaks. -/
theorem run_chars {words : Vocabulary} (hw : words.isNamed = true) (level : Nat) (x : Xml)
    (h : x.Speaks words) (content : List Markup) (around : List Frame) :
    run ⟨.content ['\n'], content, around⟩ (chars level x) =
      some ⟨.content ['\n'], content ++ [gap level, x.markup level], around⟩ := by
  -- Before and behind every element the reader holds a line break that it has not used yet.
  match x with
  | .leaf tag attributes =>
    obtain ⟨htag, hnames⟩ := (speaks_leaf.mp h).isName hw
    rw [chars, run_lineChars, run_append, run_loneTag (decode_gapChars level) htag hnames,
      Option.bind_some, run_newline, ofText_gapChars, markup]
    simp
  | .text tag attributes inner =>
    obtain ⟨htag, hnames⟩ := (speaks_text.mp h).isName hw
    have hplain : ∀ c ∈ escapeChars inner.toList, c ≠ '<' := fun c hc => (plain_escapeChars c hc).2
    -- The text is escaped, so the next bracket is that of the closing tag.
    have hsplit : openChars tag attributes ++ '>' :: escapeChars inner.toList ++ closeChars tag =
        (openChars tag attributes ++ ['>']) ++ (escapeChars inner.toList ++ closeChars tag) := by
      simp
    rw [chars, run_lineChars, run_append, hsplit, run_append,
      run_openTag (decode_gapChars level) htag hnames, Option.bind_some, run_append,
      run_text _ _ hplain, Option.bind_some, List.nil_append,
      run_closeChars _ _ (decode_escapeChars _) htag, Option.bind_some, run_newline,
      ofText_gapChars, markup]
    simp
  | .block tag attributes children =>
    obtain ⟨htag, hnames⟩ := (speaks_block.mp h).1.isName hw
    rw [chars, run_append, run_append, run_lineChars, run_append,
      run_openTag (decode_gapChars level) htag hnames, Option.bind_some, run_newline,
      Option.bind_some, run_allChars hw (level + 1) children (speaks_block.mp h).2,
      Option.bind_some, run_lineChars, run_append, run_closeChars _ _ (decode_gapChars level) htag,
      Option.bind_some, run_newline, ofText_gapChars, markup]
    simp

theorem run_allChars {words : Vocabulary} (hw : words.isNamed = true) (level : Nat) (xs : List Xml)
    (h : ∀ x ∈ xs, x.Speaks words) (content : List Markup) (around : List Frame) :
    run ⟨.content ['\n'], content, around⟩ (allChars level xs) =
      some ⟨.content ['\n'], content ++ allMarkup level xs, around⟩ := by
  match xs with
  | [] => rw [allMarkup, List.append_nil]; rfl
  | x :: rest =>
    rw [allChars, run_append, run_chars hw level x (h x List.mem_cons_self), Option.bind_some,
      run_allChars hw level rest fun y hy => h y (List.mem_cons_of_mem x hy), allMarkup]
    simp

end

end Markup.Reader

/-- The text of a document is read as its root element. -/
theorem Markup.read_document {words : Xml.Vocabulary} (hw : words.isNamed = true) {root : Xml}
    (h : root.Speaks words) : read root.document = some (root.markup 0) := by
  have hrun : Reader.start.run root.document.toList =
      some ⟨.content ['\n'], [Xml.gap 0, root.markup 0], []⟩ := by
    rw [Xml.document, String.toList_append, Reader.run_append, Reader.run_declaration,
      Option.bind_some, String.toList_ofList, Reader.run_chars hw 0 root h]
    rfl
  rw [read, hrun, Option.bind_some]
  cases root <;> rfl

end Swimlane
