import Swimlane.Bpmn.Xml
import Swimlane.Proofs.Assoc

/-!
# Looking into XML elements

A query says what is read off a single element.  `collect` runs a query over an element and all
that is inside of it, in the order of the text.  A vocabulary says which tags an element and what
is inside of it may have, and with which attributes: what asks for other tags finds nothing there.

## Key results

- `collect_block`: what is found in an element with children
- `collect_eq_nil`, `collect_children_eq_nil`: nothing is found beyond the vocabulary
- `speaks_block`: the vocabulary of an element with children
-/

namespace Swimlane.Xml

variable {α : Type}

/-- The tag of an element. -/
def tag : Xml → String
  | leaf tag _ => tag
  | text tag _ _ => tag
  | block tag _ _ => tag

/-- The attributes of an element. -/
def attributes : Xml → List (String × String)
  | leaf _ attributes => attributes
  | text _ attributes _ => attributes
  | block _ attributes _ => attributes

/-- The elements directly inside of an element. -/
def children : Xml → List Xml
  | block _ _ children => children
  | _ => []

/-- The text inside of an element. -/
def content : Xml → String
  | text _ _ content => content
  | _ => ""

section Fields

variable (name : String) (given : List (String × String)) (inner : String) (xs : List Xml)

@[simp] theorem tag_leaf : (leaf name given).tag = name := rfl
@[simp] theorem tag_text : (text name given inner).tag = name := rfl
@[simp] theorem tag_block : (block name given xs).tag = name := rfl
@[simp] theorem attributes_leaf : (leaf name given).attributes = given := rfl
@[simp] theorem attributes_text : (text name given inner).attributes = given := rfl
@[simp] theorem attributes_block : (block name given xs).attributes = given := rfl
@[simp] theorem children_leaf : (leaf name given).children = [] := rfl
@[simp] theorem children_text : (text name given inner).children = [] := rfl
@[simp] theorem children_block : (block name given xs).children = xs := rfl
@[simp] theorem content_text : (text name given inner).content = inner := rfl

end Fields

/-- The value of an attribute. -/
def attribute? (name : String) (x : Xml) : Option String := Assoc.get? name x.attributes

mutual

/-- An element and all elements inside of it, in the order of the text. -/
def elements : Xml → List Xml
  | leaf tag attributes => [leaf tag attributes]
  | text tag attributes content => [text tag attributes content]
  | block tag attributes children => block tag attributes children :: allElements children

/-- Elements and all elements inside of them. -/
def allElements : List Xml → List Xml
  | [] => []
  | x :: rest => elements x ++ allElements rest

end

theorem allElements_eq_flatMap (xs : List Xml) : allElements xs = xs.flatMap elements := by
  induction xs with
  | nil => rfl
  | cons x rest ih => rw [allElements, ih, List.flatMap_cons]

@[simp] theorem elements_block (tag : String) (attributes : List (String × String))
    (children : List Xml) : (block tag attributes children).elements =
      block tag attributes children :: children.flatMap elements := by
  rw [elements, allElements_eq_flatMap]

theorem self_mem_elements (x : Xml) : x ∈ x.elements := by
  cases x <;> simp [elements]

/-! ## Queries -/

/-- What a query finds in an element and inside of it, in the order of the text. -/
def collect (query : Xml → List α) (x : Xml) : List α := x.elements.flatMap query

@[simp] theorem collect_leaf (query : Xml → List α) (tag : String)
    (attributes : List (String × String)) :
    (leaf tag attributes).collect query = query (leaf tag attributes) := by
  simp [collect, elements]

@[simp] theorem collect_text (query : Xml → List α) (tag : String)
    (attributes : List (String × String)) (content : String) :
    (text tag attributes content).collect query = query (text tag attributes content) := by
  simp [collect, elements]

/-- In an element with children a query finds what it finds in the element itself, and then what
    it finds in the children. -/
@[simp] theorem collect_block (query : Xml → List α) (tag : String)
    (attributes : List (String × String)) (children : List Xml) :
    (block tag attributes children).collect query =
      query (block tag attributes children) ++ children.flatMap (collect query) := by
  simp only [collect, elements_block, List.flatMap_cons, List.flatMap_assoc]
  rfl

/-- What is directly inside of a part of an element is a part of it too. -/
theorem mem_elements_of_child (x : Xml) : ∀ e ∈ x.elements, ∀ c ∈ e.children, c ∈ x.elements := by
  match x with
  | leaf .. => simp [elements]
  | text .. => simp [elements]
  | block tag attributes cs =>
    intro e he c hc
    rw [elements_block, List.mem_cons, List.mem_flatMap] at he ⊢
    right
    rcases he with rfl | ⟨child, hchild, he⟩
    · exact ⟨c, hc, self_mem_elements c⟩
    · exact ⟨child, hchild, mem_elements_of_child child e he c hc⟩

/-- The parts of a part of an element are parts of it. -/
theorem elements_subset (x : Xml) : ∀ e ∈ x.elements, e.elements ⊆ x.elements := by
  match x with
  | leaf .. => simp [elements]
  | text .. => simp [elements]
  | block tag attributes children =>
    intro e he
    rw [elements_block, List.mem_cons, List.mem_flatMap] at he
    rcases he with rfl | ⟨child, hchild, he⟩
    · exact fun _ h => h
    · intro y hy
      rw [elements_block, List.mem_cons, List.mem_flatMap]
      exact Or.inr ⟨child, hchild, elements_subset child e he hy⟩

/-! ## Vocabularies -/

/-- Tags with the attributes that they may have, in their order. -/
abbrev Vocabulary := List (String × List String)

/-- A tag with some attributes is in a vocabulary. -/
def Vocabulary.Has (words : Vocabulary) (tag : String) (attributes : List (String × String)) :
    Prop :=
  ∃ names, (tag, names) ∈ words ∧ (attributes.map (·.1)).Sublist names

/-- All parts of an element keep to a vocabulary. -/
def Speaks (words : Vocabulary) (x : Xml) : Prop := ∀ e ∈ x.elements, words.Has e.tag e.attributes

section Speaks

variable {words : Vocabulary} {x : Xml}

theorem speaks_leaf {tag : String} {attributes : List (String × String)} :
    (leaf tag attributes).Speaks words ↔ words.Has tag attributes := by
  simp [Speaks, elements]

theorem speaks_text {tag : String} {attributes : List (String × String)} {content : String} :
    (text tag attributes content).Speaks words ↔ words.Has tag attributes := by
  simp [Speaks, elements]

theorem speaks_block {tag : String} {attributes : List (String × String)} {children : List Xml} :
    (block tag attributes children).Speaks words ↔
      words.Has tag attributes ∧ ∀ c ∈ children, c.Speaks words := by
  simp only [Speaks, elements_block, List.mem_cons, List.mem_flatMap, forall_eq_or_imp, tag_block,
    attributes_block]
  refine and_congr_right fun _ => ⟨fun h c hc e he => h e ⟨c, hc, he⟩, ?_⟩
  rintro h e ⟨c, hc, he⟩
  exact h c hc e he

theorem Vocabulary.Has.mono {tag : String} {attributes : List (String × String)}
    (h : words.Has tag attributes) {more : Vocabulary} (hsub : words ⊆ more) :
    more.Has tag attributes := by
  obtain ⟨names, hmem, hnames⟩ := h
  exact ⟨names, hsub hmem, hnames⟩

theorem Speaks.mono {more : Vocabulary} (hsub : words ⊆ more) (h : x.Speaks words) :
    x.Speaks more := by
  intro e he
  exact (h e he).mono hsub

theorem Vocabulary.Has.tag_mem {tag : String} {attributes : List (String × String)}
    (h : words.Has tag attributes) : tag ∈ words.map (·.1) := by
  obtain ⟨names, hmem, _⟩ := h
  exact List.mem_map.mpr ⟨_, hmem, rfl⟩

/-- An attribute that the vocabulary does not have is not there. -/
theorem Vocabulary.Has.attribute? {e : Xml} (h : words.Has e.tag e.attributes) {name : String}
    (hname : ∀ w ∈ words, name ∉ w.2) : e.attribute? name = none := by
  obtain ⟨names, hmem, hsub⟩ := h
  exact Assoc.get?_eq_none fun hin => hname _ hmem (hsub.subset hin)

/-- A query finds nothing in elements of a vocabulary. -/
def Vocabulary.Silent (words : Vocabulary) (query : Xml → List α) : Prop :=
  ∀ e : Xml, words.Has e.tag e.attributes → query e = []

/-- A query for what the vocabulary does not have finds nothing. -/
theorem collect_eq_nil (h : x.Speaks words) {query : Xml → List α} (hq : words.Silent query) :
    x.collect query = [] := by
  rw [collect, List.flatMap_eq_nil_iff]
  exact fun e he => hq e (h e he)

/-- A query for children that the vocabulary does not have finds nothing either. -/
theorem collect_children_eq_nil (h : x.Speaks words) {query : Xml → List α}
    (hq : ∀ e : Xml, (∀ c ∈ e.children, words.Has c.tag c.attributes) → query e = []) :
    x.collect query = [] := by
  rw [collect, List.flatMap_eq_nil_iff]
  exact fun e he => hq e fun c hc => h c (mem_elements_of_child x e he c hc)

end Speaks

end Swimlane.Xml
