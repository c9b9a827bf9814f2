/-!
# XML elements

The elements of a document as a tree, and their text: one line for an element without content
or with a text, two spaces per level, and attribute values and texts escaped.
-/

namespace Swimlane

/-- An XML element. -/
inductive Xml where
  /-- An element without content. -/
  | leaf (tag : String) (attributes : List (String × String))
  /-- An element whose content is a text. -/
  | text (tag : String) (attributes : List (String × String)) (content : String)
  /-- An element whose content is elements. -/
  | block (tag : String) (attributes : List (String × String)) (children : List Xml)
  deriving Repr

namespace Xml

/-- The markup characters and the entities that stand for them, in the order in which they are
    replaced. -/
def entities : List (Char × List Char) :=
  [
    ('&', "&amp;".toList), ('<', "&lt;".toList), ('>', "&gt;".toList), ('"', "&quot;".toList),
    ('\'', "&apos;".toList)
  ]

/-- A text with another text in place of every occurrence of a character. -/
def replaceChar (c : Char) (new : List Char) (cs : List Char) : List Char :=
  cs.flatMap fun d => if d = c then new else [d]

/-- A text with its markup characters as entities: they are replaced in the whole text, one after
    the other.  The `&` comes first, since every entity has one. -/
def escapeChars (cs : List Char) : List Char :=
  entities.foldl (fun cs entity => replaceChar entity.1 entity.2 cs) cs

/-- A text with its markup characters as entities. -/
def escape (s : String) : String := String.ofList (escapeChars s.toList)

/-- An attribute, with the blank in front of it. -/
def attributeChars : String × String → List Char
  | (name, value) => ' ' :: name.toList ++ '=' :: '"' :: escapeChars value.toList ++ ['"']

/-- The start of a tag. -/
def openChars (tag : String) (attributes : List (String × String)) : List Char :=
  '<' :: tag.toList ++ attributes.flatMap attributeChars

/-- A closing tag. -/
def closeChars (tag : String) : List Char := '<' :: '/' :: tag.toList ++ ['>']

/-- A line at the given level. -/
def lineChars (level : Nat) (cs : List Char) : List Char :=
  List.replicate (2 * level) ' ' ++ cs ++ ['\n']

mutual

/-- The lines of an element at the given level. -/
def chars (level : Nat) : Xml → List Char
  | leaf tag attributes => lineChars level (openChars tag attributes ++ [' ', '/', '>'])
  | text tag attributes content =>
    lineChars level
      (openChars tag attributes ++ '>' :: escapeChars content.toList ++ closeChars tag)
  | block tag attributes children =>
    lineChars level (openChars tag attributes ++ ['>']) ++ allChars (level + 1) children ++
      lineChars level (closeChars tag)

/-- The lines of several elements at the given level. -/
def allChars (level : Nat) : List Xml → List Char
  | [] => []
  | x :: rest => chars level x ++ allChars level rest

end

/-- The line in front of a document. -/
def declaration : String := "<?xml version=\"1.0\" encoding=\"UTF-8\"?>\n"

/-- The text of a document with the given root element. -/
def document (root : Xml) : String := declaration ++ String.ofList (chars 0 root)

end Xml

end Swimlane
