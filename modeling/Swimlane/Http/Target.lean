import Swimlane.Text.Hexadecimal

/-!
# Request targets

What a request asks for: a path, with a query and a fragment behind it, and a scheme and a host in
front of it or not.
-/

namespace Swimlane.Http.Target

/-- The text without the control characters and blanks in front of it, and without tabs and line
    ends within it. -/
def cleaned (cs : List Char) : List Char :=
  (cs.dropWhile (·.toNat ≤ 0x20)).filter fun c => c != '\t' && c != '\n' && c != '\r'

/-- The characters of a scheme. -/
def isSchemeChar (c : Char) : Bool := c.isAlphanum || c == '+' || c == '-' || c == '.'

/-- What follows the scheme, if there is one. -/
def dropScheme (cs : List Char) : List Char :=
  match cs.span isSchemeChar with
  | (_ :: _, ':' :: rest) => rest
  | _ => cs

/-- The text before a query and a fragment. -/
def dropQuery (cs : List Char) : List Char := cs.takeWhile fun c => c != '?' && c != '#'

/-- Whether a character is written as it is: all others are kept in their escaped form. -/
def isUnreserved (c : Char) : Bool := c.isAlphanum || c == '-' || c == '.' || c == '_' || c == '~'

/-- The text with the escapes of unreserved characters resolved. -/
def unescaped : List Char → List Char
  | '%' :: a :: b :: cs =>
    match (Text.hexByte? a b).map Char.ofNat with
    | some c => if isUnreserved c then c :: unescaped cs else '%' :: a :: b :: unescaped cs
    | none => '%' :: unescaped (a :: b :: cs)
  | c :: cs => c :: unescaped cs
  | [] => []

/-- Walks over the parts of a path: one dot stays, two dots go back. -/
def walked (done : List (List Char)) : List (List Char) → List (List Char)
  | [] => done.reverse
  | part :: rest =>
    let done := match part with
      | ['.'] => done
      | ['.', '.'] => done.tail
      | part => part :: done
    if rest.isEmpty && (part == ['.'] || part == ['.', '.']) then (([] : List Char) :: done).reverse
    else walked done rest

/-- The path behind a host, without parts that stay or go back. -/
def resolved (path : List Char) : List Char :=
  match path with
  | '/' :: rest => '/' :: ['/'].intercalate (walked [] (rest.splitOnP (· == '/')))
  | path => path

/-- The path of a target.  A host in front of it is passed over; an empty one counts as none. -/
def path (target : String) : String :=
  String.ofList <| match dropQuery (dropScheme (cleaned target.toList)) with
    | '/' :: '/' :: '/' :: rest => unescaped ('/' :: rest)
    | '/' :: '/' :: rest => resolved (unescaped (rest.dropWhile (· != '/')))
    | rest => unescaped rest

end Swimlane.Http.Target
