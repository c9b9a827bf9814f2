import Swimlane.Assoc
import Swimlane.Text.Quoted
import Swimlane.Text.Utf8

/-!
# Files

Files by their paths, as the program sees them: paths are brought into one form, and a file that
cannot be read or written is a fault with the number and the words of the operating system.
A folder is a value that holds files, so that what the program does to its files can be told
without a disk.
-/

namespace Swimlane

/-! ## Paths -/

namespace Path

/-- The slashes at the start of a path in one form: one, or exactly two. -/
def root (cs : List Char) : List Char :=
  match (cs.takeWhile (· == '/')).length with
  | 0 => []
  | 2 => ['/', '/']
  | _ => ['/']

/-- The texts between the slashes of a path. -/
def split : List Char → List (List Char)
  | [] => [[]]
  | c :: cs =>
    match c, split cs with
    | '/', parts => [] :: parts
    | c, part :: parts => (c :: part) :: parts
    | c, [] => [[c]]

/-- The names on a path, without those that lead nowhere. -/
def names (cs : List Char) : List (List Char) :=
  (split cs).filter fun part => !part.isEmpty && part != ['.']

/-- A path in its one form; an empty one is the folder itself. -/
def normalize (path : String) : String :=
  let cs := path.toList
  match root cs ++ ['/'].intercalate (names cs) with
  | [] => "."
  | normal => String.ofList normal

end Path

/-! ## Faults -/

/-- Why a file cannot be read or written. -/
structure FileFault where
  code : Nat
  reason : String
  path : String
  deriving DecidableEq, Repr

namespace FileFault

/-- The message of a fault. -/
def message (f : FileFault) : String :=
  s!"[Errno {f.code}] {f.reason}: {Text.quote f.path}"

/-- There is no such file. -/
def missing (path : String) : FileFault := ⟨2, "No such file or directory", path⟩

/-- A folder stands where a file should. -/
def isFolder (path : String) : FileFault := ⟨21, "Is a directory", path⟩

/-- A file stands where a folder should. -/
def notFolder (path : String) : FileFault := ⟨20, "Not a directory", path⟩

/-- A name is longer than names may be. -/
def longName (path : String) : FileFault := ⟨36, "File name too long", path⟩

end FileFault

/-! ## Access -/

/-- How files are read and written. -/
structure Files (m : Type → Type) where
  /-- The bytes of the file at a path. -/
  read : String → m (Except FileFault (List Nat))
  /-- Puts bytes into the file at a path. -/
  write : String → List Nat → m (Except FileFault Unit)

/-! ## Folders -/

/-- The files of a folder with the names on their paths. -/
structure Folder where
  files : List (List String × List Nat)

namespace Folder

/-- What stands at a place in or around a folder. -/
inductive Place where
  /-- A file, or nothing yet, in the folder. -/
  | file (names : List String)
  /-- The folder itself or a folder in it. -/
  | folder (names : List String)
  /-- A folder around the folder. -/
  | outside

/-- The bytes of a file. -/
def find? (d : Folder) (names : List String) : Option (List Nat) := Assoc.get? names d.files

/-- Whether there is a folder of the given names. -/
def hasFolder (d : Folder) (names : List String) : Bool :=
  names.isEmpty || d.files.any fun (file, _) => names.isPrefixOf file && file != names

/-- The longest that a name may be, in bytes. -/
def nameLimit : Nat := 255

/-- The longest that a path may be, in bytes. -/
def pathLimit : Nat := 4095

/-- The place that a name leads to from another place. -/
def step (d : Folder) (path : String) (place : Place) (name : String) : Except FileFault Place :=
  match place with
  | .outside =>
    if name = ".." then .ok .outside
    else if nameLimit < name.utf8ByteSize then .error (.longName path)
    else .error (.missing path)
  | .file names =>
    if (d.find? names).isSome then .error (.notFolder path) else .error (.missing path)
  | .folder names =>
    if name = ".." then .ok (if names.isEmpty then .outside else .folder names.dropLast)
    else if nameLimit < name.utf8ByteSize then .error (.longName path)
    else
      let names := names ++ [name]
      .ok (if d.hasFolder names then .folder names else .file names)

/-- The names of the file at a path, whether it is there or not. -/
def locate (d : Folder) (path : String) : Except FileFault (List String) := do
  if pathLimit < path.utf8ByteSize then throw (.longName path)
  let start := if (Path.root path.toList).isEmpty then .folder [] else .outside
  let names := (Path.names path.toList).map String.ofList
  match ← names.foldlM (d.step path) start with
  | .file names => return names
  | _ => throw (.isFolder path)

/-- The bytes of the file at a path. -/
def read (d : Folder) (path : String) : Except FileFault (List Nat) := do
  match d.find? (← d.locate path) with
  | some bytes => return bytes
  | none => throw (.missing path)

/-- The folder with bytes in the file at a path. -/
def write (d : Folder) (path : String) (bytes : List Nat) : Except FileFault Folder := do
  return ⟨Assoc.put (← d.locate path) bytes d.files⟩

/-- Access to the files of a folder. -/
def access : Files (StateM Folder) where
  read path := do return (← get).read path
  write path bytes := do
    match (← get).write path bytes with
    | .ok d => set d; return .ok ()
    | .error fault => return .error fault

end Folder

end Swimlane
