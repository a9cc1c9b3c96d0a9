import GraphLowering.Text.Numeral

/-!
# Files and paths

What a path leads to. A path is a list of names divided by slashes, and it is followed one name at a
time: `.` and an empty name stay in a directory, `..` goes up, and any other name goes down to an
entry of the directory. Whatever stands before a slash has to be a directory.

* `Folder` — known files and folders, each under the names that lead to it.
* `FileSystem` — what is known at the root and in the working directory.
* `Place` — where a walk along a path stands.
* `FileSystem.read` — the text of the file at a path, or why there is none.
-/

namespace GraphLowering

/-- What a name in a directory stands for. -/
inductive Entry where
  | file (text : String)
  | folder
  deriving DecidableEq

/-- Known entries, each under the names that lead to it. The folders on the way need no entries of
their own. -/
structure Folder where
  entries : List (List String × Entry)
  deriving DecidableEq

/-- Why a path cannot be read. -/
inductive ReadFault where
  | notFound
  | denied
  | notFolder
  | isFolder
  | nameTooLong
  deriving DecidableEq

namespace ReadFault

/-- The number under which the operating system knows a fault. -/
def number : ReadFault → Nat
  | notFound => 2
  | denied => 13
  | notFolder => 20
  | isFolder => 21
  | nameTooLong => 36

/-- The fault with a number. -/
def ofNumber? : Nat → Option ReadFault
  | 2 => some notFound
  | 13 => some denied
  | 20 => some notFolder
  | 21 => some isFolder
  | 36 => some nameTooLong
  | _ => none

/-- What a fault says. -/
def text : ReadFault → String
  | notFound => "No such file or directory"
  | denied => "Permission denied"
  | notFolder => "Not a directory"
  | isFolder => "Is a directory"
  | nameTooLong => "File name too long"

/-- The wording of a fault, with its number. -/
def message (fault : ReadFault) : String := s!"{fault.text} (os error {fault.number})"

end ReadFault

/-- The bytes that one name may have. -/
def nameLimit : Nat := 255

/-- The bytes that a path may have. -/
def pathLimit : Nat := 4095

/-- The names of a path between its slashes. -/
def pathNames (path : String) : List String :=
  (Text.splitAt '/' path.toList).map String.ofList

/-- Whether a name stays in the directory where it is looked up. -/
def staysHere (name : String) : Bool := name = "" || name = "."

namespace Folder

/-- A folder that holds files under the given paths. -/
def ofFiles (files : List (String × String)) : Folder :=
  ⟨files.map fun (path, text) => ((pathNames path).filter (!staysHere ·), .file text)⟩

/-- The entry under the given names. A folder is one of its own entries, under no name. -/
def entry? (folder : Folder) (names : List String) : Option Entry :=
  match folder.entries.lookup names with
  | some entry => some entry
  | none =>
    if names.isEmpty ∨ folder.entries.any fun (known, _) => names.isPrefixOf known then some .folder
    else none

end Folder

/-- Where a walk starts: at the root, in the working directory, or in a directory above the working
directory, of which only its being a directory is known. -/
inductive Base where
  | root
  | working
  | above
  deriving DecidableEq

/-- Where a walk stands: the names that it has gone down from a base. -/
structure Place where
  base : Base
  names : List String
  deriving DecidableEq

namespace Place

/-- The place under a name. -/
def child (place : Place) (name : String) : Place := { place with names := place.names ++ [name] }

/-- The place one step up. The root is its own parent. -/
def parent (place : Place) : Place :=
  match place.names, place.base with
  | [], .root => ⟨.root, []⟩
  | [], _ => ⟨.above, []⟩
  | names, base => ⟨base, names.dropLast⟩

end Place

/-- What is known of the files: those at the root, and those in the working directory. -/
structure FileSystem where
  root : Folder := ⟨[]⟩
  working : Folder := ⟨[]⟩
  deriving DecidableEq

namespace FileSystem

/-- The entry at a place. -/
def entry? (fs : FileSystem) (place : Place) : Option Entry :=
  match place.base with
  | .root => fs.root.entry? place.names
  | .working => fs.working.entry? place.names
  | .above => Folder.entry? ⟨[]⟩ place.names

/-- Follows one name. -/
def step (fs : FileSystem) (place : Place) (name : String) : Except ReadFault Place :=
  match fs.entry? place with
  | none => .error .notFound
  | some (.file _) => .error .notFolder
  | some .folder =>
    if staysHere name then .ok place
    else if name = ".." then .ok place.parent
    else if nameLimit < name.utf8ByteSize then .error .nameTooLong
    else if (fs.entry? (place.child name)).isSome then .ok (place.child name)
    else .error .notFound

/-- Where a path starts: a leading slash means the root. -/
def start (path : String) : Place :=
  match path.toList with
  | '/' :: _ => ⟨.root, []⟩
  | _ => ⟨.working, []⟩

/-- Follows a path. -/
def walk (fs : FileSystem) (path : String) : Except ReadFault Place :=
  if path.isEmpty then .error .notFound
  else if pathLimit < path.utf8ByteSize then .error .nameTooLong
  else (pathNames path).foldlM fs.step (start path)

/-- The text of the file at a path. -/
def read (fs : FileSystem) (path : String) : Except ReadFault String := do
  let place ← fs.walk path
  match fs.entry? place with
  | some (.file text) => return text
  | some .folder => throw .isFolder
  | none => throw .notFound

end FileSystem

end GraphLowering
