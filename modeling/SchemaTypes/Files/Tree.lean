import SchemaTypes.Files.Fault
import SchemaTypes.Text.Split

/-!
A tree of files.

A tree has no links, and its root is the current directory: all paths start there, with
or without a slash in front, and what is above the root is the root again.

* `FileTree`: the files and directories below a root, each at its place;
* `FileTree.locate`: the place that a path names, every directory on the way
  being there;
* `FileTree.read`, `FileTree.remove`, `FileTree.makeDirectory`,
  `FileTree.append`: the operations on files, and when they are refused.
-/

namespace SchemaTypes

/-- What is at a place of a tree: a file or a directory, but no link. -/
inductive Entry where
  | file (bytes : ByteArray)
  | directory

instance : DecidableEq Entry
  | .file a, .file b =>
    match ByteArray.decEq a b with
    | .isTrue h => .isTrue (h ▸ rfl)
    | .isFalse h => .isFalse fun e => h (Entry.file.inj e)
  | .file _, .directory => .isFalse nofun
  | .directory, .file _ => .isFalse nofun
  | .directory, .directory => .isTrue rfl

/-- A place: the names on the way from the root. -/
abbrev Place := List String

/-- The order of places: a place stands before what is below it, and names go by
their code points. -/
def Place.before (a b : Place) : Bool :=
  a.lex b fun s t => s.toList.lex t.toList fun c d => c.toNat < d.toNat

/-- Files and directories by their places, without links. The root is there without entry,
and is the current directory. -/
structure FileTree where
  entries : List (Place × Entry) := []
deriving DecidableEq

namespace FileTree

/-- What is at a place. -/
def get? (t : FileTree) (place : Place) : Option Entry :=
  if place = [] then some .directory else t.entries.lookup place

/-- The tree without what is at a place. -/
def erase (t : FileTree) (place : Place) : FileTree :=
  ⟨t.entries.filter (·.1 ≠ place)⟩

/-- The tree with an entry at a place, in the stead of what is there. -/
def put (t : FileTree) (place : Place) (entry : Entry) : FileTree :=
  ⟨(place, entry) :: (t.erase place).entries⟩

/-- All places with their entries in order, each directory before what is in
it. -/
def listing (t : FileTree) : List (Place × Entry) :=
  t.entries.mergeSort fun a b => !Place.before b.1 a.1

/-! ### Paths -/

/-- A name is at most so many octets long. -/
def nameLimit : Nat := 255

/-- The place reached from a place by parts of a path, all of them
directories. -/
def walk (t : FileTree) : Place → List String → Except FileFault Place
  | place, [] => .ok place
  | place, part :: rest =>
    if part = "" ∨ part = "." then walk t place rest
    else if part = ".." then walk t place.dropLast rest
    else if nameLimit < part.utf8ByteSize then .error .nameTooLong
    else
      match t.get? (place ++ [part]) with
      | none => .error .notFound
      | some (.file _) => .error .notADirectory
      | some .directory => walk t (place ++ [part]) rest

/-- What a path names: a directory that is there by its very name, or a name
in a directory, which may be marked as a directory by a slash behind it. -/
inductive Target where
  | fixed (place : Place)
  | entry (place : Place) (marked : Bool)
deriving DecidableEq

/-- What a path names. Every path starts at the root, which is above itself. -/
def locate (t : FileTree) (path : String) : Except FileFault Target :=
  let parts := (splitAt (· = '/') path.toList).map String.ofList
  let named := (parts.reverse.dropWhile (· = "")).reverse
  match named.reverse with
  | [] => if path = "" then .error .notFound else .ok (.fixed [])
  | last :: before => do
    let parent ← t.walk [] before.reverse
    if last = "." then return .fixed parent
    else if last = ".." then return .fixed parent.dropLast
    else if nameLimit < last.utf8ByteSize then throw .nameTooLong
    else return .entry (parent ++ [last]) (named.length < parts.length)

/-! ### Operations -/

/-- The bytes of a file. A directory opens, but has no bytes. -/
def read (t : FileTree) (path : String) : Except ReadFault ByteArray :=
  match t.locate path with
  | .error fault => .error (.unopened fault)
  | .ok (.fixed _) => .error (.unmapped .noDevice)
  | .ok (.entry place marked) =>
    match t.get? place with
    | none => .error (.unopened .notFound)
    | some .directory => .error (.unmapped .noDevice)
    | some (.file bytes) => if marked then .error (.unopened .notADirectory) else .ok bytes

/-- Whether a path names a directory. -/
def isDirectory (t : FileTree) (path : String) : Bool :=
  match t.locate path with
  | .error _ => false
  | .ok (.fixed _) => true
  | .ok (.entry place _) => t.get? place = some .directory

/-- The tree without a file. -/
def remove (t : FileTree) (path : String) : Except FileFault FileTree :=
  match t.locate path with
  | .error fault => .error fault
  | .ok (.fixed _) => .error .isADirectory
  | .ok (.entry place marked) =>
    match t.get? place with
    | none => .error .notFound
    | some .directory => .error .isADirectory
    | some (.file _) => if marked then .error .notADirectory else .ok (t.erase place)

/-- The tree with one more directory. -/
def makeDirectory (t : FileTree) (path : String) : Except FileFault FileTree :=
  match t.locate path with
  | .error fault => .error fault
  | .ok (.fixed _) => .error .alreadyExists
  | .ok (.entry place _) =>
    match t.get? place with
    | none => .ok (t.put place .directory)
    | some _ => .error .alreadyExists

/-- The tree with bytes behind those of a file, which need not be there
before. -/
def append (t : FileTree) (path : String) (bytes : ByteArray) : Except FileFault FileTree :=
  match t.locate path with
  | .error fault => .error fault
  | .ok (.fixed _) => .error .isADirectory
  | .ok (.entry place marked) =>
    if marked then .error .isADirectory
    else
      match t.get? place with
      | some .directory => .error .isADirectory
      | some (.file held) => .ok (t.put place (.file (held ++ bytes)))
      | none => .ok (t.put place (.file bytes))

end FileTree

end SchemaTypes
