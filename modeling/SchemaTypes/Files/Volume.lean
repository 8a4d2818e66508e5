import SchemaTypes.Files.Path
import SchemaTypes.Files.Tree

/-!
Files with several names, links, and a current directory.

* `Volume`: the names, directories and links of a file system, the bytes of its
  files, and the directory that relative paths start at;
* `Volume.stride`, `Volume.resolve`: what parts of a path lead to, up to the first
  link and with links followed;
* `Volume.locate`: what a path leads to;
* `Volume.read`, `Volume.remove`, `Volume.makeDirectory`, `Volume.append`: the
  operations on files, and when they are refused.
-/

namespace SchemaTypes

/-- What is at a place of a volume. -/
inductive VolumeEntry where
  /-- A name of a file, which may have others. -/
  | file (node : Nat)
  | directory
  /-- A link to what a path leads to, from the directory that the link is in. -/
  | link (path : String)
deriving DecidableEq

/-- A file system: what is at its places, and what is in its files. The root is there
without entry. -/
structure Volume where
  entries : Place → Option VolumeEntry
  contents : Nat → ByteArray
  /-- The directory that relative paths start at. -/
  current : Place := []
  /-- From here on no file has a name. -/
  unused : Nat
  named : ∀ place node, entries place = some (.file node) → node < unused

namespace Volume

/-- What is at a place. -/
def get? (v : Volume) (place : Place) : Option VolumeEntry :=
  if place = [] then some .directory else v.entries place

/-! ### Changes -/

/-- The volume without what is at a place. A file that is there keeps its other names. -/
def erase (v : Volume) (place : Place) : Volume :=
  { v with
    entries := fun other => if other = place then none else v.entries other
    named := by
      intro other node h
      split at h
      · cases h
      · exact v.named other node h }

/-- The volume with a directory at a place. -/
def enter (v : Volume) (place : Place) : Volume :=
  { v with
    entries := fun other => if other = place then some .directory else v.entries other
    named := by
      intro other node h
      split at h
      · cases h
      · exact v.named other node h }

/-- The volume with a new file at a place. -/
def create (v : Volume) (place : Place) (bytes : ByteArray) : Volume :=
  { v with
    entries := fun other => if other = place then some (.file v.unused) else v.entries other
    contents := fun node => if node = v.unused then bytes else v.contents node
    unused := v.unused + 1
    named := by
      intro other node h
      split at h
      · cases h
        exact Nat.lt_succ_self _
      · exact Nat.lt_succ_of_lt (v.named other node h) }

/-- The volume with bytes behind those of a file. -/
def extend (v : Volume) (node : Nat) (bytes : ByteArray) : Volume :=
  { v with contents := fun other => if other = node then v.contents other ++ bytes
      else v.contents other }

/-! ### Paths -/

/-- So many links are followed on the way of a path. -/
def linkLimit : Nat := 40

def tooManyLinks : FileFault := .other 40 "Too many levels of symbolic links"

/-- Where the way of some parts of a path ends, or breaks off. -/
inductive Stride where
  | refused (fault : FileFault)
  | arrived (target : FileTree.Target)
  /-- At a link in a directory, with the parts behind it. -/
  | link (parent : Place) (path : String) (rest : List String)

/-- The end of a way, at a name in a directory; empty parts behind the name mark it. A
link is on the way if it is to be followed. -/
def stop (v : Volume) (follow : Bool) (parent : Place) (name : String) (marks : List String) :
    Stride :=
  match v.get? (parent ++ [name]) with
  | some (.link path) =>
    if follow then .link parent path marks
    else .arrived (.entry (parent ++ [name]) (marks ≠ []))
  | _ => .arrived (.entry (parent ++ [name]) (marks ≠ []))

/-- The way of some parts from a directory, up to the first link on it. -/
def stride (v : Volume) (follow : Bool) : Place → List String → Stride
  | place, [] => .arrived (.fixed place)
  | place, part :: rest =>
    if part = "" ∨ part = "." then stride v follow place rest
    else if part = ".." then stride v follow place.dropLast rest
    else if FileTree.nameLimit < part.utf8ByteSize then .refused .nameTooLong
    else if rest.all (· = "") then v.stop follow place part rest
    else
      match v.get? (place ++ [part]) with
      | none => .refused .notFound
      | some (.file _) => .refused .notADirectory
      | some .directory => stride v follow (place ++ [part]) rest
      | some (.link path) => .link place path rest

/-- The directory that a path starts at: the root if a slash is in front. -/
def origin (place : Place) (path : String) : Place :=
  if path.toList.head? = some '/' then [] else place

/-- What some parts lead to from a directory, with so many links followed at most. -/
def resolve (v : Volume) (follow : Bool) :
    Nat → Place → List String → Except FileFault FileTree.Target
  | links, place, parts =>
    match v.stride follow place parts with
    | .refused fault => .error fault
    | .arrived target => .ok target
    | .link parent path rest =>
      match links with
      | 0 => .error tooManyLinks
      | links + 1 => resolve v follow links (origin parent path) (pathParts path ++ rest)

/-- What a path leads to, or if links are not to be followed to the end, what it
names. -/
def locate (v : Volume) (follow : Bool) (path : String) : Except FileFault FileTree.Target :=
  if path = "" then .error .notFound
  else v.resolve follow linkLimit (origin v.current path) (pathParts path)

/-! ### Operations -/

/-- The bytes of a file. A directory opens, but has no bytes. -/
def read (v : Volume) (path : String) : Except ReadFault ByteArray :=
  match v.locate true path with
  | .error fault => .error (.unopened fault)
  | .ok (.fixed _) => .error (.unmapped .noDevice)
  | .ok (.entry place marked) =>
    match v.get? place with
    | none => .error (.unopened .notFound)
    | some (.file node) =>
      if marked then .error (.unopened .notADirectory) else .ok (v.contents node)
    | some _ => .error (.unmapped .noDevice)

/-- Whether a path leads to a directory. -/
def isDirectory (v : Volume) (path : String) : Bool :=
  match v.locate true path with
  | .error _ => false
  | .ok (.fixed _) => true
  | .ok (.entry place _) => v.get? place = some .directory

/-- The volume without a name of a file, or without a link. -/
def remove (v : Volume) (path : String) : Except FileFault Volume :=
  match v.locate false path with
  | .error fault => .error fault
  | .ok (.fixed _) => .error .isADirectory
  | .ok (.entry place marked) =>
    match v.get? place with
    | none => .error .notFound
    | some .directory => .error .isADirectory
    | some _ => if marked then .error .notADirectory else .ok (v.erase place)

/-- The volume with one more directory. -/
def makeDirectory (v : Volume) (path : String) : Except FileFault Volume :=
  match v.locate false path with
  | .error fault => .error fault
  | .ok (.fixed _) => .error .alreadyExists
  | .ok (.entry place _) =>
    match v.get? place with
    | none => .ok (v.enter place)
    | some _ => .error .alreadyExists

/-- The volume with bytes behind those of a file, which is made if it is not there. -/
def append (v : Volume) (path : String) (bytes : ByteArray) : Except FileFault Volume :=
  match v.locate true path with
  | .error fault => .error fault
  | .ok (.fixed _) => .error .isADirectory
  | .ok (.entry place marked) =>
    if marked then .error .isADirectory
    else
      match v.get? place with
      | none => .ok (v.create place bytes)
      | some (.file node) => .ok (v.extend node bytes)
      | some _ => .error .isADirectory

end Volume

end SchemaTypes
