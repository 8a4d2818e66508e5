import SchemaTypes.Text.Join
import SchemaTypes.Text.Split

/-!
Paths of files.

* `pathParts`: the parts of a path between its slashes;
* `Path`: the parts of a path, empty parts and parts that stay in place left
  out;
* `Path.extension?`: the text after the last dot of the last part;
* `Path.parent?`: the path without its last part.
-/

namespace SchemaTypes

/-- The parts of a path between its slashes. -/
def pathParts (path : String) : List String := (splitAt (· = '/') path.toList).map String.ofList

/-- A path. Parts `.` are kept at the beginning of a relative path only. -/
structure Path where
  isAbsolute : Bool
  parts : List String
deriving DecidableEq

namespace Path

/-- The path spelled by a text. -/
def ofString (text : String) : Path :=
  let isAbsolute := text.toList.head? = some '/'
  let parts := ((splitAt (· = '/') text.toList).filter (!·.isEmpty)).map String.ofList
  let leading := if isAbsolute then [] else parts.take 1
  ⟨isAbsolute, leading ++ (parts.drop leading.length).filter (· ≠ ".")⟩

/-- A spelling of a path. -/
def toString (p : Path) : String :=
  (if p.isAbsolute then "/" else "") ++ joinWith "/" p.parts

/-- The last part, if it is a name. -/
def fileName? (p : Path) : Option String :=
  p.parts.getLast?.filter fun part => part ≠ "." && part ≠ ".."

/-- The text after the last dot of a name; a dot in front makes no
extension. -/
def extensionOfName? (name : String) : Option String :=
  let cs := name.toList
  if cs.contains '.' then
    let ext := afterLast '.' cs
    if ext.length + 1 < cs.length then some (String.ofList ext) else none
  else none

/-- The extension of the last part. -/
def extension? (p : Path) : Option String := p.fileName?.bind extensionOfName?

/-- The path without its last part; the root and the empty path have none. -/
def parent? (p : Path) : Option Path :=
  if p.parts.isEmpty then none else some { p with parts := p.parts.dropLast }

/-- Whether the path is the empty one, which stands for the place a relative
path starts at. -/
def isEmpty (p : Path) : Bool := !p.isAbsolute && p.parts.isEmpty

end Path

end SchemaTypes
