/-!
Documentation blocks.

* `Indent`: the place of a block, which decides how far its lines are moved
  in;
* `DocBlock`: the entries of a block in order;
* `DocBlock.lines`: the opening marker, one line per entry, and the closing
  marker.
-/

namespace SchemaTypes

/-- Where a documentation block stands. -/
inductive Indent where
  /-- Above a property line inside a record. -/
  | property
  /-- Above a declaration. -/
  | top
deriving DecidableEq

/-- The blanks in front of every line of a block. -/
def Indent.blanks : Indent → String
  | property => "  "
  | top => ""

/-- A comment block that describes a schema node. -/
structure DocBlock where
  indent : Indent
  entries : List String
deriving DecidableEq

namespace DocBlock

/-- A block without entries. -/
def empty (indent : Indent) : DocBlock := ⟨indent, []⟩

/-- The block with one more entry at its end. -/
def push (block : DocBlock) (entry : String) : DocBlock :=
  { block with entries := block.entries ++ [entry] }

/-- A block without entries is not worth writing. -/
def isEmpty (block : DocBlock) : Bool := block.entries.isEmpty

def opening : String := "/**"

def closing : String := "**/"

/-- The line of an entry, without the blanks in front. -/
def entryLine (entry : String) : String := "* " ++ entry

/-- Every line of the block. -/
def lines (block : DocBlock) : List String :=
  (opening :: block.entries.map entryLine ++ [closing]).map (block.indent.blanks ++ ·)

/-- The lines of the block, each ended by a line feed. -/
def text (block : DocBlock) : String := String.join (block.lines.map (· ++ "\n"))

end DocBlock

end SchemaTypes
