import SchemaTypes.Schema.Collection

/-!
What a generation has completed.

* `Milestone`: a thing that is complete once a certain line is written;
* `Statistics`: how many of each there are, how many lines, and the warnings;
* `Statistics.record`: one more milestone.
-/

namespace SchemaTypes

/-- A thing that the writing of a line completes. -/
inductive Milestone where
  | record
  | union
  | alias
  | property
  | documentation
deriving DecidableEq

/-- The declaration of a node. -/
def SchemaNode.milestone : SchemaNode → Milestone
  | record _ => .record
  | union _ => .union
  | property _ => .alias

/-- Counts of completed things. -/
structure Statistics where
  types : Nat := 0
  records : Nat := 0
  unions : Nat := 0
  aliases : Nat := 0
  properties : Nat := 0
  documentation : Nat := 0
  lines : Nat := 0
  warnings : List Warning := []
deriving DecidableEq

namespace Statistics

/-- Counts a milestone; a declaration also counts as a type. -/
def record (s : Statistics) : Milestone → Statistics
  | .record => { s with types := s.types + 1, records := s.records + 1 }
  | .union => { s with types := s.types + 1, unions := s.unions + 1 }
  | .alias => { s with types := s.types + 1, aliases := s.aliases + 1 }
  | .property => { s with properties := s.properties + 1 }
  | .documentation => { s with documentation := s.documentation + 1 }

/-- Adds warnings behind those there are. -/
def warn (s : Statistics) (warnings : List Warning) : Statistics :=
  { s with warnings := s.warnings ++ warnings }

end Statistics

end SchemaTypes
