import SchemaTypes.Declaration.Statistics

/-!
The lines of declarations.

* `Line`: the text of a line and what its writing completes;
* `SchemaNode.lines`: the declaration of one schema, with documentation above
  properties and top-level types on demand;
* `Collection.lines`: the declarations of a collection, one blank line between
  neighbours.
-/

namespace SchemaTypes

/-- One line of output. -/
structure Line where
  text : String
  completes : Option Milestone
deriving DecidableEq

namespace Line

def plain (text : String) : Line := ⟨text, none⟩

def blank : Line := plain ""

end Line

/-- The beginning of every declaration. -/
def declarationHead (name : String) : String := "export type " ++ name ++ " = "

/-! ### Documentation -/

/-- Marks the last line of a block as the one that completes it. -/
def completingLast (milestone : Milestone) : List String → List Line
  | [] => []
  | [text] => [⟨text, some milestone⟩]
  | text :: next :: rest => .plain text :: completingLast milestone (next :: rest)

/-- A blank line and a block. -/
def DocBlock.documentationLines (block : DocBlock) : List Line :=
  .blank :: completingLast .documentation block.lines

/-- What is written above a property's own line. -/
def Property.documentationLines (documentation : Bool) (indent : Indent) (p : Property) :
    List Line :=
  if documentation then
    match p.documentation indent with
    | some block => block.documentationLines
    | none => []
  else []

/-! ### Declarations -/

/-- The text of a property in a record; a property that is not required is
marked as optional. -/
def RecordType.propertyText (type : RecordType) (key : String) (p : Property) : String :=
  "  " ++ key ++ (if type.isRequired key then "" else "?") ++ ": " ++ p.render

/-- The line of a property in a record. -/
def RecordType.propertyLine (type : RecordType) (key : String) (p : Property) : Line :=
  ⟨type.propertyText key p, some .property⟩

/-- The lines between the braces of a record. -/
def RecordType.bodyLines (documentation : Bool) (type : RecordType) : List Line :=
  type.properties.flatMap fun (key, p) =>
    p.documentationLines documentation .property ++ [type.propertyLine key p]

/-- The declaration of a schema. -/
def SchemaNode.lines (documentation : Bool) (name : String) : SchemaNode → List Line
  | record type =>
    .plain (declarationHead name ++ "\x7b") :: type.bodyLines documentation
      ++ [⟨"\x7d", some .record⟩]
  | union type => [⟨declarationHead name ++ type.render, some .union⟩]
  | property node =>
    node.documentationLines documentation .top
      ++ [⟨declarationHead name ++ node.render, some .alias⟩]

/-- Groups of lines with one blank line between neighbours. -/
def separated : List (List Line) → List Line
  | [] => []
  | [group] => group
  | group :: next :: rest => group ++ .blank :: separated (next :: rest)

/-- The declarations of a collection. -/
def Collection.lines (documentation : Bool) (c : Collection) : List Line :=
  separated (c.schemas.map fun (name, node) => node.lines documentation name)

end SchemaTypes
