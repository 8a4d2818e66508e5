import SchemaTypes.Declaration.Layout
import SchemaTypes.Declaration.Sink

/-!
Writing declarations.

* `Emitter`: a line sink and the statistics of what it has taken;
* `emitDocumentation`, `emitRecord`, `emitProperty`, `emitSchema`: write one
  part of a declaration, line by line, and count it once it is complete; the
  first line that fails ends the writing;
* `Emitter.emit`: writes the declarations of a collection;
* `Emitter.finish`: the last flush, and the statistics;
* `generate`: all of it for one collection, with its warnings.
-/

namespace SchemaTypes

/-- A destination for declarations. -/
structure Emitter where
  out : LineSink
  documentation : Bool := true
  statistics : Statistics := {}

namespace Emitter

/-- An emitter that has written nothing. -/
def new (sink : Sink) (documentation : Bool) : Emitter := ⟨⟨sink, 0⟩, documentation, {}⟩

/-- Writes a line. -/
def writeLine (text : String) : EStateM WriteFault Emitter Unit := fun e =>
  match LineSink.writeLine text e.out with
  | .ok _ out => .ok () { e with out }
  | .error fault out => .error fault { e with out }

/-- Counts a milestone. -/
def record (milestone : Milestone) : EStateM WriteFault Emitter Unit :=
  modify fun e => { e with statistics := e.statistics.record milestone }

/-! ### Declarations -/

section

variable (documentation : Bool)

/-- Writes a blank line and the block of a property, if it has one and blocks
are asked for. -/
def emitDocumentation (indent : Indent) (p : Property) : EStateM WriteFault Emitter Unit := do
  if documentation then
    match p.documentation indent with
    | none => pure ()
    | some block =>
      writeLine ""
      block.lines.forM writeLine
      record .documentation

/-- Writes a record, one line per property between the braces. -/
def emitRecord (name : String) (type : RecordType) : EStateM WriteFault Emitter Unit := do
  writeLine (declarationHead name ++ "\x7b")
  type.properties.forM fun (key, p) => do
    emitDocumentation documentation .property p
    writeLine (type.propertyText key p)
    record .property
  writeLine "\x7d"

/-- Writes a union on one line. -/
def emitUnion (name : String) (type : UnionType) : EStateM WriteFault Emitter Unit :=
  writeLine (declarationHead name ++ type.render)

/-- Writes a top-level property. A bare reference is never documented. -/
def emitProperty (name : String) (p : Property) : EStateM WriteFault Emitter Unit :=
  match p.kind with
  | .reference target => writeLine (declarationHead name ++ target.name)
  | _ => do
    emitDocumentation documentation .top p
    writeLine (declarationHead name ++ p.render)

/-- Writes the declaration of a schema, then counts it. -/
def emitSchema (name : String) (node : SchemaNode) : EStateM WriteFault Emitter Unit := do
  match node with
  | .record type => emitRecord documentation name type
  | .union type => emitUnion name type
  | .property p => emitProperty documentation name p
  record node.milestone

/-- Writes the schemas from position `index` on, with a blank line in front of
each but the one at position 0. -/
def emitFrom : Nat → List (String × SchemaNode) → EStateM WriteFault Emitter Unit
  | _, [] => pure ()
  | index, (name, node) :: rest => do
    if 0 < index then
      writeLine ""
    emitSchema documentation name node
    emitFrom (index + 1) rest

end

/-- Writes the declarations of a collection. -/
def emit (c : Collection) : EStateM WriteFault Emitter Unit := do
  emitFrom (← get).documentation 0 c.schemas

/-- Flushes once more and gives back the sink and the statistics. -/
def finish (e : Emitter) : EStateM.Result WriteFault Sink Statistics :=
  match e.out.close with
  | .ok _ sink => .ok { e.statistics with lines := e.out.lines } sink
  | .error fault sink => .error fault sink

end Emitter

/-- Writes the declarations of a collection to a sink; the statistics carry the
warnings about the collection. -/
def generate (c : Collection) (warnings : List Warning) (documentation : Bool) (sink : Sink) :
    EStateM.Result WriteFault Sink Statistics :=
  match Emitter.emit c (Emitter.new sink documentation) with
  | .error fault e => .error fault e.out.sink
  | .ok _ e =>
    match e.finish with
    | .ok statistics sink => .ok (statistics.warn warnings) sink
    | .error fault sink => .error fault sink

/-- Reads the schemas of a mapping and writes their declarations to a sink. -/
def generateSchemas (mapping : Fields) (documentation : Bool) (sink : Sink) :
    EStateM.Result WriteFault Sink Statistics :=
  let (collection, warnings) := Collection.ofFields mapping
  generate collection warnings documentation sink

end SchemaTypes
