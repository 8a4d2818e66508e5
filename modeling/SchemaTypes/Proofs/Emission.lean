import Mathlib.Tactic
import SchemaTypes.Declaration.Emitter

/-!
The emitter writes the lines of the layout.

* `Emitter.writeAll`: writes lines one after the other, each counted for what it
  completes; the first line that fails ends the writing;
* `emitDocumentation_eq`, `emitRecord_eq`, `emitProperty_eq`, `emitSchema_eq`:
  each part of the emitter is the writing of the lines that the layout gives it;
* `emit_eq_writeAll`: the nested loops of the emitter, with all the places where
  they can stop, come to one loop over `Collection.lines`.
-/

namespace SchemaTypes

lemma DocBlock.lines_ne_nil (block : DocBlock) : block.lines ≠ [] := by
  simp [DocBlock.lines]

namespace Emitter

/-- Writes a line, then counts what it completes. -/
def write (line : Line) : EStateM WriteFault Emitter Unit := do
  writeLine line.text
  match line.completes with
  | some milestone => record milestone
  | none => pure ()

/-- Writes lines up to the first that fails. -/
def writeAll (lines : List Line) : EStateM WriteFault Emitter Unit := lines.forM write

@[simp] lemma writeAll_nil : writeAll [] = pure () := rfl

@[simp] lemma writeAll_cons (line : Line) (lines : List Line) :
    writeAll (line :: lines) = (do write line; writeAll lines) := rfl

lemma writeAll_append (xs ys : List Line) :
    writeAll (xs ++ ys) = (do writeAll xs; writeAll ys) :=
  List.forM_append

/-- A plain line completes nothing. -/
@[simp] lemma write_plain (text : String) : write (.plain text) = writeLine text := by
  simp [write, Line.plain]

@[simp] lemma write_blank : write .blank = writeLine "" := write_plain ""

@[simp] lemma write_completing (text : String) (milestone : Milestone) :
    write ⟨text, some milestone⟩ = (do writeLine text; record milestone) := rfl

/-! ### Documentation -/

/-- Counting a milestone after some lines is counting it with the last of them. -/
lemma forM_writeLine_record (milestone : Milestone) :
    ∀ texts : List String, texts ≠ [] →
      (do texts.forM writeLine; record milestone) = writeAll (completingLast milestone texts)
  | [], h => absurd rfl h
  | [text], _ => by simp [completingLast]
  | text :: next :: rest, _ => by
      have ih := forM_writeLine_record milestone (next :: rest) (by simp)
      rw [completingLast, writeAll_cons, write_plain, ← ih]
      simp

section

variable (documentation : Bool)

lemma emitDocumentation_eq (indent : Indent) (p : Property) :
    emitDocumentation documentation indent p
      = writeAll (p.documentationLines documentation indent) := by
  cases documentation with
  | false => simp [emitDocumentation, Property.documentationLines]
  | true =>
      cases hb : p.documentation indent with
      | none => simp [emitDocumentation, Property.documentationLines, hb]
      | some block =>
          have hlast := forM_writeLine_record .documentation block.lines block.lines_ne_nil
          simp only [emitDocumentation, Property.documentationLines, hb, if_true,
            DocBlock.documentationLines, writeAll_cons, write_blank, ← hlast]

/-! ### Declarations -/

/-- The lines of the properties of a record, for any of its properties. -/
lemma forM_properties_eq (type : RecordType) (properties : List (String × Property)) :
    (properties.forM fun (key, p) => do
        emitDocumentation documentation .property p
        writeLine (type.propertyText key p)
        record .property)
      = writeAll (properties.flatMap fun (key, p) =>
          p.documentationLines documentation .property ++ [type.propertyLine key p]) := by
  induction properties with
  | nil => rfl
  | cons entry rest ih =>
      rw [List.flatMap_cons, writeAll_append, writeAll_append, ← ih]
      simp [emitDocumentation_eq, RecordType.propertyLine]

lemma emitRecord_eq (name : String) (type : RecordType) :
    (do emitRecord documentation name type; record .record)
      = writeAll ((SchemaNode.record type).lines documentation name) := by
  have hbody := forM_properties_eq documentation type type.properties
  simp only [emitRecord, hbody, SchemaNode.lines, RecordType.bodyLines, List.cons_append,
    writeAll_cons, writeAll_append, write_plain, write_completing, writeAll_nil, bind_assoc,
    bind_pure_unit]

/-- A bare reference is written as any other property is: it has no block, and
its type expression is its name. -/
lemma emitProperty_eq (name : String) (p : Property) :
    emitProperty documentation name p
      = (do emitDocumentation documentation .top p; writeLine (declarationHead name ++ p.render)) := by
  obtain ⟨kind, exampleValue, defaultValue⟩ := p
  cases kind with
  | reference target =>
      simp [emitProperty, emitDocumentation_eq, Property.documentationLines,
        Property.documentation, Kind.isDocumentable, Property.render, Kind.render]
  | _ => rfl

lemma emitSchema_eq (name : String) (node : SchemaNode) :
    emitSchema documentation name node = writeAll (node.lines documentation name) := by
  cases node with
  | record type => exact emitRecord_eq documentation name type
  | union type => simp [emitSchema, emitUnion, SchemaNode.lines, SchemaNode.milestone]
  | property p =>
      simp [emitSchema, emitProperty_eq, emitDocumentation_eq, SchemaNode.lines,
        SchemaNode.milestone, writeAll_append]

/-- Schemas behind the first one: each with a blank line in front. -/
lemma emitFrom_succ_eq (schemas : List (String × SchemaNode)) :
    ∀ index, emitFrom documentation (index + 1) schemas
      = writeAll (schemas.flatMap fun (name, node) => .blank :: node.lines documentation name) := by
  induction schemas with
  | nil => intro index; rfl
  | cons entry rest ih =>
      intro index
      obtain ⟨name, node⟩ := entry
      simp [emitFrom, emitSchema_eq, ih, writeAll_append]

/-- Groups with a blank line between neighbours: a blank line in front of each
but the first. -/
lemma separated_cons (group : List Line) (groups : List (List Line)) :
    separated (group :: groups) = group ++ groups.flatMap (.blank :: ·) := by
  induction groups generalizing group with
  | nil => simp [separated]
  | cons next rest ih => rw [separated, ih next, List.flatMap_cons, List.cons_append]

lemma emitFrom_eq (schemas : List (String × SchemaNode)) :
    emitFrom documentation 0 schemas
      = writeAll (separated (schemas.map fun (name, node) => node.lines documentation name)) := by
  cases schemas with
  | nil => rfl
  | cons entry rest =>
      obtain ⟨name, node⟩ := entry
      rw [List.map_cons, separated_cons, List.flatMap_map, writeAll_append]
      simp [emitFrom, emitSchema_eq, emitFrom_succ_eq]

end

/-- **The emitter writes the lines of the layout**, in their order, up to the
first that fails. -/
theorem emit_eq_writeAll (c : Collection) (e : Emitter) :
    emit c e = writeAll (c.lines e.documentation) e := by
  rw [Collection.lines, ← emitFrom_eq]
  rfl

end Emitter

end SchemaTypes
