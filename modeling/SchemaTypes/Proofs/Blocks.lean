import SchemaTypes.Proofs.Lists
import SchemaTypes.Proofs.Tally

/-!
Output with and without documentation.

* `Passage`: a line of a declaration and the block that belongs above it;
* `Collection.passages`: the lines of a collection without its documentation,
  each with its block;
* `Collection.blocks`: the blocks of all properties and top-level types that have
  one;
* `lines_true`, `lines_false`: with documentation each line stands below its
  block, and without it alone;
* `documentation_adds_blocks`: a generation with documentation differs from one
  without it in these blocks and in the counts of lines and blocks only.
-/

namespace SchemaTypes

/-- A line, and the block that belongs above it. -/
structure Passage where
  block : Option DocBlock
  line : Line

namespace Passage

/-- A line without a block. -/
def bare (line : Line) : Passage := ⟨none, line⟩

/-- The lines of a passage with its documentation. -/
def lines (p : Passage) : List Line := p.block.elim [] DocBlock.documentationLines ++ [p.line]

/-- The texts of a passage with its documentation: one empty line and the lines
of the block in front of the line itself. -/
def documented (p : Passage) : List String :=
  p.block.elim [] (fun block => "" :: block.lines) ++ [p.line.text]

lemma map_text_lines (p : Passage) : p.lines.map Line.text = p.documented := by
  obtain ⟨block, line⟩ := p
  cases block with
  | none => rfl
  | some block =>
      simp only [lines, documented, Option.elim_some, DocBlock.documentationLines,
        List.map_append, List.map_cons, map_text_completingLast]
      rfl

end Passage

/-! ### The passages of a collection -/

/-- The passages of a schema. -/
def SchemaNode.passages (name : String) : SchemaNode → List Passage
  | record type =>
    .bare (.plain (declarationHead name ++ "\x7b"))
      :: type.properties.map (fun (key, p) => ⟨p.documentation .property, type.propertyLine key p⟩)
      ++ [.bare ⟨"\x7d", some .record⟩]
  | union type => [.bare ⟨declarationHead name ++ type.render, some .union⟩]
  | property p => [⟨p.documentation .top, ⟨declarationHead name ++ p.render, some .alias⟩⟩]

/-- The blocks of a schema: those of its properties, or its own if it is a
top-level type. -/
def SchemaNode.blocks : SchemaNode → List DocBlock
  | record type => type.properties.filterMap fun (_, p) => p.documentation .property
  | union _ => []
  | property p => (p.documentation .top).toList

namespace Collection

/-- The passages of a collection, with an empty line between schemas. -/
def passages (c : Collection) : List Passage :=
  [.bare .blank].intercalate (c.schemas.map fun (name, node) => node.passages name)

/-- The blocks of a collection. -/
def blocks (c : Collection) : List DocBlock := c.schemas.flatMap fun (_, node) => node.blocks

end Collection

lemma separated_eq_intercalate (groups : List (List Line)) :
    separated groups = [Line.blank].intercalate groups := by
  induction groups with
  | nil => rfl
  | cons group rest ih =>
      cases rest with
      | nil => simp [separated]
      | cons next rest =>
          rw [separated, ih, List.intercalate_cons_cons, List.append_assoc]
          rfl

/-! ### Lines with and without documentation -/

lemma Property.documentationLines_true (indent : Indent) (p : Property) :
    p.documentationLines true indent
      = (p.documentation indent).elim [] DocBlock.documentationLines := by
  rw [documentationLines, if_pos rfl]
  cases p.documentation indent <;> rfl

lemma SchemaNode.lines_true (name : String) (node : SchemaNode) :
    node.lines true name = (node.passages name).flatMap Passage.lines := by
  cases node with
  | record type =>
      have hbody : type.bodyLines true
          = (type.properties.map fun (key, p) =>
              (⟨p.documentation .property, type.propertyLine key p⟩ : Passage)).flatMap
                Passage.lines := by
        rw [RecordType.bodyLines, List.flatMap_map]
        refine List.flatMap_congr fun entry _ => ?_
        simp only [Property.documentationLines_true, Passage.lines]
      simp only [lines, hbody, passages, List.flatMap_append, List.flatMap_cons, List.flatMap_nil,
        List.append_nil]
      rfl
  | union type => rfl
  | property p =>
      rw [lines, Property.documentationLines_true, passages, List.flatMap_singleton, Passage.lines]

/-- Without documentation a record has one line for each property. -/
lemma RecordType.bodyLines_false (type : RecordType) :
    type.bodyLines false = type.properties.map fun (key, p) => type.propertyLine key p := by
  rw [bodyLines, List.map_eq_flatMap]
  rfl

lemma SchemaNode.lines_false (name : String) (node : SchemaNode) :
    node.lines false name = (node.passages name).map Passage.line := by
  cases node with
  | record type =>
      simp only [lines, type.bodyLines_false, passages, List.map_append, List.map_cons,
        List.map_nil, List.map_map]
      rfl
  | union type => rfl
  | property p => rfl

namespace Collection

variable (c : Collection)

lemma lines_true : c.lines true = c.passages.flatMap Passage.lines := by
  rw [lines, separated_eq_intercalate, passages, flatMap_intercalate, List.map_map]
  simp only [SchemaNode.lines_true]
  rfl

lemma lines_false : c.lines false = c.passages.map Passage.line := by
  have hmap : c.passages.map Passage.line = c.passages.flatMap fun p => [p.line] :=
    List.map_eq_flatMap
  rw [lines, separated_eq_intercalate, hmap, passages, flatMap_intercalate, List.map_map]
  refine congrArg [Line.blank].intercalate (List.map_congr_left fun entry _ => ?_)
  exact (SchemaNode.lines_false entry.1 entry.2).trans List.map_eq_flatMap

/-- The blocks in the passages are those of the properties and top-level types. -/
lemma filterMap_block_passages : c.passages.filterMap Passage.block = c.blocks := by
  have hnode : ∀ name (node : SchemaNode),
      (node.passages name).filterMap Passage.block = node.blocks := by
    intro name node
    cases node with
    | record type =>
        simp only [SchemaNode.passages, SchemaNode.blocks, List.filterMap_append,
          List.filterMap_cons, List.filterMap_map, List.filterMap_nil, List.append_nil,
          Passage.bare]
        rfl
    | union type => rfl
    | property p =>
        simp only [SchemaNode.passages, SchemaNode.blocks, List.filterMap_cons,
          List.filterMap_nil]
        cases p.documentation .top <;> rfl
  have hgap : [Passage.bare .blank].flatMap (fun p => p.block.toList) = [] := rfl
  rw [List.filterMap_eq_flatMap_toList, passages, flatMap_intercalate, hgap, nil_intercalate,
    List.map_map, blocks, List.flatMap_def]
  refine congrArg List.flatten (List.map_congr_left fun entry _ => ?_)
  exact (List.filterMap_eq_flatMap_toList _ _).symm.trans (hnode entry.1 entry.2)

/-- The line of a passage completes no block. -/
lemma completes_ne_documentation {p : Passage} (h : p ∈ c.passages) :
    p.line.completes ≠ some .documentation := by
  obtain hgap | ⟨group, hgroup, hp⟩ := mem_intercalate h
  · obtain rfl := List.mem_singleton.mp hgap
    simp [Passage.bare, Line.blank, Line.plain]
  · obtain ⟨⟨name, node⟩, -, rfl⟩ := List.mem_map.mp hgroup
    cases node with
    | record type =>
        simp only [SchemaNode.passages, List.cons_append, List.mem_cons, List.mem_append,
          List.mem_map, List.not_mem_nil, or_false] at hp
        obtain rfl | ⟨entry, -, rfl⟩ | rfl := hp
        · simp [Passage.bare, Line.plain]
        · simp [RecordType.propertyLine]
        · simp [Passage.bare]
    | union type =>
        obtain rfl := List.mem_singleton.mp hp
        simp [Passage.bare]
    | property node =>
        obtain rfl := List.mem_singleton.mp hp
        simp

end Collection

/-! ### Counts -/

namespace Statistics

/-- The counts of blocks, each with its empty line and its two marks. -/
def ofBlocks (blocks : List DocBlock) : Statistics :=
  { documentation := blocks.length
    lines := (blocks.map fun block => block.entries.length + 3).sum }

lemma filterMap_completes_completingLast (milestone : Milestone) :
    ∀ texts, texts ≠ [] →
      (completingLast milestone texts).filterMap Line.completes = [milestone]
  | [], h => absurd rfl h
  | [text], _ => rfl
  | text :: next :: rest, _ => by
      rw [completingLast, List.filterMap_cons_none rfl]
      exact filterMap_completes_completingLast milestone (next :: rest) (by simp)

/-- A block counts once, and has two lines more than entries, and the empty one. -/
lemma ofLines_documentationLines (block : DocBlock) :
    ofLines block.documentationLines = ofBlocks [block] := by
  have hreached : block.documentationLines.filterMap Line.completes = [.documentation] := by
    rw [DocBlock.documentationLines, List.filterMap_cons_none rfl]
    exact filterMap_completes_completingLast _ _ block.lines_ne_nil
  have hlength : block.documentationLines.length = block.entries.length + 3 := by
    have htexts := congrArg List.length (map_text_completingLast .documentation block.lines)
    rw [List.length_map] at htexts
    rw [DocBlock.documentationLines, List.length_cons, htexts]
    simp [DocBlock.lines]
  simp only [ofLines, hreached, hlength]
  rfl

lemma ofBlocks_cons (block : DocBlock) (blocks : List DocBlock) :
    ofBlocks (block :: blocks) = ofBlocks [block] + ofBlocks blocks := by
  simp [ofBlocks, add_def, Nat.add_comm]

/-- Blocks add to the counts of blocks and of lines only. -/
lemma warn_add_ofBlocks {s : Statistics} (h : s.documentation = 0) (blocks : List DocBlock)
    (found : List Warning) :
    (s + ofBlocks blocks).warn found
      = { s.warn found with
          documentation := blocks.length
          lines := (s.warn found).lines
            + (blocks.map fun block => block.entries.length + 3).sum } := by
  simp [warn, add_def, ofBlocks, h]

/-- Passages count as their lines and their blocks do. -/
lemma ofLines_passages (passages : List Passage) :
    ofLines (passages.flatMap Passage.lines)
      = ofLines (passages.map Passage.line) + ofBlocks (passages.filterMap Passage.block) := by
  induction passages with
  | nil => rfl
  | cons p rest ih =>
      have hline : ofLines ((p :: rest).map Passage.line)
          = ofLines [p.line] + ofLines (rest.map Passage.line) := by
        rw [List.map_cons, ← ofLines_append, List.singleton_append]
      rw [List.flatMap_cons, ofLines_append, ih, hline]
      cases hblock : p.block with
      | none =>
          rw [List.filterMap_cons_none hblock, Passage.lines, hblock, Option.elim_none,
            List.nil_append, Statistics.add_assoc]
      | some block =>
          rw [List.filterMap_cons_some hblock, ofBlocks_cons, Passage.lines, hblock,
            Option.elim_some, ofLines_append, ofLines_documentationLines]
          have hcomm := add_comm_of_warnings (s := ofBlocks [block]) rfl
          rw [hcomm, Statistics.add_assoc, Statistics.add_assoc,
            ← Statistics.add_assoc (ofBlocks [block]), hcomm, Statistics.add_assoc]

end Statistics

/-! ### Two generations -/

/-- **Documentation adds blocks and nothing else.** Without documentation, a
generation writes the lines of its passages; with it, each of these lines has its
block in front, one empty line above it. The blocks are those of all properties
and top-level types that have one; they are counted, with three lines more than
they have entries, and all other counts and the warnings are the same. -/
theorem documentation_adds_blocks (mapping : Fields) :
    let c := (Collection.ofFields mapping).1
    (∀ sink, mapAnswer Statistics.lines (generateSchemas mapping true sink)
        = LineSink.writeOut (c.passages.flatMap Passage.documented) sink)
      ∧ (∀ sink, mapAnswer Statistics.lines (generateSchemas mapping false sink)
        = LineSink.writeOut (c.passages.map fun p => p.line.text) sink)
      ∧ c.passages.filterMap Passage.block = c.blocks
      ∧ ∃ s on off,
          generateSchemas mapping false {} = .ok s off
            ∧ s.documentation = 0
            ∧ generateSchemas mapping true {}
              = .ok { s with
                  documentation := c.blocks.length
                  lines := s.lines + (c.blocks.map fun block => block.entries.length + 3).sum }
                on := by
  intro c
  have hbare : schemaLines false mapping = c.passages.map Passage.line := c.lines_false
  have hfull : schemaLines true mapping = c.passages.flatMap Passage.lines := c.lines_true
  have hnone : (Statistics.ofLines (schemaLines false mapping)).documentation = 0 := by
    rw [hbare]
    refine Statistics.count_completes_eq_zero fun line hline => ?_
    obtain ⟨p, hp, rfl⟩ := List.mem_map.mp hline
    exact c.completes_ne_documentation hp
  have hcounts : Statistics.ofLines (schemaLines true mapping)
      = Statistics.ofLines (schemaLines false mapping) + Statistics.ofBlocks c.blocks := by
    rw [hfull, hbare, Statistics.ofLines_passages, c.filterMap_block_passages]
  have htrue := generateSchemas_eq_ofLines mapping true
  rw [hcounts, Statistics.warn_add_ofBlocks hnone] at htrue
  refine ⟨fun sink => ?_, fun sink => ?_, c.filterMap_block_passages, _, _, _,
    generateSchemas_eq_ofLines mapping false, hnone, htrue⟩
  · have htexts : schemaTexts true mapping = c.passages.flatMap Passage.documented := by
      rw [show schemaTexts true mapping = (schemaLines true mapping).map Line.text from rfl, hfull,
        List.map_flatMap]
      simp only [Passage.map_text_lines]
    rw [generateSchemas_eq_writeOut, htexts]
  · have htexts : schemaTexts false mapping = c.passages.map fun p => p.line.text := by
      rw [show schemaTexts false mapping = (schemaLines false mapping).map Line.text from rfl,
        hbare, List.map_map]
      rfl
    rw [generateSchemas_eq_writeOut, htexts]

end SchemaTypes
