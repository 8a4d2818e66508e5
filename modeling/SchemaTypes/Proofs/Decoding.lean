import SchemaTypes.Proofs.Lists
import SchemaTypes.Proofs.Skeleton
import SchemaTypes.Proofs.Text

/-!
Reading an output back.

* `linesOf`: the lines of a text whose lines end with CR LF;
* `Decoder`: what has been read of an output, and `Decoder.read`: what one more
  line adds to it;
* `decode`: the skeleton of an output;
* `Decoder.run_shape`: the lines of a schema, read between two schemas, add just
  that schema;
* `decode_terminated`: a legible skeleton is read back from its lines;
* `output_unambiguous`: outputs of legible mappings that agree come from
  mappings with the same skeleton.
-/

namespace SchemaTypes

/-! ### Lines of a text -/

/-- The lines of a text, without their ends. What follows the last line feed is
not a line. -/
def linesOf (text : String) : List String :=
  (splitAt (· == '\n') text.toList).dropLast.map fun line => String.ofList line.dropLast

lemma linesOf_terminated {texts : List String} (h : ∀ text ∈ texts, OneLine text) :
    linesOf (terminated texts) = texts := by
  induction texts with
  | nil => rfl
  | cons text rest ih =>
      have hchars : (terminated (text :: rest)).toList
          = (text.toList ++ ['\r']) ++ '\n' :: (terminated rest).toList := by
        simp [terminated, lineEnd, String.toList_append]
      -- the line feed of the first line is the first one of the text
      have hfirst : '\n' ∉ text.toList ++ ['\r'] := fun hmem => by
        simp only [List.mem_append, List.mem_singleton, Char.reduceEq, or_false] at hmem
        exact h text List.mem_cons_self _ hmem (by simp)
      have hrest := ih fun later hlater => h later (List.mem_cons_of_mem text hlater)
      rw [linesOf] at hrest ⊢
      rw [hchars, splitAt_append_cons, splitAt_of_notMem hfirst, List.singleton_append,
        List.dropLast_cons_of_ne_nil (splitAt_ne_nil _ _), List.map_cons, hrest,
        List.dropLast_concat, String.ofList_toList]

/-! ### Parts of a line -/

/-- The entry on a line of a block; the closing line has none. -/
def entryOf? (line : String) : Option String :=
  match line.toList.dropWhile (· == ' ') with
  | '*' :: ' ' :: entry => some (String.ofList entry)
  | _ => none

/-- The property on a line of a record, with the entries of the block above. -/
def propertyOf (entries : List String) (line : String) : PropertyShape :=
  let (key, rest) := (line.toList.drop 2).span fun c => c != ':' && c != '?'
  match rest with
  | '?' :: rest => ⟨String.ofList key, true, String.ofList (rest.drop 2), entries⟩
  | rest => ⟨String.ofList key, false, String.ofList (rest.drop 2), entries⟩

/-- The name and the type of the declaration on a line. -/
def declarationOf (line : String) : String × String :=
  let (name, rest) := (line.toList.drop 12).span (· != ' ')
  (String.ofList name, String.ofList (rest.drop 3))

lemma entryOf?_entryLine (indent : Indent) (entry : String) :
    entryOf? (indent.blanks ++ DocBlock.entryLine entry) = some entry := by
  cases indent <;> simp [entryOf?, DocBlock.entryLine, Indent.blanks, String.toList_append]

lemma entryOf?_closing (indent : Indent) :
    entryOf? (indent.blanks ++ DocBlock.closing) = none := by
  cases indent <;> decide

lemma propertyOf_text {p : PropertyShape} (h : p.Legible) : propertyOf p.entries p.text = p := by
  obtain ⟨key, isOptional, type, entries⟩ := p
  have hkey : ∀ c ∈ key.toList, (c != ':' && c != '?') = true := fun c hc => by
    have hnot := h.1 c hc
    simp only [List.mem_cons, not_or] at hnot
    simp [hnot.1, hnot.2.1]
  cases isOptional with
  | true =>
      have hchars : (PropertyShape.text ⟨key, true, type, entries⟩).toList.drop 2
          = key.toList ++ '?' :: ':' :: ' ' :: type.toList := by
        simp [PropertyShape.text, String.toList_append]
      simp only [propertyOf, hchars]
      rw [span_append_cons hkey (by decide)]
      simp
  | false =>
      have hchars : (PropertyShape.text ⟨key, false, type, entries⟩).toList.drop 2
          = key.toList ++ ':' :: ' ' :: type.toList := by
        simp [PropertyShape.text, String.toList_append]
      simp only [propertyOf, hchars]
      rw [span_append_cons hkey (by decide)]
      simp

lemma declarationOf_append {name : String} (h : Without [' ', '\r', '\n'] name) (type : String) :
    declarationOf (declarationHead name ++ type) = (name, type) := by
  have hname : ∀ c ∈ name.toList, (c != ' ') = true := fun c hc => by
    have hnot := h c hc
    simp only [List.mem_cons, not_or] at hnot
    simp [hnot.1]
  have hchars : (declarationHead name ++ type).toList.drop 12
      = name.toList ++ ' ' :: '=' :: ' ' :: type.toList := by
    simp [declarationHead, String.toList_append]
  rw [declarationOf, hchars, span_append_cons hname (by decide)]
  simp

/-! ### Decoders -/

/-- What has been read of an output. -/
structure Decoder where
  /-- The schemas that have been read to their end. -/
  done : Skeleton := []
  /-- The record that has been opened, with its properties so far. -/
  current : Option (String × List PropertyShape) := none
  /-- Whether a block has been opened. -/
  inBlock : Bool := false
  /-- The entries that wait for the line that they describe. -/
  entries : List String := []

namespace Decoder

/-- The opening lines of blocks. -/
def openings : List String := [Indent.top, .property].map fun i => i.blanks ++ DocBlock.opening

/-- Reads one line. Inside a block every line but the closing one is an entry,
whatever it looks like; outside of blocks a blank line says nothing. -/
def read (d : Decoder) (line : String) : Decoder :=
  if d.inBlock then
    match entryOf? line with
    | some entry => { d with entries := d.entries ++ [entry] }
    | none => { d with inBlock := false }
  else if line = "" then d
  else if line ∈ openings then { d with inBlock := true }
  else
    match d.current with
    | some (name, properties) =>
      if line = "\x7d" then { done := d.done ++ [(name, .record properties)] }
      else
        { d with
          current := some (name, properties ++ [propertyOf d.entries line])
          entries := [] }
    | none =>
      let (name, type) := declarationOf line
      if type = "\x7b" then { d with current := some (name, []) }
      else { done := d.done ++ [(name, .single type d.entries)] }

/-- Reads lines in order. -/
def run (d : Decoder) (lines : List String) : Decoder := lines.foldl read d

@[simp] lemma run_nil (d : Decoder) : d.run [] = d := rfl

@[simp] lemma run_cons (d : Decoder) (line : String) (lines : List String) :
    d.run (line :: lines) = (d.read line).run lines := rfl

@[simp] lemma run_append (d : Decoder) (lines more : List String) :
    d.run (lines ++ more) = (d.run lines).run more := List.foldl_append

/-! ### Reading one line -/

section

variable (done : Skeleton) (current : Option (String × List PropertyShape)) (entries : List String)

lemma read_blank : read ⟨done, current, false, entries⟩ "" = ⟨done, current, false, entries⟩ := rfl

lemma read_opening (indent : Indent) :
    read ⟨done, current, false, entries⟩ (indent.blanks ++ DocBlock.opening)
      = ⟨done, current, true, entries⟩ := by
  have hblank : indent.blanks ++ DocBlock.opening ≠ "" := by cases indent <;> decide
  have hopening : indent.blanks ++ DocBlock.opening ∈ openings := by cases indent <;> decide
  simp only [read, Bool.false_eq_true, if_false, if_neg hblank, if_pos hopening]

lemma read_entryLine (indent : Indent) (entry : String) :
    read ⟨done, current, true, entries⟩ (indent.blanks ++ DocBlock.entryLine entry)
      = ⟨done, current, true, entries ++ [entry]⟩ := by
  simp only [read, if_true, entryOf?_entryLine]

lemma read_closing (indent : Indent) :
    read ⟨done, current, true, entries⟩ (indent.blanks ++ DocBlock.closing)
      = ⟨done, current, false, entries⟩ := by
  simp only [read, if_true, entryOf?_closing]

/-- A line with a colon or an equals sign is no mark. -/
lemma ne_mark_of_mem {c : Char} (hc : c ∈ [':', '=']) {line : String} (h : c ∈ line.toList) :
    line ≠ "" ∧ line ∉ openings ∧ line ≠ "\x7d" := by
  have hmarks : ∀ mark ∈ "" :: "\x7d" :: openings, Without [':', '='] mark := by decide
  have hne : ∀ mark ∈ "" :: "\x7d" :: openings, line ≠ mark := by
    rintro mark hmark rfl
    exact hmarks line hmark c h hc
  exact ⟨hne _ (by simp), fun hmem => hne line (by simp [hmem]) rfl, hne _ (by simp)⟩

/-- A property takes the entries above it. -/
lemma read_property (name : String) (properties : List PropertyShape) {p : PropertyShape}
    (h : p.Legible) :
    read ⟨done, some (name, properties), false, p.entries⟩ p.text
      = ⟨done, some (name, properties ++ [p]), false, []⟩ := by
  have hcolon : ':' ∈ p.text.toList := by simp [PropertyShape.text, String.toList_append]
  obtain ⟨hblank, hopening, hbrace⟩ := ne_mark_of_mem (by decide) hcolon
  simp only [read, Bool.false_eq_true, if_false, if_neg hblank, if_neg hopening, if_neg hbrace,
    propertyOf_text h]

/-- A brace opens a record; any other type takes the entries above it. -/
lemma read_declaration {name : String} (h : Without [' ', '\r', '\n'] name) (type : String) :
    read ⟨done, none, false, entries⟩ (declarationHead name ++ type)
      = if type = "\x7b" then ⟨done, some (name, []), false, entries⟩
        else { done := done ++ [(name, .single type entries)] } := by
  have hequals : '=' ∈ (declarationHead name ++ type).toList := by
    simp [declarationHead, String.toList_append]
  obtain ⟨hblank, hopening, -⟩ := ne_mark_of_mem (by decide) hequals
  simp only [read, Bool.false_eq_true, if_false, if_neg hblank, if_neg hopening,
    declarationOf_append h]

end

/-! ### Reading the lines of a skeleton -/

lemma run_entryLines (done : Skeleton) (current : Option (String × List PropertyShape))
    (indent : Indent) (block : List String) (entries : List String) :
    run ⟨done, current, true, entries⟩
        (block.map fun entry => indent.blanks ++ DocBlock.entryLine entry)
      = ⟨done, current, true, entries ++ block⟩ := by
  induction block generalizing entries with
  | nil => simp
  | cons entry rest ih =>
      rw [List.map_cons, run_cons, read_entryLine, ih, List.append_assoc, List.singleton_append]

/-- After a block its entries wait for their owner. -/
lemma run_entryTexts (done : Skeleton) (current : Option (String × List PropertyShape))
    (indent : Indent) (block : List String) :
    run ⟨done, current, false, []⟩ (entryTexts indent block) = ⟨done, current, false, block⟩ := by
  rw [entryTexts]
  split
  case isTrue hnil => rw [hnil, run_nil]
  case isFalse =>
      have hlines : (DocBlock.mk indent block).lines
          = (indent.blanks ++ DocBlock.opening)
            :: (block.map fun entry => indent.blanks ++ DocBlock.entryLine entry)
            ++ [indent.blanks ++ DocBlock.closing] := by
        simp [DocBlock.lines]
      rw [hlines, run_cons, read_blank, List.cons_append, run_cons, read_opening, run_append,
        run_entryLines, List.nil_append, run_cons, read_closing, run_nil]

/-- Inside a record, the lines of properties add those properties. -/
lemma run_properties (done : Skeleton) (name : String) {properties : List PropertyShape}
    (h : ∀ p ∈ properties, p.Legible) (before : List PropertyShape) :
    run ⟨done, some (name, before), false, []⟩ (properties.flatMap PropertyShape.texts)
      = ⟨done, some (name, before ++ properties), false, []⟩ := by
  induction properties generalizing before with
  | nil => simp
  | cons p rest ih =>
      have hp := h p List.mem_cons_self
      have hrest := ih (fun later hlater => h later (List.mem_cons_of_mem p hlater)) (before ++ [p])
      rw [List.flatMap_cons, run_append, PropertyShape.texts, run_append, run_entryTexts, run_cons,
        read_property done name before hp, run_nil, hrest, List.append_assoc,
        List.singleton_append]

/-- Between two schemas, the lines of a schema add just that schema. -/
lemma run_shape (done : Skeleton) {name : String} (hname : Without [' ', '\r', '\n'] name)
    {shape : Shape} (h : shape.Legible) :
    run { done } (shape.texts name) = { done := done ++ [(name, shape)] } := by
  cases shape with
  | record properties =>
      have hbody := run_properties done name h []
      rw [Shape.texts, List.cons_append, run_cons, read_declaration done [] hname, if_pos rfl,
        run_append, hbody, run_cons, run_nil]
      rfl
  | single type entries =>
      obtain ⟨-, hbrace, -⟩ := h
      rw [Shape.texts, run_append, run_entryTexts, run_cons, read_declaration done entries hname,
        if_neg hbrace, run_nil]

/-- Between two schemas, the lines of a skeleton add that skeleton. -/
lemma run_texts {s : Skeleton} (h : s.Legible) (done : Skeleton) :
    run { done } s.texts = { done := done ++ s } := by
  induction s generalizing done with
  | nil => simp
  | cons entry rest ih =>
      obtain ⟨name, shape⟩ := entry
      obtain ⟨hname, hshape⟩ := h (name, shape) List.mem_cons_self
      have hrest := ih fun later hlater => h later (List.mem_cons_of_mem _ hlater)
      cases rest with
      | nil => rw [Skeleton.texts_singleton, run_shape done hname hshape]
      | cons next rest =>
          rw [Skeleton.texts_cons_cons, run_append, run_shape done hname hshape, run_cons,
            read_blank, hrest, List.append_assoc, List.singleton_append]

end Decoder

/-! ### Outputs -/

/-- The skeleton of an output; none if the bytes are no text. -/
def decode (bytes : ByteArray) : Option Skeleton :=
  (String.fromUTF8? bytes).map fun text => (Decoder.run {} (linesOf text)).done

/-- **A legible skeleton is read back from its lines.** -/
theorem decode_terminated {s : Skeleton} (h : s.Legible) :
    decode (terminated s.texts).toUTF8 = some s := by
  have htext : String.fromUTF8? (terminated s.texts).toUTF8 = some (terminated s.texts) := by
    rw [String.fromUTF8?, String.toUTF8_eq_toByteArray, dif_pos (terminated s.texts).isValidUTF8]
    rfl
  rw [decode, htext, Option.map_some, linesOf_terminated h.oneLine, Decoder.run_texts h,
    List.nil_append]

/-- What a generation leaves in a destination that never fails. -/
def output (documentation : Bool) (mapping : Fields) : ByteArray :=
  (finalState (generateSchemas mapping documentation {})).held

lemma output_eq_terminated (documentation : Bool) (mapping : Fields) :
    output documentation mapping
      = (terminated (schemaSkeleton documentation mapping).texts).toUTF8 := by
  obtain ⟨statistics, hrun, -⟩ := generateSchemas_unlimited mapping documentation
  rw [output, hrun, schemaTexts_eq_texts]
  rfl

/-- **Outputs are unambiguous.** The skeleton of a mapping is read back from its
output if it is legible, so that two such mappings with the same output declare
the same names with the same shapes. -/
theorem output_unambiguous {documentation : Bool} {mapping other : Fields}
    (hmapping : (schemaSkeleton documentation mapping).Legible)
    (hother : (schemaSkeleton documentation other).Legible) :
    decode (output documentation mapping) = some (schemaSkeleton documentation mapping)
      ∧ (output documentation mapping = output documentation other →
        mapping.map Prod.fst = other.map Prod.fst
          ∧ schemaSkeleton documentation mapping = schemaSkeleton documentation other) := by
  have hdecode : decode (output documentation mapping)
      = some (schemaSkeleton documentation mapping) := by
    rw [output_eq_terminated, decode_terminated hmapping]
  refine ⟨hdecode, fun hsame => ?_⟩
  rw [hsame, output_eq_terminated, decode_terminated hother] at hdecode
  have hskeleton := (Option.some.inj hdecode).symm
  have hnames := congrArg (List.map Prod.fst) hskeleton
  rw [map_fst_schemaSkeleton, map_fst_schemaSkeleton] at hnames
  exact ⟨hnames, hskeleton⟩

/-- A record and a top-level type with documentation that looks like other lines
of an output. -/
def plainNotes : Fields :=
  [("Note", .obj
      [("properties", .obj
        [("text", .obj [("type", .str "string"), ("example", .str "export type Note = \x7b")]),
          ("tag", .null)]),
        ("required", .arr [.str "text"])]),
    ("Mark", .obj [("type", .str "string"), ("example", .str "**/")])]

/-- The same with attributes that an output does not show. -/
def annotatedNotes : Fields :=
  [("Note", .obj
      [("required", .arr [.num (.integer 1), .str "text"]),
        ("properties", .obj
        [("text", .obj
            [("type", .str "string"), ("default", .str ""),
              ("example", .str "export type Note = \x7b")]),
          ("tag", .obj [("description", .str "no type")])])]),
    ("Mark", .obj [("type", .str " string "), ("example", .str "**/")])]

theorem output_unambiguous_notes :
    (schemaSkeleton true plainNotes).Legible ∧ (schemaSkeleton true annotatedNotes).Legible
      ∧ output true plainNotes = output true annotatedNotes
      ∧ decode (output true plainNotes) = some (schemaSkeleton true plainNotes)
      ∧ plainNotes.map Prod.fst = annotatedNotes.map Prod.fst
      ∧ schemaSkeleton true plainNotes = schemaSkeleton true annotatedNotes := by
  have hnotes : (schemaSkeleton true plainNotes).Legible := by decide
  have hannotated : (schemaSkeleton true annotatedNotes).Legible := by decide
  have hsame : output true plainNotes = output true annotatedNotes := by decide +kernel
  obtain ⟨hdecode, hskeleton⟩ := output_unambiguous hnotes hannotated
  exact ⟨hnotes, hannotated, hsame, hdecode, hskeleton hsame⟩

end SchemaTypes
