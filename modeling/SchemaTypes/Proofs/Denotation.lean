import SchemaTypes.Proofs.Output
import SchemaTypes.Proofs.Reading
import SchemaTypes.Proofs.Text

/-!
The declarations that a mapping denotes.

* `Denotation.typeText`: the type expression of a JSON value, read off its
  attributes;
* `Denotation.entries`: what the documentation of a JSON value says;
* `Denotation.group`, `Denotation.lines`: the lines of one schema and of a whole
  mapping;
* `render_ofJson`, `documentationLines_ofJson`, `texts_ofJson`: reading a value
  into a node and laying the node out gives the lines that the value denotes;
* `generateSchemas_denotation`: a generation writes just the lines that its
  mapping denotes.
-/

namespace SchemaTypes

/-! ### Lines denoted by JSON -/

namespace Denotation

/-- The text of an attribute that is a string. -/
def stringAt? (fields : Fields) (key : String) : Option String :=
  match fields.get? key with
  | some (.str text) => some text
  | _ => none

/-- The part of a path behind its last slash. -/
def lastSegment (path : String) : String :=
  String.ofList ((splitAt (· == '/') path.toList).getLastD [])

/-- The values of an enumeration as alternatives, each between single quotes. -/
def enumText (fields : Fields) : String :=
  match fields.get? "enum" with
  | some (.arr (value :: values)) =>
    "|".intercalate ((value :: values).map fun v => "'" ++ v.literal ++ "'")
  | _ => "string"

/-- The type tag of an object, without the blanks at its ends. -/
def tag? (fields : Fields) : Option String := (stringAt? fields "type").map trim

/-- The type expression of an object; `array` is its type as an array. -/
def objectText (fields : Fields) (array : String) : String :=
  match stringAt? fields "$ref", tag? fields with
  | some path, _ => lastSegment path
  | none, none => "unknown"
  | none, some "array" => array
  | none, some "string" => enumText fields
  | none, some "integer" => "number"
  | none, some "boolean" => "boolean"
  | none, some "object" => "\x7b\x7d"
  | none, some "email" => "string"
  | none, some tag => tag

mutual

/-- The type expression of an array with the given `items`. -/
def itemsText : Json → String
  | .str text =>
    if trim text ∈ ["string", "integer", "boolean"] then trim text ++ "[]" else text
  | .obj fields =>
    match stringAt? fields "$ref" with
    | some path => lastSegment path ++ "[]"
    | none =>
      if (Fields.get? fields "type").isSome then objectText fields (arrayText fields) ++ "[]"
      else Json.compact (.obj fields)
  | value => value.compact

/-- The type expression of an array with the given attributes. -/
def arrayText : List (String × Json) → String
  | [] => "unknown[]"
  | (key, value) :: rest => if key = "items" then itemsText value else arrayText rest

end

/-- The type expression of a value. -/
def typeText : Json → String
  | .obj fields => objectText fields (arrayText fields)
  | _ => "unknown"

/-- An attribute of any kind, behind a label. -/
def labelled (label : String) (fields : Fields) (key : String) : List String :=
  match fields.get? key with
  | some value => [label ++ value.literal]
  | none => []

/-- The least value of an integer, if it is a number. -/
def minimumEntry (fields : Fields) : List String :=
  match fields.get? "minimum" with
  | some (.num n) => ["Minimum: " ++ n.text]
  | _ => []

/-- What the attributes of an object say beside its type, given its tag. -/
def notes (fields : Fields) : String → List String
  | "string" => labelled "Format: " fields "format" ++ labelled "Pattern: " fields "pattern"
  | "integer" => labelled "Format: " fields "format" ++ minimumEntry fields
  | _ => []

/-- What is to be said of a value beside its type. References and values without
a type say nothing. -/
def entries : Json → List String
  | .obj fields =>
    match stringAt? fields "$ref", tag? fields with
    | none, some tag => labelled "" fields "example" ++ notes fields tag
    | _, _ => []
  | _ => []

/-- A blank line and the block of a value, if there is anything to say. -/
def blockLines (documentation : Bool) (blanks : String) (value : Json) : List String :=
  if documentation ∧ entries value ≠ [] then
    "" :: (blanks ++ "/**") :: (entries value).map (fun entry => blanks ++ "* " ++ entry)
      ++ [blanks ++ "**/"]
  else []

/-- Whether a key is among the strings of the `required` list. -/
def isRequired (fields : Fields) (key : String) : Bool :=
  match fields.get? "required" with
  | some (.arr keys) => keys.any fun k => k.text? == some key
  | _ => false

/-- The alternative that an entry of `anyOf` names. -/
def memberText : Json → String
  | .obj fields => ((stringAt? fields "$ref").map lastSegment).getD "unknown"
  | _ => "unknown"

/-- The type expression of an `anyOf`. -/
def unionText : Json → String
  | .arr (entry :: rest) => " | ".intercalate ((entry :: rest).map memberText)
  | _ => "unknown"

/-- The lines of one entry of `properties`, in a record with the given
attributes. -/
def propertyLines (documentation : Bool) (fields : Fields) (key : String) (value : Json) :
    List String :=
  blockLines documentation "  " value ++
    ["  " ++ key ++ (if isRequired fields key then "" else "?") ++ ": " ++ typeText value]

/-- The lines of a schema: `properties` make a record, else `anyOf` makes a
union, and anything else is a type of its own. -/
def group (documentation : Bool) (name : String) (value : Json) : List String :=
  let head := "export type " ++ name ++ " = "
  let plain := blockLines documentation "" value ++ [head ++ typeText value]
  match value with
  | .obj fields =>
    match Fields.get? fields "properties", Fields.get? fields "anyOf" with
    | some properties, _ =>
      (head ++ "\x7b") :: (properties.fields?.getD []).flatMap
        (fun (key, value) => propertyLines documentation fields key value) ++ ["\x7d"]
    | none, some anyOf => [head ++ unionText anyOf]
    | none, none => plain
  | _ => plain

/-- The lines of a mapping: one group for each of its keys, and one empty line
between groups. -/
def lines (documentation : Bool) (mapping : Fields) : List String :=
  [""].intercalate (mapping.map fun (name, value) => group documentation name value)

end Denotation

open Denotation

/-! ### Attributes -/

lemma name_eq_lastSegment (path : String) : (Reference.mk path).name = lastSegment path := by
  rw [Reference.name, afterLast_eq_getLastD, lastSegment]

lemma referenceOf_eq (fields : Fields) :
    referenceOf fields = (stringAt? fields "$ref").map Reference.mk := by
  rw [referenceOf, stringAt?]
  cases fields.get? "$ref" with
  | none => rfl
  | some value => cases value <;> rfl

lemma typeTagOf_eq (fields : Fields) : typeTagOf fields = tag? fields := by
  rw [typeTagOf, tag?, stringAt?]
  cases fields.get? "type" with
  | none => rfl
  | some value => cases value <;> rfl

lemma stringAt?_eq_none {fields : Fields} (h : referenceOf fields = none) :
    stringAt? fields "$ref" = none := by
  rwa [referenceOf_eq, Option.map_eq_none_iff] at h

lemma stringAt?_eq_some {fields : Fields} {target : Reference}
    (h : referenceOf fields = some target) : stringAt? fields "$ref" = some target.path := by
  rw [referenceOf_eq, Option.map_eq_some_iff] at h
  obtain ⟨path, hpath, rfl⟩ := h
  exact hpath

lemma render_enumValuesOf (fields : Fields) (format pattern : Option String) :
    (Kind.string (enumValuesOf fields) format pattern).render = enumText fields := by
  rw [enumValuesOf, enumText]
  cases fields.get? "enum" with
  | none => rfl
  | some value =>
      cases value with
      | arr items =>
          cases items with
          | nil => rfl
          | cons first rest =>
              rw [Kind.render, joinWith_eq_intercalate, List.map_map]
              rfl
      | _ => rfl

lemma contains_filterMap_text? (keys : List Json) (key : String) :
    (keys.filterMap Json.text?).contains key = keys.any fun k => k.text? == some key := by
  induction keys with
  | nil => rfl
  | cons k rest ih =>
      rw [List.any_cons, ← ih]
      cases hk : k.text? with
      | none => rw [List.filterMap_cons_none hk]; rfl
      | some text =>
          rw [List.filterMap_cons_some hk, List.contains_cons, Option.some_beq_some,
            Bool.beq_comm]

lemma isRequired_requiredOf (fields : Fields) (properties : List (String × Property))
    (key : String) :
    (RecordType.mk properties (requiredOf fields)).isRequired key = isRequired fields key := by
  rw [RecordType.isRequired, requiredOf, isRequired]
  cases fields.get? "required" with
  | none => rfl
  | some value =>
      cases value with
      | arr keys => exact contains_filterMap_text? keys key
      | _ => rfl

/-! ### Type expressions -/

/-- The kind of a node renders as its attributes denote, if its items do. -/
lemma render_kind_ofFields (fields : Fields) (location : Location)
    (items : Items × List Finding) :
    (Kind.ofFields fields location items).1.render = objectText fields items.1.render := by
  rw [objectText, ← typeTagOf_eq]
  have hread := Kind.read_ofFields fields location items
  generalize Kind.ofFields fields location items = read at hread ⊢
  cases hread with
  | reference href => rw [stringAt?_eq_some href]; exact name_eq_lastSegment _
  | untyped href htag => rw [stringAt?_eq_none href, htag]; rfl
  | array href htag => rw [stringAt?_eq_none href, htag]; rfl
  | string href htag => rw [stringAt?_eq_none href, htag]; exact render_enumValuesOf fields _ _
  | integer href htag => rw [stringAt?_eq_none href, htag]; rfl
  | boolean href htag => rw [stringAt?_eq_none href, htag]; rfl
  | object href htag => rw [stringAt?_eq_none href, htag]; rfl
  | email href htag => rw [stringAt?_eq_none href, htag]; rfl
  | other href htag hother =>
      simp only [recognisedTags, List.mem_cons, List.not_mem_nil, or_false, not_or] at hother
      rw [stringAt?_eq_none href, htag, Kind.render]
      simp [hother]

lemma mem_tokens_iff (text : String) :
    text ∈ ["string", "integer", "boolean"] ↔ ∃ token : PrimitiveToken, token.text = text := by
  constructor
  · intro h
    simp only [List.mem_cons, List.not_mem_nil, or_false] at h
    rcases h with rfl | rfl | rfl
    · exact ⟨.string, rfl⟩
    · exact ⟨.integer, rfl⟩
    · exact ⟨.boolean, rfl⟩
  · rintro ⟨token, rfl⟩
    cases token <;> simp [PrimitiveToken.text]

mutual

/-- Items render as they denote. -/
lemma render_items_ofJson :
    ∀ (value : Json) (location : Location),
      (Items.ofJson value location).1.render = itemsText value
  | .str text, location => by
      rw [Items.ofJson, itemsText]
      cases htoken : PrimitiveToken.ofText? (trim text) with
      | some token =>
          have htext := (PrimitiveToken.ofText?_eq_some_iff _ _).mp htoken
          rw [if_pos ((mem_tokens_iff _).mpr ⟨token, htext⟩), ← htext]
          rfl
      | none =>
          have hnot : trim text ∉ ["string", "integer", "boolean"] := fun hmem => by
            obtain ⟨token, htext⟩ := (mem_tokens_iff _).mp hmem
            rw [(PrimitiveToken.ofText?_eq_some_iff _ _).mpr htext] at htoken
            cases htoken
          rw [if_neg hnot]
          rfl
  | .obj fields, location => by
      have ih := render_items_inFields fields location.items
      rw [Items.ofJson, itemsText]
      cases href : referenceOf fields with
      | some target =>
          rw [stringAt?_eq_some href]
          exact congrArg (· ++ "[]") (name_eq_lastSegment target.path)
      | none =>
          rw [stringAt?_eq_none href]
          by_cases htype : (Fields.get? fields "type").isSome = true
          · have hkind := render_kind_ofFields fields location.items
              (Items.inFields fields location.items)
            rw [ih] at hkind
            simp only [if_pos htype, ← hkind]
            rfl
          · simp only [if_neg htype]
            rfl
  | .null, _ => rfl
  | .bool _, _ => rfl
  | .num _, _ => rfl
  | .arr _, _ => rfl

/-- An array with the given attributes renders as it denotes. -/
lemma render_items_inFields :
    ∀ (fields : List (String × Json)) (location : Location),
      (Items.inFields fields location).1.render = arrayText fields
  | [], _ => rfl
  | (key, value) :: rest, location => by
      rw [Items.inFields, arrayText]
      split
      · exact render_items_ofJson value location
      · exact render_items_inFields rest location

end

/-- **A value renders as it denotes**, as the property it is read into. -/
lemma render_ofJson (value : Json) (location : Location) :
    (Property.ofJson value location).1.render = typeText value := by
  cases value with
  | obj fields =>
      have hkind := render_kind_ofFields fields location (Items.inFields fields location)
      rw [render_items_inFields] at hkind
      exact hkind
  | _ => rfl

/-! ### Documentation -/

lemma toList_map_labelled (label : String) (fields : Fields) (key : String) :
    (((fields.get? key).map Json.literal).map (label ++ ·)).toList = labelled label fields key := by
  rw [labelled]
  cases fields.get? key <;> rfl

lemma toList_minimumOf (fields : Fields) :
    ((minimumOf fields).map fun n => "Minimum: " ++ n.text).toList = minimumEntry fields := by
  rw [minimumOf, minimumEntry]
  cases fields.get? "minimum" with
  | none => rfl
  | some value => cases value <;> rfl

/-- The example of a property stands first, without a label. -/
lemma toList_example (fields : Fields) :
    ((fields.get? "example").map Json.literal).toList = labelled "" fields "example" := by
  rw [labelled]
  cases fields.get? "example" with
  | none => rfl
  | some value => simp

/-- The kind of a node, with its notes, says what the attributes denote. -/
lemma notes_kind_ofFields (fields : Fields) (location : Location)
    (items : Items × List Finding) :
    ((Kind.ofFields fields location items).1.isDocumentable = false ∧ entries (.obj fields) = [])
      ∨ ((Kind.ofFields fields location items).1.isDocumentable = true ∧
        entries (.obj fields)
          = labelled "" fields "example" ++ (Kind.ofFields fields location items).1.notes) := by
  rw [entries, ← typeTagOf_eq]
  have hread := Kind.read_ofFields fields location items
  generalize Kind.ofFields fields location items = read at hread ⊢
  cases hread with
  | reference href => rw [stringAt?_eq_some href]; exact Or.inl ⟨rfl, rfl⟩
  | untyped href htag => rw [stringAt?_eq_none href, htag]; exact Or.inl ⟨rfl, rfl⟩
  | string href htag =>
      rw [stringAt?_eq_none href, htag, Kind.notes, toList_map_labelled, toList_map_labelled]
      exact Or.inr ⟨rfl, rfl⟩
  | integer href htag =>
      rw [stringAt?_eq_none href, htag, Kind.notes, toList_map_labelled, toList_minimumOf]
      exact Or.inr ⟨rfl, rfl⟩
  | array href htag => rw [stringAt?_eq_none href, htag]; exact Or.inr ⟨rfl, rfl⟩
  | boolean href htag => rw [stringAt?_eq_none href, htag]; exact Or.inr ⟨rfl, rfl⟩
  | object href htag => rw [stringAt?_eq_none href, htag]; exact Or.inr ⟨rfl, rfl⟩
  | email href htag => rw [stringAt?_eq_none href, htag]; exact Or.inr ⟨rfl, rfl⟩
  | other href htag hother =>
      simp only [recognisedTags, List.mem_cons, List.not_mem_nil, or_false, not_or] at hother
      rw [stringAt?_eq_none href, htag]
      exact Or.inr ⟨rfl, by simp [notes, Kind.notes, hother]⟩

/-- A value is documented with its entries, if it has any. -/
lemma documentation_ofJson (value : Json) (location : Location) (indent : Indent) :
    (Property.ofJson value location).1.documentation indent
      = if entries value = [] then none else some ⟨indent, entries value⟩ := by
  cases value with
  | obj fields =>
      have hkind := notes_kind_ofFields fields location (Items.inFields fields location)
      rw [Property.documentation]
      simp only [Property.ofJson, Property.ofFields, Property.entries, toList_example]
      obtain ⟨hdoc, hentries⟩ | ⟨hdoc, hentries⟩ := hkind
      · rw [hdoc, hentries]
        simp
      · rw [hdoc, ← hentries]
        by_cases hempty : entries (.obj fields) = [] <;> simp [hempty]
  | _ => rfl

/-- **A value is documented as it denotes**, as the property it is read into. -/
lemma documentationLines_ofJson (documentation : Bool) (value : Json) (location : Location)
    (indent : Indent) :
    (((Property.ofJson value location).1.documentationLines documentation indent).map Line.text)
      = blockLines documentation indent.blanks value := by
  rw [Property.documentationLines, documentation_ofJson, blockLines]
  cases documentation with
  | false => simp
  | true =>
      by_cases hempty : entries value = []
      · simp [hempty]
      · rw [if_neg hempty, if_pos rfl, if_pos ⟨rfl, hempty⟩]
        simp [DocBlock.documentationLines, map_text_completingLast, DocBlock.lines, Line.blank,
          Line.plain, DocBlock.opening, DocBlock.closing, DocBlock.entryLine, String.append_assoc]

/-! ### Declarations -/

/-- An entry of a union with a reference denotes its name, any other the unknown
type. -/
lemma memberText_eq (entry : Json) :
    memberText entry
      = ((entry.fields?.bind referenceOf).map UnionMember.reference
          |>.getD .unresolved).render := by
  cases entry with
  | obj fields =>
      rw [memberText, Json.fields?, Option.bind_some, referenceOf_eq]
      cases stringAt? fields "$ref" with
      | none => rfl
      | some path => exact (name_eq_lastSegment path).symm
  | _ => rfl

lemma map_render_membersFrom (index : ℕ) (entries : List Json) :
    (UnionType.membersFrom index entries).1.map UnionMember.render = entries.map memberText := by
  induction entries generalizing index with
  | nil => rfl
  | cons entry rest ih =>
      rw [List.map_cons, ← ih (index + 1), memberText_eq, UnionType.membersFrom]
      cases entry.fields?.bind referenceOf <;> rfl

lemma render_union_ofJson (anyOf : Json) : (UnionType.ofJson anyOf).1.render = unionText anyOf := by
  cases anyOf with
  | arr entries =>
      cases entries with
      | nil => rfl
      | cons entry rest =>
          have hmembers := map_render_membersFrom 0 (entry :: rest)
          simp only [UnionType.ofJson, UnionType.render, unionText, hmembers,
            UnionType.isEmpty_membersFrom, joinWith_eq_intercalate]
          rfl
  | _ => rfl

/-- The body of a record, property by property. -/
lemma bodyLines_ofFields (documentation : Bool) (fields : Fields) (properties : Json) :
    ((RecordType.ofFields fields properties).1.bodyLines documentation).map Line.text
      = (properties.fields?.getD []).flatMap
          fun (key, value) => propertyLines documentation fields key value := by
  cases properties with
  | obj entries =>
      simp only [RecordType.ofFields, RecordType.bodyLines, List.map_map, List.flatMap_map,
        List.map_flatMap, Json.fields?, Option.getD_some]
      refine List.flatMap_congr fun entry _ => ?_
      obtain ⟨key, value⟩ := entry
      simp only [Function.comp_apply, List.map_append, List.map_cons, List.map_nil,
        RecordType.propertyLine, RecordType.propertyText, isRequired_requiredOf, render_ofJson,
        documentationLines_ofJson, propertyLines]
      rfl
  | _ => rfl

/-- **A schema is declared as it denotes.** -/
lemma texts_ofJson (documentation : Bool) (name : String) (value : Json) :
    ((SchemaNode.ofJson value).1.lines documentation name).map Line.text
      = group documentation name value := by
  have hread := SchemaNode.read_ofJson value
  generalize SchemaNode.ofJson value = read at hread ⊢
  cases hread with
  | @record fields properties h =>
      have hbody := bodyLines_ofFields documentation fields properties
      simp only [group, h, ← hbody, Prod.map_fst, SchemaNode.lines, List.map_append, List.map_cons,
        List.map_nil]
      rfl
  | @union fields anyOf h hunion =>
      simp only [group, h, hunion, ← render_union_ofJson]
      rfl
  | property h =>
      have hplain : ((SchemaNode.property (Property.ofJson value .schema).1).lines documentation
            name).map Line.text
          = blockLines documentation "" value
            ++ ["export type " ++ name ++ " = " ++ typeText value] := by
        simp only [SchemaNode.lines, List.map_append, List.map_cons, List.map_nil,
          documentationLines_ofJson, render_ofJson]
        rfl
      cases value with
      | obj fields =>
          obtain ⟨hproperties, hanyOf⟩ := h fields rfl
          simp only [group, hproperties, hanyOf]
          exact hplain
      | _ => exact hplain

/-- The lines of the collection that a mapping is read into are those that the
mapping denotes. -/
lemma schemaTexts_eq_lines (documentation : Bool) (mapping : Fields) :
    schemaTexts documentation mapping = lines documentation mapping := by
  rw [schemaTexts, Collection.texts, Collection.lines, map_text_separated, lines]
  simp only [Collection.ofFields, List.map_map]
  congr 1
  refine List.map_congr_left fun entry _ => ?_
  exact texts_ofJson documentation entry.1 entry.2

/-- **A generation writes the lines that its mapping denotes**: on a destination
that never fails it leaves those lines, and on any other it does what writing
them one after the other does. -/
theorem generateSchemas_denotation (mapping : Fields) (documentation : Bool) :
    (∃ statistics, generateSchemas mapping documentation {}
          = .ok statistics
              { held := (terminated (lines documentation mapping)).toUTF8
                flushes := (lines documentation mapping).length + 1 }
        ∧ statistics.lines = (lines documentation mapping).length)
      ∧ ∀ sink, mapAnswer Statistics.lines (generateSchemas mapping documentation sink)
          = LineSink.writeOut (lines documentation mapping) sink := by
  rw [← schemaTexts_eq_lines]
  exact ⟨generateSchemas_unlimited mapping documentation,
    generateSchemas_eq_writeOut mapping documentation⟩

end SchemaTypes
