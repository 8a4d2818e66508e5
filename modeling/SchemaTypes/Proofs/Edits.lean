import Mathlib.Logic.Relation
import SchemaTypes.Proofs.Blocks
import SchemaTypes.Proofs.Denotation

/-!
Edits that leave the declarations as they are.

* `PropertyEdit`: one edit of a property, or of the typed items of an array at any
  depth, that spares all that a type expression is read off;
* `SchemaEdit`: the same for a whole schema, be it a record, a union or a type of
  its own;
* `Edit`: one such edit somewhere in a mapping;
* `PropertyEdit.typeText_eq`, `PropertyEdit.findings_eq`: an edited property has
  the same type expression, and the same is found of it;
* `SchemaEdit.alike`: an edited schema has the same lines without documentation;
* `generateSchemas_edits`: any number of edits leave a generation without
  documentation as it is, and one with documentation but for its blocks.
-/

namespace SchemaTypes

open Denotation

/-! ### Edits -/

/-- The attributes agree on the given keys; they may differ in any other way. -/
def Fields.AgreeOn (f g : Fields) (keys : List String) : Prop :=
  ∀ key ∈ keys, f.get? key = g.get? key

/-- An array with this value for its items reads it as a property: it has a type,
and is no reference. -/
def Json.IsTyped : Json → Prop
  | .obj fields => stringAt? fields "$ref" = none ∧ (Fields.get? fields "type").isSome = true
  | _ => False

/-- An edit of a property. -/
inductive PropertyEdit : Json → Json → Prop
  /-- All attributes may change but those that the type expression is read off. -/
  | attributes {f g : Fields} (h : f.AgreeOn g ["$ref", "type", "items", "enum"]) :
      PropertyEdit (.obj f) (.obj g)
  /-- Blanks around the type tag. -/
  | padding {f g : Fields} {tag before after : String}
      (h : f.AgreeOn g ["$ref", "items", "enum"])
      (htag : f.get? "type" = some (.str tag))
      (hpadded : g.get? "type" = some (.str (before ++ tag ++ after)))
      (hbefore : before.toList.all isBlank = true) (hafter : after.toList.all isBlank = true) :
      PropertyEdit (.obj f) (.obj g)
  /-- An edit of items that are a property of their own. -/
  | items {f g : Fields} {x y : Json} (h : f.AgreeOn g ["$ref", "type", "enum"])
      (hf : f.get? "items" = some x) (hg : g.get? "items" = some y) (htyped : x.IsTyped)
      (hedit : PropertyEdit x y) :
      PropertyEdit (.obj f) (.obj g)

/-- An edit of a schema. -/
inductive SchemaEdit : Json → Json → Prop
  /-- An edit of a type of its own that touches neither `properties` nor `anyOf`. -/
  | property {f g : Fields} (hrecord : f.get? "properties" = none)
      (hunion : f.get? "anyOf" = none) (h : f.AgreeOn g ["properties", "anyOf"])
      (hedit : PropertyEdit (.obj f) (.obj g)) :
      SchemaEdit (.obj f) (.obj g)
  /-- All attributes of a record may change but `properties`; the new ones have to
  require the same properties of the record. -/
  | record {f g : Fields} {properties : Json} (hf : f.get? "properties" = some properties)
      (h : f.AgreeOn g ["properties"])
      (hrequired : ∀ entry ∈ properties.fields?.getD [],
        isRequired f entry.1 = isRequired g entry.1) :
      SchemaEdit (.obj f) (.obj g)
  /-- An edit of one property of a record. -/
  | entry {f g : Fields} {front back : Fields} {key : String} {x y : Json}
      (hf : f.get? "properties" = some (.obj (front ++ (key, x) :: back)))
      (hg : g.get? "properties" = some (.obj (front ++ (key, y) :: back)))
      (h : f.AgreeOn g ["required"]) (hedit : PropertyEdit x y) :
      SchemaEdit (.obj f) (.obj g)
  /-- All attributes of a union may change but `properties` and `anyOf`. -/
  | union {f g : Fields} {anyOf : Json} (hrecord : f.get? "properties" = none)
      (hf : f.get? "anyOf" = some anyOf) (h : f.AgreeOn g ["properties", "anyOf"]) :
      SchemaEdit (.obj f) (.obj g)
  /-- An object among the entries of a union may change but for its reference. -/
  | member {f g : Fields} {front back : List Json} {x y : Fields}
      (hrecord : f.get? "properties" = none)
      (hf : f.get? "anyOf" = some (.arr (front ++ .obj x :: back)))
      (hg : g.get? "anyOf" = some (.arr (front ++ .obj y :: back)))
      (h : f.AgreeOn g ["properties"])
      (href : stringAt? x "$ref" = stringAt? y "$ref") :
      SchemaEdit (.obj f) (.obj g)

/-- An edit of one schema of a mapping. -/
inductive Edit : Fields → Fields → Prop
  | schema {front back : Fields} {name : String} {x y : Json} (h : SchemaEdit x y) :
      Edit (front ++ (name, x) :: back) (front ++ (name, y) :: back)

/-! ### Blanks around a tag -/

/-- Outer characters around a text do not count for its trimming. -/
lemma trimEnds_padded {outer : Char → Bool} {before after : List Char}
    (hbefore : before.all outer = true) (hafter : after.all outer = true) (cs : List Char) :
    trimEnds outer (before ++ cs ++ after) = trimEnds outer cs := by
  have hfront : before.dropWhile outer = [] :=
    List.dropWhile_eq_nil_iff.mpr (by simpa using hbefore)
  have hback : after.reverse.dropWhile outer = [] :=
    List.dropWhile_eq_nil_iff.mpr (by simpa using hafter)
  have hafter' : after.dropWhile outer = [] :=
    List.dropWhile_eq_nil_iff.mpr (by simpa using hafter)
  rw [trimEnds, trimEnds, List.append_assoc, List.dropWhile_append, hfront,
    if_pos (List.isEmpty_nil), List.dropWhile_append]
  by_cases hempty : (cs.dropWhile outer).isEmpty = true
  · rw [if_pos hempty, hafter', List.isEmpty_iff.mp hempty]
  · rw [if_neg hempty, List.reverse_append, List.dropWhile_append, hback, if_pos List.isEmpty_nil]

lemma trim_padded {before after : String} (hbefore : before.toList.all isBlank = true)
    (hafter : after.toList.all isBlank = true) (tag : String) :
    trim (before ++ tag ++ after) = trim tag := by
  rw [trim, trim, String.toList_append, String.toList_append, trimEnds_padded hbefore hafter]

/-! ### Attributes that agree -/

namespace Fields.AgreeOn

variable {f g : Fields} {keys : List String}

lemma stringAt?_eq (h : f.AgreeOn g keys) (key : String) (hkey : key ∈ keys) :
    stringAt? f key = stringAt? g key := by
  rw [stringAt?, stringAt?, h key hkey]

lemma tag?_eq (h : f.AgreeOn g keys) (hkey : "type" ∈ keys) : tag? f = tag? g := by
  rw [tag?, tag?, h.stringAt?_eq "type" hkey]

lemma enumText_eq (h : f.AgreeOn g keys) (hkey : "enum" ∈ keys) : enumText f = enumText g := by
  rw [enumText, enumText, h "enum" hkey]

lemma isRequired_eq (h : f.AgreeOn g keys) (hkey : "required" ∈ keys) (key : String) :
    isRequired f key = isRequired g key := by
  rw [isRequired, isRequired, h "required" hkey]

end Fields.AgreeOn

/-! ### Items -/

/-- The type expression of an array is that of its `items`. -/
lemma arrayText_eq (fields : Fields) :
    arrayText fields = ((fields.get? "items").map itemsText).getD "unknown[]" := by
  induction fields with
  | nil => rfl
  | cons entry rest ih =>
      obtain ⟨key, value⟩ := entry
      rw [arrayText, Fields.get?]
      split_ifs
      · rfl
      · exact ih

/-- What is found of an array is found of its `items`, or that there are none. -/
lemma findings_inFields (fields : Fields) (location : Location) :
    (Items.inFields fields location).2
      = ((fields.get? "items").map fun value => (Items.ofJson value location).2).getD
          [.malformedItems location] := by
  induction fields with
  | nil => rfl
  | cons entry rest ih =>
      obtain ⟨key, value⟩ := entry
      rw [Items.inFields, Fields.get?]
      split_ifs
      · rfl
      · exact ih

lemma itemsText_of_typed {value : Json} (h : value.IsTyped) :
    itemsText value = typeText value ++ "[]" := by
  cases value with
  | obj fields =>
      obtain ⟨href, htype⟩ := h
      rw [itemsText, href]
      exact if_pos htype
  | _ => exact h.elim

/-- Of typed items is found what is found of the property that they are. -/
lemma findings_of_typed {value : Json} (h : value.IsTyped) (location : Location) :
    (Items.ofJson value location).2 = (Property.ofJson value location.items).2 := by
  cases value with
  | obj fields =>
      obtain ⟨href, htype⟩ := h
      have hnone : referenceOf fields = none := by rw [referenceOf_eq, href, Option.map_none]
      rw [Items.ofJson, hnone]
      simp only [if_pos htype]
      rfl
  | _ => exact h.elim

/-! ### What a property is read off -/

/-- What is found of a property: that it has no type, or what is found of its
items. -/
lemma findings_ofFields (fields : Fields) (location : Location) :
    (Property.ofJson (.obj fields) location).2
      = if stringAt? fields "$ref" ≠ none then []
        else if tag? fields = none then [.opaqueNode location]
        else if tag? fields = some "array" then (Items.inFields fields location).2
        else [] := by
  have hread := Kind.read_ofFields fields location (Items.inFields fields location)
  rw [Property.ofJson, Property.ofFields, ← typeTagOf_eq]
  generalize Kind.ofFields fields location (Items.inFields fields location) = read at hread ⊢
  cases hread with
  | reference href => simp [stringAt?_eq_some href]
  | other href htag hother =>
      simp only [recognisedTags, List.mem_cons, List.not_mem_nil, or_false, not_or] at hother
      simp [stringAt?_eq_none href, htag, hother]
  | untyped href htag => simp [stringAt?_eq_none href, htag]
  | array href htag => simp [stringAt?_eq_none href, htag]
  | string href htag => simp [stringAt?_eq_none href, htag]
  | integer href htag => simp [stringAt?_eq_none href, htag]
  | boolean href htag => simp [stringAt?_eq_none href, htag]
  | object href htag => simp [stringAt?_eq_none href, htag]
  | email href htag => simp [stringAt?_eq_none href, htag]

section

variable {f g : Fields} (href : stringAt? f "$ref" = stringAt? g "$ref") (htag : tag? f = tag? g)

include href htag

lemma typeText_congr (henum : enumText f = enumText g)
    (hitems : (f.get? "items").map itemsText = (g.get? "items").map itemsText) :
    typeText (.obj f) = typeText (.obj g) := by
  simp only [typeText, objectText, arrayText_eq, href, htag, henum, hitems]

lemma findings_congr {location : Location}
    (hitems : (f.get? "items").map (fun value => (Items.ofJson value location).2)
      = (g.get? "items").map fun value => (Items.ofJson value location).2) :
    (Property.ofJson (.obj f) location).2 = (Property.ofJson (.obj g) location).2 := by
  rw [findings_ofFields, findings_ofFields, findings_inFields, findings_inFields, href, htag,
    hitems]

end

/-! ### Edited properties -/

namespace PropertyEdit

variable {x y : Json}

/-- Typed items stay typed. -/
lemma isTyped (h : PropertyEdit x y) (htyped : x.IsTyped) : y.IsTyped := by
  cases h with
  | attributes h =>
      have href := h.stringAt?_eq "$ref" (by simp)
      have htype := h "type" (by simp)
      exact ⟨href ▸ htyped.1, htype ▸ htyped.2⟩
  | padding h htag hpadded =>
      have href := h.stringAt?_eq "$ref" (by simp)
      exact ⟨href ▸ htyped.1, by rw [hpadded]; rfl⟩
  | items h =>
      have href := h.stringAt?_eq "$ref" (by simp)
      have htype := h "type" (by simp)
      exact ⟨href ▸ htyped.1, htype ▸ htyped.2⟩

/-- A padded tag is the same tag. -/
lemma tag?_padded {f g : Fields} {tag before after : String}
    (htag : f.get? "type" = some (.str tag))
    (hpadded : g.get? "type" = some (.str (before ++ tag ++ after)))
    (hbefore : before.toList.all isBlank = true) (hafter : after.toList.all isBlank = true) :
    tag? f = tag? g := by
  rw [tag?, tag?, stringAt?, stringAt?, htag, hpadded]
  exact congrArg some (trim_padded hbefore hafter tag).symm

/-- **An edited property has the same type expression.** -/
lemma typeText_eq (h : PropertyEdit x y) : typeText x = typeText y := by
  induction h with
  | attributes h =>
      refine typeText_congr (h.stringAt?_eq "$ref" (by simp)) (h.tag?_eq (by simp))
        (h.enumText_eq (by simp)) ?_
      rw [h "items" (by simp)]
  | padding h htag hpadded hbefore hafter =>
      refine typeText_congr (h.stringAt?_eq "$ref" (by simp))
        (tag?_padded htag hpadded hbefore hafter) (h.enumText_eq (by simp)) ?_
      rw [h "items" (by simp)]
  | items h hf hg htyped hedit ih =>
      refine typeText_congr (h.stringAt?_eq "$ref" (by simp)) (h.tag?_eq (by simp))
        (h.enumText_eq (by simp)) ?_
      rw [hf, hg, Option.map_some, Option.map_some, itemsText_of_typed htyped,
        itemsText_of_typed (hedit.isTyped htyped), ih]

/-- **The same is found of an edited property**, at the same places. -/
lemma findings_eq (h : PropertyEdit x y) (location : Location) :
    (Property.ofJson x location).2 = (Property.ofJson y location).2 := by
  induction h generalizing location with
  | attributes h =>
      refine findings_congr (h.stringAt?_eq "$ref" (by simp)) (h.tag?_eq (by simp)) ?_
      rw [h "items" (by simp)]
  | padding h htag hpadded hbefore hafter =>
      refine findings_congr (h.stringAt?_eq "$ref" (by simp))
        (tag?_padded htag hpadded hbefore hafter) ?_
      rw [h "items" (by simp)]
  | items h hf hg htyped hedit ih =>
      refine findings_congr (h.stringAt?_eq "$ref" (by simp)) (h.tag?_eq (by simp)) ?_
      rw [hf, hg, Option.map_some, Option.map_some, findings_of_typed htyped,
        findings_of_typed (hedit.isTyped htyped), ih location.items]

end PropertyEdit

/-! ### Edited schemas -/

/-- Without documentation both values are declared alike, and the same is found
of both. -/
structure Json.Alike (x y : Json) : Prop where
  lines : ∀ name, (SchemaNode.ofJson x).1.lines false name = (SchemaNode.ofJson y).1.lines false name
  findings : (SchemaNode.ofJson x).2 = (SchemaNode.ofJson y).2

lemma ofJson_record {fields : Fields} {properties : Json}
    (h : fields.get? "properties" = some properties) :
    SchemaNode.ofJson (.obj fields)
      = (RecordType.ofFields fields properties).map .record id := by
  rw [SchemaNode.ofJson, h]

lemma ofJson_union {fields : Fields} {anyOf : Json} (hrecord : fields.get? "properties" = none)
    (h : fields.get? "anyOf" = some anyOf) :
    SchemaNode.ofJson (.obj fields) = (UnionType.ofJson anyOf).map .union id := by
  rw [SchemaNode.ofJson, hrecord, h]

lemma ofJson_property {fields : Fields} (hrecord : fields.get? "properties" = none)
    (hunion : fields.get? "anyOf" = none) :
    SchemaNode.ofJson (.obj fields) = (Property.ofJson (.obj fields) .schema).map .property id := by
  rw [SchemaNode.ofJson, hrecord, hunion]

/-- The line of an entry of a record with the given attributes. -/
def entryLine (fields : Fields) (entry : String × Json) : Line :=
  ⟨"  " ++ entry.1 ++ (if isRequired fields entry.1 then "" else "?") ++ ": " ++ typeText entry.2,
    some .property⟩

/-- Without documentation a record has one line for each entry. -/
lemma lines_record (name : String) (fields : Fields) (properties : Json) :
    (SchemaNode.record (RecordType.ofFields fields properties).1).lines false name
      = .plain (declarationHead name ++ "\x7b")
          :: (properties.fields?.getD []).map (entryLine fields) ++ [⟨"\x7d", some .record⟩] := by
  have hbody : (RecordType.ofFields fields properties).1.bodyLines false
      = (properties.fields?.getD []).map (entryLine fields) := by
    rw [RecordType.bodyLines_false]
    cases properties with
    | obj entries =>
        simp only [RecordType.ofFields, List.map_map, Json.fields?, Option.getD_some]
        refine List.map_congr_left fun entry _ => ?_
        simp only [Function.comp_apply, RecordType.propertyLine, RecordType.propertyText,
          isRequired_requiredOf, render_ofJson, entryLine]
    | _ => rfl
  rw [SchemaNode.lines, hbody]

lemma findings_record (fields : Fields) (entries : Fields) :
    (RecordType.ofFields fields (.obj entries)).2
      = entries.flatMap fun entry => (Property.ofJson entry.2 (.property entry.1)).2 := by
  rw [RecordType.ofFields, List.flatMap_map]

/-- Of the entries of a union only the references count. -/
lemma membersFrom_congr {x y : Json} (h : x.fields?.bind referenceOf = y.fields?.bind referenceOf)
    (front back : List Json) (index : ℕ) :
    UnionType.membersFrom index (front ++ x :: back)
      = UnionType.membersFrom index (front ++ y :: back) := by
  induction front generalizing index with
  | nil => rw [List.nil_append, List.nil_append, UnionType.membersFrom, UnionType.membersFrom, h]
  | cons entry front ih =>
      rw [List.cons_append, List.cons_append, UnionType.membersFrom, UnionType.membersFrom, ih]

lemma union_congr {x y : Json} (h : x.fields?.bind referenceOf = y.fields?.bind referenceOf)
    (front back : List Json) :
    UnionType.ofJson (.arr (front ++ x :: back)) = UnionType.ofJson (.arr (front ++ y :: back)) := by
  have hmembers := membersFrom_congr h front back 0
  cases front with
  | nil =>
      rw [List.nil_append, List.nil_append] at hmembers ⊢
      rw [UnionType.ofJson, UnionType.ofJson, hmembers]
  | cons entry front =>
      rw [List.cons_append, List.cons_append] at hmembers ⊢
      rw [UnionType.ofJson, UnionType.ofJson, hmembers]

/-- **An edited schema is declared alike.** -/
lemma SchemaEdit.alike {x y : Json} (h : SchemaEdit x y) : x.Alike y := by
  cases h with
  | @property f g hrecord hunion h hedit =>
      have hrecord' := (h "properties" (by simp)).symm.trans hrecord
      have hunion' := (h "anyOf" (by simp)).symm.trans hunion
      constructor
      · intro name
        rw [ofJson_property hrecord hunion, ofJson_property hrecord' hunion']
        simp only [Prod.map_fst, SchemaNode.lines, Property.documentationLines, render_ofJson,
          hedit.typeText_eq]
        rfl
      · rw [ofJson_property hrecord hunion, ofJson_property hrecord' hunion']
        exact hedit.findings_eq .schema
  | @record f g properties hf h hrequired =>
      have hg := (h "properties" (by simp)).symm.trans hf
      constructor
      · intro name
        rw [ofJson_record hf, ofJson_record hg, Prod.map_fst, Prod.map_fst, lines_record,
          lines_record]
        congr 2
        refine List.map_congr_left fun entry hentry => ?_
        rw [entryLine, entryLine, hrequired entry hentry]
      · rw [ofJson_record hf, ofJson_record hg]
        cases properties with
        | obj entries => exact (findings_record f entries).trans (findings_record g entries).symm
        | _ => rfl
  | @entry f g front back key x y hf hg h hedit =>
      constructor
      · intro name
        have hmarks : entryLine f = entryLine g := by
          funext entry
          rw [entryLine, entryLine, h.isRequired_eq (List.mem_singleton_self _)]
        have hline : entryLine g (key, x) = entryLine g (key, y) := by
          rw [entryLine, entryLine, hedit.typeText_eq]
        rw [ofJson_record hf, ofJson_record hg, Prod.map_fst, Prod.map_fst, lines_record,
          lines_record]
        simp only [Json.fields?, Option.getD_some, List.map_append, List.map_cons, hmarks, hline]
      · rw [ofJson_record hf, ofJson_record hg]
        simp only [Prod.map_snd, id_eq, findings_record, List.flatMap_append, List.flatMap_cons,
          hedit.findings_eq]
  | @union f g anyOf hrecord hf h =>
      have hrecord' := (h "properties" (by simp)).symm.trans hrecord
      have hg := (h "anyOf" (by simp)).symm.trans hf
      have hsame : SchemaNode.ofJson (.obj f) = SchemaNode.ofJson (.obj g) := by
        rw [ofJson_union hrecord hf, ofJson_union hrecord' hg]
      exact ⟨fun name => by rw [hsame], by rw [hsame]⟩
  | @member f g front back x y hrecord hf hg h href =>
      have hrecord' := (h "properties" (by simp)).symm.trans hrecord
      have hmember : (Json.obj x).fields?.bind referenceOf = (Json.obj y).fields?.bind referenceOf := by
        simp only [Json.fields?, Option.bind_some, referenceOf_eq, href]
      have hsame : SchemaNode.ofJson (.obj f) = SchemaNode.ofJson (.obj g) := by
        rw [ofJson_union hrecord hf, ofJson_union hrecord' hg, union_congr hmember]
      exact ⟨fun name => by rw [hsame], by rw [hsame]⟩

/-! ### Edited mappings -/

/-- A generation hangs on the lines of its collection and on the warnings only. -/
lemma generate_congr {c d : Collection} {documentation : Bool}
    (h : c.lines documentation = d.lines documentation) (warnings : List Warning) (sink : Sink) :
    generate c warnings documentation sink = generate d warnings documentation sink := by
  rw [generate, generate, Emitter.emit_eq_writeAll, Emitter.emit_eq_writeAll,
    show (Emitter.new sink documentation).documentation = documentation from rfl, h]

/-- One edit leaves the lines without documentation and the warnings as they are. -/
lemma Edit.ofFields_eq {a b : Fields} (h : Edit a b) :
    (Collection.ofFields a).1.lines false = (Collection.ofFields b).1.lines false
      ∧ (Collection.ofFields a).2 = (Collection.ofFields b).2 := by
  obtain ⟨hedit⟩ := h
  have halike := hedit.alike
  constructor
  · simp only [Collection.ofFields, Collection.lines, List.map_append, List.map_cons,
      halike.lines]
  · simp only [Collection.ofFields, List.map_append, List.map_cons, List.flatMap_append,
      List.flatMap_cons, halike.findings]

/-- Any number of edits leave them as they are. -/
lemma ofFields_eq_of_edits {a b : Fields} (h : Relation.EqvGen Edit a b) :
    (Collection.ofFields a).1.lines false = (Collection.ofFields b).1.lines false
      ∧ (Collection.ofFields a).2 = (Collection.ofFields b).2 := by
  induction h with
  | rel a b hedit => exact hedit.ofFields_eq
  | refl a => exact ⟨rfl, rfl⟩
  | symm a b _ ih => exact ⟨ih.1.symm, ih.2.symm⟩
  | trans a b c _ _ ih ih' => exact ⟨ih.1.trans ih'.1, ih.2.trans ih'.2⟩

/-- **Edits of what no declaration is read off.** Mappings that differ by any number
of edits give the same generation without documentation, whatever the destination:
the same bytes and flushes, the same end, the same counts and the same warnings.
With documentation they differ in the blocks above their lines only. -/
theorem generateSchemas_edits {a b : Fields} (h : Relation.EqvGen Edit a b) :
    (∀ sink, generateSchemas a false sink = generateSchemas b false sink)
      ∧ (Collection.ofFields a).2 = (Collection.ofFields b).2
      ∧ (Collection.ofFields a).1.passages.map Passage.line
        = (Collection.ofFields b).1.passages.map Passage.line := by
  obtain ⟨hlines, hwarnings⟩ := ofFields_eq_of_edits h
  refine ⟨fun sink => ?_, hwarnings, ?_⟩
  · show generate (Collection.ofFields a).1 (Collection.ofFields a).2 false sink = _
    rw [hwarnings]
    exact generate_congr hlines _ sink
  · rw [← Collection.lines_false, ← Collection.lines_false, hlines]

/-- A mapping with a record and a union, and places for edits in them. -/
def editable (others : Fields) (tag : String) (notes : Fields) (required : List Json)
    (title : Fields) : Fields :=
  [("Pet", .obj (others ++
      [("properties", .obj [("tags", .obj
          [("type", .str tag), ("items", .obj (notes ++ [("type", .str "string")]))])]),
        ("required", .arr required)])),
    ("Any", .obj [("anyOf", .arr [.obj (title ++ [("$ref", .str "#/Pet")]), .bool true])])]

/-- One edit of each kind: in the items of an array, around its tag, of the record
and what it requires, and of a member of the union. -/
theorem generateSchemas_edits_editable :
    let a := editable [] "array" [] [.str "tags"] []
    let b := editable [("anyOf", .null)] "\u2003array " [("format", .str "uuid")]
      [.str "gone", .str "tags"] [("title", .str "Any")]
    Relation.EqvGen Edit a b ∧ ∀ sink, generateSchemas a false sink = generateSchemas b false sink := by
  intro a b
  have hitems : Edit a (editable [] "array" [("format", .str "uuid")] [.str "tags"] []) := by
    refine @Edit.schema [] _ _ _ _ (@SchemaEdit.entry _ _ [] [] "tags" _ _ rfl rfl ?_ ?_)
    · simp [Fields.AgreeOn, Fields.get?]
    · refine .items ?_ rfl rfl ⟨rfl, rfl⟩ (.attributes ?_) <;> simp [Fields.AgreeOn, Fields.get?]
  have hpadding : Edit (editable [] "array" [("format", .str "uuid")] [.str "tags"] [])
      (editable [] "\u2003array " [("format", .str "uuid")] [.str "tags"] []) := by
    refine @Edit.schema [] _ _ _ _ (@SchemaEdit.entry _ _ [] [] "tags" _ _ rfl rfl ?_ ?_)
    · simp [Fields.AgreeOn, Fields.get?]
    · refine @PropertyEdit.padding _ _ "array" "\u2003" " " ?_ rfl rfl (by decide) (by decide)
      simp [Fields.AgreeOn, Fields.get?]
  have hrecord : Edit (editable [] "\u2003array " [("format", .str "uuid")] [.str "tags"] [])
      (editable [("anyOf", .null)] "\u2003array " [("format", .str "uuid")]
        [.str "gone", .str "tags"] []) := by
    refine @Edit.schema [] _ _ _ _ (.record rfl ?_ ?_)
    · simp [Fields.AgreeOn, Fields.get?]
    · simp [Json.fields?, isRequired, Fields.get?, Json.text?]
  have hmember : Edit (editable [("anyOf", .null)] "\u2003array " [("format", .str "uuid")]
      [.str "gone", .str "tags"] []) b := by
    refine @Edit.schema [_] [] "Any" _ _
      (@SchemaEdit.member _ _ [] [.bool true] _ _ rfl rfl rfl ?_ rfl)
    simp [Fields.AgreeOn, Fields.get?]
  have hedits : Relation.EqvGen Edit a b :=
    .trans _ _ _ (.rel _ _ hitems) (.trans _ _ _ (.rel _ _ hpadding)
      (.trans _ _ _ (.rel _ _ hrecord) (.rel _ _ hmember)))
  exact ⟨hedits, (generateSchemas_edits hedits).1⟩

end SchemaTypes
