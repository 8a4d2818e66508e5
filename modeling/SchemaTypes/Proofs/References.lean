import SchemaTypes.Proofs.Decoding
import SchemaTypes.Proofs.Denotation

/-!
References of an output.

A reference is written as the last segment of its path, in four places: alone, in
front of the marks of arrays, as the items of an array and as a member of a union.
The names that are declared reach the output apart from all of these, as the keys
of the mapping. The two meet if the references of the mapping lead to its own keys.

* `Part`, `Kind.parts`, `UnionType.parts`: type expressions in parts, which keep
  apart the names of references and other text;
* `Denotation.typeTarget?`, `Denotation.consulted`: the references of a JSON value
  and of a mapping that are looked at, as they stand there;
* `refers_ofJson`, `targets_ofJson`: reading a value finds these references and no
  others;
* `SelfContained`: mappings whose references lead to their own names;
* `DeclaresReferences`, `references_declared`: the references in the output of such a
  mapping are written as names that are declared once;
* `tag_undeclared`: type tags are no references, and need no declaration.
-/

namespace SchemaTypes

/-! ### Type expressions in parts -/

/-- A part of a type expression: the name of a reference, or other text. -/
inductive Part where
  | text (words : String)
  | name (target : Reference)
deriving DecidableEq

def Part.shown : Part → String
  | .text words => words
  | .name target => target.name

def Part.target? : Part → Option Reference
  | .text _ => none
  | .name target => some target

/-- The text of parts one after the other. -/
def shownParts (parts : List Part) : String := String.join (parts.map Part.shown)

/-- The references among parts. -/
def targets (parts : List Part) : List Reference := parts.filterMap Part.target?

@[simp] lemma shownParts_cons (part : Part) (rest : List Part) :
    shownParts (part :: rest) = part.shown ++ shownParts rest := by
  simp [shownParts]

lemma shownParts_singleton (part : Part) : shownParts [part] = part.shown := by
  simp [shownParts]

@[simp] lemma shownParts_append (front back : List Part) :
    shownParts (front ++ back) = shownParts front ++ shownParts back := by
  simp [shownParts]

@[simp] lemma targets_append (front back : List Part) :
    targets (front ++ back) = targets front ++ targets back := by
  simp [targets]

mutual

/-- The parts of `Kind.render`. -/
def Kind.parts : Kind → List Part
  | .reference target => [.name target]
  | .array items => items.parts
  | kind => [.text kind.render]

/-- The parts of `Items.render`. -/
def Items.parts : Items → List Part
  | .reference target => [.name target, .text arraySuffix]
  | .typed node => node.parts ++ [.text arraySuffix]
  | items => [.text items.render]

/-- The parts of `Property.render`. -/
def Property.parts : Property → List Part
  | ⟨kind, _, _⟩ => kind.parts

end

/-- The part of `UnionMember.render`. -/
def UnionMember.part : UnionMember → Part
  | reference target => .name target
  | unresolved => .text unknownType

/-- The parts of `UnionType.render`. -/
def UnionType.parts (type : UnionType) : List Part :=
  if type.members.isEmpty then [.text unknownType]
  else (type.members.map UnionMember.part).intersperse (.text " | ")

/-- The type expressions of a schema. -/
def SchemaNode.expressions : SchemaNode → List (List Part)
  | record type => type.properties.map fun (_, p) => p.parts
  | union type => [type.parts]
  | property p => [p.parts]

/-- The references in the type expressions of a schema. -/
def SchemaNode.references (node : SchemaNode) : List Reference := node.expressions.flatMap targets

/-- The references in the type expressions of a collection. -/
def Collection.references (c : Collection) : List Reference :=
  c.schemas.flatMap fun (_, node) => node.references

mutual

lemma shownParts_kind : ∀ kind : Kind, shownParts kind.parts = kind.render
  | .reference target => shownParts_singleton (.name target)
  | .array items => by rw [Kind.parts, Kind.render, shownParts_items items]
  | .string _ _ _ => shownParts_singleton _
  | .integer _ _ => shownParts_singleton _
  | .boolean => shownParts_singleton _
  | .object => shownParts_singleton _
  | .email => shownParts_singleton _
  | .other _ => shownParts_singleton _
  | .untyped => shownParts_singleton _

lemma shownParts_items : ∀ items : Items, shownParts items.parts = items.render
  | .primitive _ => shownParts_singleton _
  | .reference target => by
      rw [Items.parts, shownParts_cons, shownParts_singleton]
      rfl
  | .typed node => by
      rw [Items.parts, Items.render, shownParts_append, shownParts_property node,
        shownParts_singleton]
      rfl
  | .missing => shownParts_singleton _
  | .verbatim _ => shownParts_singleton _

/-- The parts of a property show its type expression. -/
lemma shownParts_property : ∀ p : Property, shownParts p.parts = p.render
  | ⟨kind, _, _⟩ => by rw [Property.parts, Property.render, shownParts_kind kind]

end

lemma shownParts_intersperse (separator : String) : ∀ parts : List Part,
    shownParts (parts.intersperse (.text separator)) = joinWith separator (parts.map Part.shown)
  | [] => rfl
  | [part] => shownParts_singleton part
  | part :: next :: rest => by
      have ih := shownParts_intersperse separator (next :: rest)
      simp only [List.intersperse_cons_cons, shownParts_cons, ih]
      simp [joinWith, Part.shown, String.append_assoc]

lemma targets_intersperse (separator : String) : ∀ parts : List Part,
    targets (parts.intersperse (.text separator)) = targets parts
  | [] => rfl
  | [part] => rfl
  | part :: next :: rest => by
      have ih := targets_intersperse separator (next :: rest)
      rw [List.intersperse_cons_cons]
      simp only [targets, List.filterMap_cons, Part.target?] at ih ⊢
      rw [ih]

lemma shown_part (member : UnionMember) : member.part.shown = member.render := by
  cases member <;> rfl

/-- The parts of a union show its type expression. -/
lemma shownParts_union (type : UnionType) : shownParts type.parts = type.render := by
  rw [UnionType.parts, UnionType.render]
  split
  · exact shownParts_singleton _
  · rw [shownParts_intersperse, List.map_map]
    congr 1
    exact List.map_congr_left fun member _ => shown_part member

/-- The type expressions in the skeleton of a schema. -/
def Shape.types : Shape → List String
  | record properties => properties.map PropertyShape.type
  | single type _ => [type]

lemma types_shape (documentation : Bool) (node : SchemaNode) :
    (node.shape documentation).types = node.expressions.map shownParts := by
  cases node with
  | record type =>
      simp only [SchemaNode.shape, RecordType.shape, Shape.types, SchemaNode.expressions,
        List.map_map]
      exact List.map_congr_left fun entry _ => (shownParts_property entry.2).symm
  | union type => exact congrArg (fun text => [text]) (shownParts_union type).symm
  | property p => exact congrArg (fun text => [text]) (shownParts_property p).symm

/-- A skeleton has the type expressions of its collection. -/
lemma map_types_schemaSkeleton (documentation : Bool) (mapping : Fields) :
    ((schemaSkeleton documentation mapping).map fun (_, shape) => shape.types)
      = (Collection.ofFields mapping).1.schemas.map
          fun (_, node) => node.expressions.map shownParts := by
  rw [schemaSkeleton, Collection.skeleton, List.map_map]
  exact List.map_congr_left fun entry _ => types_shape documentation entry.2

/-! ### References of a mapping -/

namespace Denotation

/-- The reference in the type expression of an object, with the number of arrays
around it; `array` is that of its type as an array. -/
def objectTarget? (fields : Fields) (array : Option (String × ℕ)) : Option (String × ℕ) :=
  match stringAt? fields "$ref", tag? fields with
  | some path, _ => some (path, 0)
  | none, some "array" => array
  | none, _ => none

mutual

/-- The reference in the type expression of an array with the given `items`. -/
def itemsTarget? : Json → Option (String × ℕ)
  | .obj fields =>
    match stringAt? fields "$ref" with
    | some path => some (path, 1)
    | none =>
      if (Fields.get? fields "type").isSome then
        (objectTarget? fields (arrayTarget? fields)).map (Prod.map id (· + 1))
      else none
  | _ => none

/-- The reference in the type expression of an array with the given attributes. -/
def arrayTarget? : List (String × Json) → Option (String × ℕ)
  | [] => none
  | (key, value) :: rest => if key = "items" then itemsTarget? value else arrayTarget? rest

end

/-- The reference in the type expression of a value, with the number of arrays
around it. -/
def typeTarget? : Json → Option (String × ℕ)
  | .obj fields => objectTarget? fields (arrayTarget? fields)
  | _ => none

/-- The reference of an entry of `anyOf`. -/
def memberTarget? : Json → Option String
  | .obj fields => stringAt? fields "$ref"
  | _ => none

/-- The reference of a value that is a type of its own. -/
def typePath? (value : Json) : Option String := (typeTarget? value).map Prod.fst

/-- The references of a schema: those of its properties, else those of its `anyOf`,
else its own. -/
def groupTargets : Json → List String
  | .obj fields =>
    match Fields.get? fields "properties", Fields.get? fields "anyOf" with
    | some properties, _ => (properties.fields?.getD []).filterMap fun (_, value) => typePath? value
    | none, some (.arr entries) => entries.filterMap memberTarget?
    | none, some _ => []
    | none, none => (typePath? (.obj fields)).toList
  | _ => []

/-- The references of a mapping that are looked at. -/
def consulted (mapping : Fields) : List String :=
  mapping.flatMap fun (_, value) => groupTargets value

end Denotation

open Denotation

/-- What the parts of a type expression come to: a reference in front of the marks
of the arrays around it, or no reference. -/
def Refers (parts : List Part) : Option (String × ℕ) → Prop
  | some (path, depth) => parts = .name ⟨path⟩ :: List.replicate depth (.text arraySuffix)
  | none => targets parts = []

/-- One more array around a type expression. -/
lemma Refers.suffix {parts : List Part} {target : Option (String × ℕ)} (h : Refers parts target) :
    Refers (parts ++ [.text arraySuffix]) (target.map (Prod.map id (· + 1))) := by
  match target, h with
  | none, h =>
      rw [Refers] at h
      rw [Option.map_none, Refers, targets_append, h]
      rfl
  | some (path, depth), h =>
      rw [Refers] at h
      rw [h, List.cons_append, ← List.replicate_succ']
      rfl

/-- The references among the parts of a type expression. -/
lemma Refers.targets_eq {parts : List Part} {target : Option (String × ℕ)}
    (h : Refers parts target) :
    targets parts = (target.map fun (path, _) => Reference.mk path).toList := by
  match target, h with
  | none, h => exact h
  | some (path, depth), h =>
      have hmarks : targets (List.replicate depth (.text arraySuffix)) = [] := by
        simp [targets, Part.target?]
      rw [Refers] at h
      rw [h]
      exact congrArg (Reference.mk path :: ·) hmarks

lemma refers_kind_ofFields (fields : Fields) (location : Location) {items : Items × List Finding}
    {array : Option (String × ℕ)} (h : Refers items.1.parts array) :
    Refers (Kind.ofFields fields location items).1.parts (objectTarget? fields array) := by
  rw [objectTarget?, ← typeTagOf_eq]
  have hread := Kind.read_ofFields fields location items
  generalize Kind.ofFields fields location items = read at hread ⊢
  cases hread with
  | reference href => rw [stringAt?_eq_some href]; rfl
  | array href htag => rw [stringAt?_eq_none href, htag]; exact h
  | untyped href htag => rw [stringAt?_eq_none href, htag]; rfl
  | string href htag => rw [stringAt?_eq_none href, htag]; rfl
  | integer href htag => rw [stringAt?_eq_none href, htag]; rfl
  | boolean href htag => rw [stringAt?_eq_none href, htag]; rfl
  | object href htag => rw [stringAt?_eq_none href, htag]; rfl
  | email href htag => rw [stringAt?_eq_none href, htag]; rfl
  | other href htag hother =>
      simp only [recognisedTags, List.mem_cons, List.not_mem_nil, or_false, not_or] at hother
      rw [stringAt?_eq_none href, htag]
      simp [hother, Refers, Kind.parts, targets, Part.target?]

mutual

/-- Items are read with the reference that stands in them. -/
lemma refers_items_ofJson :
    ∀ (value : Json) (location : Location),
      Refers (Items.ofJson value location).1.parts (itemsTarget? value)
  | .str text, location => by
      have hnone : itemsTarget? (.str text) = none := by simp [itemsTarget?]
      rw [Items.ofJson, hnone]
      cases PrimitiveToken.ofText? (trim text) <;> rfl
  | .obj fields, location => by
      have ih := refers_items_inFields fields location.items
      rw [Items.ofJson, itemsTarget?]
      cases href : referenceOf fields with
      | some target =>
          rw [stringAt?_eq_some href]
          rfl
      | none =>
          rw [stringAt?_eq_none href]
          by_cases htype : (Fields.get? fields "type").isSome = true
          · -- typed items are a property of their own, with one more array around it
            have hkind := refers_kind_ofFields fields location.items ih
            simp only [if_pos htype]
            exact hkind.suffix
          · simp only [if_neg htype]
            rfl
  | .null, _ => rfl
  | .bool _, _ => rfl
  | .num _, _ => rfl
  | .arr _, _ => rfl

lemma refers_items_inFields :
    ∀ (fields : List (String × Json)) (location : Location),
      Refers (Items.inFields fields location).1.parts (arrayTarget? fields)
  | [], _ => rfl
  | (key, value) :: rest, location => by
      rw [Items.inFields, arrayTarget?]
      split
      · exact refers_items_ofJson value location
      · exact refers_items_inFields rest location

end

/-- **A value is read with the reference that stands in it**, behind as many arrays. -/
lemma refers_ofJson (value : Json) (location : Location) :
    Refers (Property.ofJson value location).1.parts (typeTarget? value) := by
  cases value with
  | obj fields =>
      exact refers_kind_ofFields fields location (refers_items_inFields fields location)
  | _ => rfl

lemma targets_property_ofJson (value : Json) (location : Location) :
    targets (Property.ofJson value location).1.parts
      = ((typePath? value).map Reference.mk).toList := by
  rw [(refers_ofJson value location).targets_eq, typePath?, Option.map_map]
  rfl

/-- Every entry of an `anyOf` gives the member for its reference. -/
lemma membersFrom_eq (index : ℕ) (entries : List Json) :
    (UnionType.membersFrom index entries).1
      = entries.map fun entry =>
          ((memberTarget? entry).map (UnionMember.reference ⟨·⟩)).getD .unresolved := by
  induction entries generalizing index with
  | nil => rfl
  | cons entry rest ih =>
      have hentry : entry.fields?.bind referenceOf = (memberTarget? entry).map Reference.mk := by
        cases entry with
        | obj fields => exact referenceOf_eq fields
        | _ => rfl
      rw [UnionType.membersFrom, hentry, List.map_cons, ← ih (index + 1)]
      cases memberTarget? entry <;> rfl

lemma targets_members (index : ℕ) (entries : List Json) :
    targets ((UnionType.membersFrom index entries).1.map UnionMember.part)
      = (entries.filterMap memberTarget?).map Reference.mk := by
  rw [membersFrom_eq, targets, List.map_map, List.filterMap_map, List.map_filterMap]
  refine List.filterMap_congr fun entry _ => ?_
  rw [Function.comp_apply, Function.comp_apply]
  cases memberTarget? entry <;> rfl

lemma targets_union_ofJson (entries : List Json) :
    targets (UnionType.ofJson (.arr entries)).1.parts
      = (entries.filterMap memberTarget?).map Reference.mk := by
  cases entries with
  | nil => rfl
  | cons entry rest =>
      have hmembers := targets_members 0 (entry :: rest)
      simp only [UnionType.ofJson, UnionType.parts, UnionType.isEmpty_membersFrom,
        Bool.false_eq_true, if_false, targets_intersperse, hmembers]

/-- **A schema is read with the references that stand in it.** -/
lemma references_ofJson (value : Json) :
    (SchemaNode.ofJson value).1.references = (groupTargets value).map Reference.mk := by
  have hread := SchemaNode.read_ofJson value
  generalize SchemaNode.ofJson value = read at hread ⊢
  cases hread with
  | @record fields properties h =>
      simp only [groupTargets, h, Prod.map_fst, SchemaNode.references, SchemaNode.expressions]
      cases properties with
      | obj entries =>
          simp only [RecordType.ofFields, List.map_map, List.flatMap_map, Json.fields?,
            Option.getD_some, List.map_filterMap, Function.comp_apply, targets_property_ofJson]
          exact (List.filterMap_eq_flatMap_toList _ _).symm
      | _ => rfl
  | @union fields anyOf h hunion =>
      simp only [groupTargets, h, hunion, Prod.map_fst, SchemaNode.references,
        SchemaNode.expressions, List.flatMap_singleton]
      cases anyOf with
      | arr entries => exact targets_union_ofJson entries
      | _ => rfl
  | property h =>
      simp only [Prod.map_fst, SchemaNode.references, SchemaNode.expressions,
        List.flatMap_singleton, targets_property_ofJson]
      cases value with
      | obj fields =>
          obtain ⟨hproperties, hanyOf⟩ := h fields rfl
          simp only [groupTargets, hproperties, hanyOf]
          cases typePath? (.obj fields) <;> rfl
      | _ => rfl

lemma references_ofFields (mapping : Fields) :
    (Collection.ofFields mapping).1.references = (consulted mapping).map Reference.mk := by
  simp only [Collection.references, Collection.ofFields, consulted, List.map_map, List.flatMap_map,
    List.map_flatMap, Function.comp_apply, references_ofJson]

/-! ### Declarations of an output -/

/-- Whether a line begins a declaration. -/
def isDeclaration (line : String) : Bool := "export type ".toList.isPrefixOf line.toList

/-- What stands behind the head of a declaration. -/
def Shape.opening : Shape → String
  | record _ => "\x7b"
  | single type _ => type

lemma isDeclaration_head (name text : String) :
    isDeclaration (declarationHead name ++ text) = true := by
  simp [isDeclaration, declarationHead, String.toList_append]

lemma filter_entryTexts (indent : Indent) (entries : List String) :
    (entryTexts indent entries).filter isDeclaration = [] := by
  rw [List.filter_eq_nil_iff]
  intro line hline
  rw [entryTexts] at hline
  split at hline
  · cases hline
  · obtain rfl | hline := List.mem_cons.mp hline
    · decide
    · obtain ⟨mark, hmark, rfl⟩ := List.mem_map.mp hline
      -- behind the blanks of its block a line begins with a mark of comments
      obtain ⟨rest, hrest⟩ : ∃ rest, mark.toList = '/' :: rest ∨ mark.toList = '*' :: rest := by
        simp only [List.cons_append, List.mem_cons, List.mem_append, List.mem_map,
          List.not_mem_nil, or_false] at hmark
        obtain rfl | ⟨entry, -, rfl⟩ | rfl := hmark
        · exact ⟨_, Or.inl rfl⟩
        · exact ⟨_, Or.inr (by simp [DocBlock.entryLine, String.toList_append]; rfl)⟩
        · exact ⟨_, Or.inr rfl⟩
      cases indent <;> obtain h | h := hrest <;>
        simp [isDeclaration, String.toList_append, Indent.blanks, h]

lemma filter_propertyTexts (p : PropertyShape) : p.texts.filter isDeclaration = [] := by
  have htext : ¬ isDeclaration p.text = true := by
    simp [isDeclaration, PropertyShape.text, String.toList_append]
  rw [PropertyShape.texts, List.filter_append, filter_entryTexts, List.filter_cons_of_neg htext]
  rfl

/-- One line of a schema begins its declaration. -/
lemma filter_shape (name : String) (shape : Shape) :
    (shape.texts name).filter isDeclaration = [declarationHead name ++ shape.opening] := by
  cases shape with
  | record properties =>
      have hproperties : (properties.flatMap PropertyShape.texts).filter isDeclaration = [] := by
        rw [List.filter_flatMap]
        simp [filter_propertyTexts]
      have hclosing : isDeclaration "\x7d" = false := by decide
      rw [Shape.texts, List.filter_append, List.filter_cons_of_pos (isDeclaration_head name _),
        hproperties, List.filter_singleton, hclosing]
      rfl
  | single type entries =>
      rw [Shape.texts, List.filter_append, filter_entryTexts, List.filter_singleton,
        isDeclaration_head]
      rfl

/-- **The declarations among the lines of a skeleton**: one for each of its names. -/
lemma filter_texts (s : Skeleton) :
    s.texts.filter isDeclaration
      = s.map fun (name, shape) => declarationHead name ++ shape.opening := by
  induction s with
  | nil => rfl
  | cons entry rest ih =>
      obtain ⟨name, shape⟩ := entry
      cases rest with
      | nil => rw [Skeleton.texts_singleton, filter_shape]; rfl
      | cons next rest =>
          have hblank : ¬ isDeclaration "" = true := by decide
          rw [Skeleton.texts_cons_cons, List.filter_append, filter_shape,
            List.filter_cons_of_neg hblank, ih]
          rfl

/-! ### Mappings that refer to themselves -/

/-- The path of the schema with a name. -/
def schemaPath (name : String) : String := "#/components/schemas/" ++ name

/-- A mapping whose references lead to its own names. No name is given twice, as in
every mapping, or has a slash, which is where the name of a reference begins. -/
structure SelfContained (mapping : Fields) : Prop where
  nodup : (mapping.map Prod.fst).Nodup
  plain : ∀ name ∈ mapping.map Prod.fst, '/' ∉ name.toList
  declared : ∀ path ∈ consulted mapping, ∃ name ∈ mapping.map Prod.fst, path = schemaPath name

lemma name_append_slash (front : String) {name : String} (h : '/' ∉ name.toList) :
    (Reference.mk (front ++ "/" ++ name)).name = name := by
  have hpath : (front ++ "/" ++ name).toList = front.toList ++ '/' :: name.toList := by
    simp [String.toList_append]
  rw [Reference.name, hpath, afterLast_append_cons _ h, String.ofList_toList]

/-- A reference to a schema is written as the name of the schema. -/
lemma name_schemaPath {name : String} (h : '/' ∉ name.toList) :
    (Reference.mk (schemaPath name)).name = name := by
  have hfront : "#/components/schemas/" = "#/components/schemas" ++ "/" := by decide +kernel
  have hpath : schemaPath name = "#/components/schemas" ++ "/" ++ name :=
    congrArg (· ++ name) hfront
  rw [hpath]
  exact name_append_slash _ h

/-- A type expression with a reference to a schema is the name of the schema, with
the marks of the arrays around it. -/
lemma render_of_target {name : String} (hplain : '/' ∉ name.toList) {value : Json} {depth : ℕ}
    (h : typeTarget? value = some (schemaPath name, depth)) (location : Location) :
    (Property.ofJson value location).1.render
      = name ++ String.join (List.replicate depth arraySuffix) := by
  have hrefers := refers_ofJson value location
  rw [h, Refers] at hrefers
  rw [← shownParts_property, hrefers, shownParts_cons, Part.shown, name_schemaPath hplain,
    shownParts, List.map_replicate]
  rfl

/-- What becomes of the references of a mapping in its output. Type expressions are
shown in parts; nothing is said of parts that are text, such as type tags. -/
structure DeclaresReferences (mapping : Fields) (documentation : Bool) : Prop where
  /-- The output is made of a skeleton, whose names are those of the mapping. -/
  written : output documentation mapping
    = (terminated (schemaSkeleton documentation mapping).texts).toUTF8
  names : (schemaSkeleton documentation mapping).map Prod.fst = mapping.map Prod.fst
  /-- The type expressions of the skeleton are those of the schemas. -/
  types : ((schemaSkeleton documentation mapping).map fun (_, shape) => shape.types)
    = (Collection.ofFields mapping).1.schemas.map fun (_, node) => node.expressions.map shownParts
  /-- One line begins the declaration of each name, and no other line begins one. -/
  declarations : (schemaSkeleton documentation mapping).texts.filter isDeclaration
    = (schemaSkeleton documentation mapping).map fun (name, shape) =>
        declarationHead name ++ shape.opening
  /-- The references among the parts are those of the mapping. -/
  references : (Collection.ofFields mapping).1.references = (consulted mapping).map Reference.mk
  /-- Each reference leads to a name and is written as that name, which is declared once. -/
  declared : ∀ target ∈ (Collection.ofFields mapping).1.references,
    ∃ name, target.path = schemaPath name ∧ target.name = name
      ∧ (mapping.map Prod.fst).count name = 1
  /-- Alone or with arrays around it, a reference is written as its name and the marks of
  the arrays. -/
  alone : ∀ name ∈ mapping.map Prod.fst, ∀ value depth,
    typeTarget? value = some (schemaPath name, depth) → ∀ location,
      (Property.ofJson value location).1.render
        = name ++ String.join (List.replicate depth arraySuffix)
  /-- As a member of a union, a reference is written as its name. -/
  members : ∀ name ∈ mapping.map Prod.fst, ∀ (entries : List Json) (i : ℕ),
    entries[i]?.bind memberTarget? = some (schemaPath name) →
      ((UnionType.membersFrom 0 entries).1[i]?).map UnionMember.render = some name

/-- A reference among the members of a union is written as its name. -/
lemma render_of_member {name : String} (hplain : '/' ∉ name.toList) {entries : List Json} {i : ℕ}
    (h : entries[i]?.bind memberTarget? = some (schemaPath name)) :
    ((UnionType.membersFrom 0 entries).1[i]?).map UnionMember.render = some name := by
  obtain ⟨entry, hi, hpath⟩ := Option.bind_eq_some_iff.mp h
  rw [membersFrom_eq, List.getElem?_map, hi]
  simp only [Option.map_some, hpath, Option.getD_some]
  exact congrArg some (name_schemaPath hplain)

/-- Each reference of a self-contained mapping leads to a name that is given once. -/
lemma SelfContained.exists_name {mapping : Fields} (h : SelfContained mapping) {target : Reference}
    (htarget : target ∈ (Collection.ofFields mapping).1.references) :
    ∃ name, target.path = schemaPath name ∧ target.name = name
      ∧ (mapping.map Prod.fst).count name = 1 := by
  rw [references_ofFields] at htarget
  obtain ⟨path, hpath, rfl⟩ := List.mem_map.mp htarget
  obtain ⟨name, hname, rfl⟩ := h.declared path hpath
  exact ⟨name, rfl, name_schemaPath (h.plain name hname), List.count_eq_one_of_mem h.nodup hname⟩

/-- **References are declared.** The references in the output of a self-contained mapping
are those of the mapping, and each of them is written as a name of which one line begins
the only declaration. -/
theorem references_declared {mapping : Fields} (h : SelfContained mapping) (documentation : Bool) :
    DeclaresReferences mapping documentation where
  written := output_eq_terminated documentation mapping
  names := map_fst_schemaSkeleton documentation mapping
  types := map_types_schemaSkeleton documentation mapping
  declarations := filter_texts _
  references := references_ofFields mapping
  declared _ htarget := h.exists_name htarget
  alone name hname _ _ htarget location := render_of_target (h.plain name hname) htarget location
  members name hname _ _ hentry := render_of_member (h.plain name hname) hentry

/-- A record with lists of its own kind, a union, and another name for a schema. -/
def pets : Fields :=
  [("Pet", .obj [("properties", .obj
      [("owner", .obj [("$ref", .str "#/components/schemas/Owner")]),
       ("litters", .obj [("type", .str "array"), ("items", .obj [("type", .str "array"),
          ("items", .obj [("$ref", .str "#/components/schemas/Pet")])])])])]),
   ("Owner", .obj [("type", .str "string")]),
   ("Being", .obj [("anyOf", .arr [.obj [("$ref", .str "#/components/schemas/Pet")],
      .obj [("$ref", .str "#/components/schemas/Owner")]])]),
   ("Keeper", .obj [("$ref", .str "#/components/schemas/Owner")])]

theorem references_declared_pets :
    SelfContained pets
      ∧ (schemaTexts true pets).filter isDeclaration
          = ["export type Pet = \x7b", "export type Owner = string",
              "export type Being = Pet | Owner", "export type Keeper = Owner"]
      ∧ (Collection.ofFields pets).1.references.map Reference.name
          = ["Owner", "Pet", "Pet", "Owner", "Owner"]
      ∧ ∀ target ∈ (Collection.ofFields pets).1.references, ∃ name,
          target.path = schemaPath name ∧ target.name = name
            ∧ (pets.map Prod.fst).count name = 1 := by
  have hpets : SelfContained pets :=
    ⟨by decide +kernel, by decide +kernel, by decide +kernel⟩
  exact ⟨hpets, by decide +kernel, by decide +kernel, (references_declared hpets true).declared⟩

/-- A schema with a tag that is the name of no type. -/
def tagged : Fields := [("A", .obj [("type", .str "Foo")])]

/-- That references are declared says nothing of type tags: a mapping without references
can have a declaration whose type is declared nowhere. -/
theorem tag_undeclared :
    SelfContained tagged ∧ consulted tagged = []
      ∧ output false tagged = "export type A = Foo\r\n".toUTF8
      ∧ (schemaSkeleton false tagged).map (fun entry => (entry.1, entry.2.types)) = [("A", ["Foo"])]
      ∧ (schemaSkeleton false tagged).texts.filter isDeclaration = ["export type A = Foo"]
      ∧ "Foo" ∉ (schemaSkeleton false tagged).map Prod.fst :=
  ⟨⟨by decide +kernel, by decide +kernel, by decide +kernel⟩, by decide +kernel,
    by decide +kernel, by decide +kernel, by decide +kernel, by decide +kernel⟩

end SchemaTypes
