import Mathlib.Tactic
import SchemaTypes.Schema.Collection

/-!
How nodes are read off JSON.

* `Kind.Read`: the ways in which the attributes of a node decide its kind, with
  the findings that come with each; `Kind.read_ofFields` says that there are no
  others;
* `SchemaNode.Read`: the same for a whole schema: a record, a union or a
  property;
* `PrimitiveToken.ofText?_eq_some_iff`: a token is spelled by its own text only.
-/

namespace SchemaTypes

/-- The type tags that are not passed through as they are. -/
def recognisedTags : List String :=
  ["array", "string", "integer", "boolean", "object", "email"]

section

variable (fields : Fields) (location : Location) (items : Items × List Finding)

/-- **The kinds of a node**: what each is decided by, and what is found. -/
inductive Kind.Read : Kind × List Finding → Prop where
  | reference {target : Reference} (href : referenceOf fields = some target) :
      Read (.reference target, [])
  | untyped (href : referenceOf fields = none) (htag : typeTagOf fields = none) :
      Read (.untyped, [.opaqueNode location])
  | array (href : referenceOf fields = none) (htag : typeTagOf fields = some "array") :
      Read (.array items.1, items.2)
  | string (href : referenceOf fields = none) (htag : typeTagOf fields = some "string") :
      Read (.string (enumValuesOf fields) ((fields.get? "format").map Json.literal)
        ((fields.get? "pattern").map Json.literal), [])
  | integer (href : referenceOf fields = none) (htag : typeTagOf fields = some "integer") :
      Read (.integer ((fields.get? "format").map Json.literal) (minimumOf fields), [])
  | boolean (href : referenceOf fields = none) (htag : typeTagOf fields = some "boolean") :
      Read (.boolean, [])
  | object (href : referenceOf fields = none) (htag : typeTagOf fields = some "object") :
      Read (.object, [])
  | email (href : referenceOf fields = none) (htag : typeTagOf fields = some "email") :
      Read (.email, [])
  | other {tag : String} (href : referenceOf fields = none) (htag : typeTagOf fields = some tag)
      (hother : tag ∉ recognisedTags) : Read (.other tag, [])

/-- A node is read in one of these ways. -/
theorem Kind.read_ofFields : Kind.Read fields location items (Kind.ofFields fields location items) := by
  cases href : referenceOf fields with
  | some target =>
      simp only [Kind.ofFields, href]
      exact .reference href
  | none =>
      simp only [Kind.ofFields, href]
      split
      · next htag => exact .untyped href htag
      · next htag => exact .array href htag
      · next htag => exact .string href htag
      · next htag => exact .integer href htag
      · next htag => exact .boolean href htag
      · next htag => exact .object href htag
      · next htag => exact .email href htag
      · next tag harray hstring hinteger hboolean hobject hemail htag =>
          refine .other href htag ?_
          simp only [recognisedTags, List.mem_cons, List.not_mem_nil, or_false, not_or]
          exact ⟨harray, hstring, hinteger, hboolean, hobject, hemail⟩

end

/-- **The schemas that a value can describe**: what each is decided by. -/
inductive SchemaNode.Read : Json → SchemaNode × List Finding → Prop where
  | record {fields : Fields} {properties : Json} (h : fields.get? "properties" = some properties) :
      Read (.obj fields) ((RecordType.ofFields fields properties).map .record id)
  | union {fields : Fields} {anyOf : Json} (h : fields.get? "properties" = none)
      (hunion : fields.get? "anyOf" = some anyOf) :
      Read (.obj fields) ((UnionType.ofJson anyOf).map .union id)
  | property {value : Json}
      (h : ∀ fields, value = .obj fields →
        Fields.get? fields "properties" = none ∧ Fields.get? fields "anyOf" = none) :
      Read value ((Property.ofJson value .schema).map .property id)

/-- A schema is read in one of these ways. -/
theorem SchemaNode.read_ofJson (value : Json) : SchemaNode.Read value (SchemaNode.ofJson value) := by
  cases value with
  | obj fields =>
      simp only [SchemaNode.ofJson]
      cases hproperties : Fields.get? fields "properties" with
      | some properties => exact .record hproperties
      | none =>
          cases hanyOf : Fields.get? fields "anyOf" with
          | some anyOf => exact .union hproperties hanyOf
          | none =>
              refine .property fun fields' hfields => ?_
              cases hfields
              exact ⟨hproperties, hanyOf⟩
  | _ => exact .property fun fields hfields => by cases hfields

/-- An entry that is there gives a member. -/
lemma UnionType.isEmpty_membersFrom (index : ℕ) (entry : Json) (rest : List Json) :
    (membersFrom index (entry :: rest)).1.isEmpty = false := by
  rw [membersFrom]
  cases entry.fields?.bind referenceOf <;> rfl

/-- A text spells a token just if it is the token's own text. -/
lemma PrimitiveToken.ofText?_eq_some_iff (text : String) (token : PrimitiveToken) :
    ofText? text = some token ↔ token.text = text := by
  constructor
  · intro h
    rw [ofText?] at h
    simpa using List.find?_some h
  · rintro rfl
    cases token <;> rfl

end SchemaTypes
