import SchemaTypes.Schema.Node
import SchemaTypes.Schema.Warning
import SchemaTypes.Text.Blank

/-!
Schemas read off JSON.

* `Property.ofJson`, `SchemaNode.ofJson`: the shape of a value and the findings
  about it. Reading never fails: a node that fits no shape takes the most
  permissive one, and a finding tells of it;
* `Collection.ofFields`: every entry of a mapping of schemas, in its order.
-/

namespace SchemaTypes

/-- The reference that a node is, if it has a `$ref` that is a string. -/
def referenceOf (fields : Fields) : Option Reference :=
  ((fields.get? "$ref").bind Json.text?).map Reference.mk

/-- The type tag of a node, without the blanks at its ends. -/
def typeTagOf (fields : Fields) : Option String :=
  ((fields.get? "type").bind Json.text?).map trim

/-- The values of an enumeration, if there are any. -/
def enumValuesOf (fields : Fields) : Option (List String) :=
  match fields.get? "enum" with
  | some (.arr (value :: values)) => some ((value :: values).map Json.literal)
  | _ => none

/-- The least value of an integer, if it is a number. -/
def minimumOf (fields : Fields) : Option Number :=
  match fields.get? "minimum" with
  | some (.num n) => some n
  | _ => none

/-- The kind of the node with the given attributes; `items` is what the node's
items are in case it is an array. -/
def Kind.ofFields (fields : Fields) (location : Location) (items : Items × List Finding) :
    Kind × List Finding :=
  match referenceOf fields with
  | some target => (.reference target, [])
  | none =>
    match typeTagOf fields with
    | none => (.untyped, [.opaqueNode location])
    | some "array" => (.array items.1, items.2)
    | some "string" =>
      (.string (enumValuesOf fields) ((fields.get? "format").map Json.literal)
        ((fields.get? "pattern").map Json.literal), [])
    | some "integer" =>
      (.integer ((fields.get? "format").map Json.literal) (minimumOf fields), [])
    | some "boolean" => (.boolean, [])
    | some "object" => (.object, [])
    | some "email" => (.email, [])
    | some tag => (.other tag, [])

/-- The property with the given attributes. -/
def Property.ofFields (fields : Fields) (location : Location) (items : Items × List Finding) :
    Property × List Finding :=
  let (kind, findings) := Kind.ofFields fields location items
  (⟨kind, fields.get? "example", fields.get? "default"⟩, findings)

mutual

/-- The items of the array at `location`, given its `items` attribute. Objects
with a type are properties of their own. -/
def Items.ofJson : Json → Location → Items × List Finding
  | .str text, location =>
    match PrimitiveToken.ofText? (trim text) with
    | some token => (.primitive token, [])
    | none => (.verbatim (.str text), [.malformedItems location])
  | .obj fields, location =>
    match referenceOf fields with
    | some target => (.reference target, [])
    | none =>
      if (Fields.get? fields "type").isSome then
        let (node, findings) :=
          Property.ofFields fields location.items (Items.inFields fields location.items)
        (.typed node, findings)
      else (.verbatim (.obj fields), [.malformedItems location])
  | value, location => (.verbatim value, [.malformedItems location])

/-- The items of the array at `location`, given all of its attributes. -/
def Items.inFields : List (String × Json) → Location → Items × List Finding
  | [], location => (.missing, [.malformedItems location])
  | (key, value) :: rest, location =>
    if key = "items" then Items.ofJson value location else Items.inFields rest location

end

/-- The property that a value describes. -/
def Property.ofJson (value : Json) (location : Location) : Property × List Finding :=
  match value with
  | .obj fields => Property.ofFields fields location (Items.inFields fields location)
  | _ => (⟨.untyped, none, none⟩, [.opaqueNode location])

/-- The keys that a record requires: the strings of its `required` list. -/
def requiredOf (fields : Fields) : List String :=
  match fields.get? "required" with
  | some (.arr keys) => keys.filterMap Json.text?
  | _ => []

/-- The record with the given attributes and `properties`. -/
def RecordType.ofFields (fields : Fields) (properties : Json) : RecordType × List Finding :=
  match properties with
  | .obj entries =>
    let read := entries.map fun (key, value) => (key, Property.ofJson value (.property key))
    (⟨read.map fun (key, p) => (key, p.1), requiredOf fields⟩, read.flatMap fun (_, p) => p.2)
  | _ => (⟨[], requiredOf fields⟩, [.malformedProperties])

/-- The alternatives that the entries of a union name, the first entry being at
position `index`, and the findings about them. -/
def UnionType.membersFrom : Nat → List Json → List UnionMember × List Finding
  | _, [] => ([], [])
  | index, entry :: entries =>
    let (members, findings) := membersFrom (index + 1) entries
    match entry.fields?.bind referenceOf with
    | some target => (.reference target :: members, findings)
    | none => (.unresolved :: members, .memberWithoutReference index :: findings)

/-- The union that an `anyOf` attribute describes. -/
def UnionType.ofJson (anyOf : Json) : UnionType × List Finding :=
  match anyOf with
  | .arr (entry :: entries) =>
    let (members, findings) := membersFrom 0 (entry :: entries)
    (⟨members⟩, findings)
  | _ => (⟨[]⟩, [.malformedUnion])

/-- The schema that a value describes: `properties` make a record, else
`anyOf` makes a union, and anything else is a property. -/
def SchemaNode.ofJson (value : Json) : SchemaNode × List Finding :=
  match value with
  | .obj fields =>
    match Fields.get? fields "properties", Fields.get? fields "anyOf" with
    | some properties, _ => (RecordType.ofFields fields properties).map .record id
    | none, some anyOf => (UnionType.ofJson anyOf).map .union id
    | none, none => (Property.ofJson value .schema).map .property id
  | _ => (Property.ofJson value .schema).map .property id

/-! ### Collections -/

/-- Named schemas in the order of their declaration. -/
structure Collection where
  schemas : List (String × SchemaNode)

namespace Collection

def size (c : Collection) : Nat := c.schemas.length

def isEmpty (c : Collection) : Bool := c.schemas.isEmpty

/-- The schemas of a mapping, and the warnings about them. -/
def ofFields (mapping : Fields) : Collection × List Warning :=
  let read := mapping.map fun (name, value) => (name, SchemaNode.ofJson value)
  (⟨read.map fun (name, node) => (name, node.1)⟩,
    read.flatMap fun (name, node) => node.2.map (Warning.mk name))

end Collection

end SchemaTypes
