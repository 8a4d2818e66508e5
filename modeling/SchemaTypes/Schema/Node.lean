import SchemaTypes.Json.Writer
import SchemaTypes.Schema.Documentation
import SchemaTypes.Schema.Reference
import SchemaTypes.Text.Join

/-!
The shapes of a schema.

* `Property`: a property or a plain top-level schema, by `Kind` and `Items`;
* `SchemaNode`: a record, a union of references, or a property;
* `render`: the type expression of a node;
* `Property.documentation`: the block that describes a property, if there is
  anything to say.
-/

namespace SchemaTypes

/-- The type that malformed nodes are given. -/
def unknownType : String := "unknown"

/-- The mark of an array type, behind the type of its items. -/
def arraySuffix : String := "[]"

/-- The bare type words that an array may name as its items. -/
inductive PrimitiveToken where
  | string
  | integer
  | boolean
deriving DecidableEq

namespace PrimitiveToken

def text : PrimitiveToken → String
  | string => "string"
  | integer => "integer"
  | boolean => "boolean"

/-- The token spelled by a text, exactly. -/
def ofText? (text : String) : Option PrimitiveToken :=
  [string, integer, boolean].find? fun token => token.text = text

/-- What is said of a text that spells no token. -/
def unknownMessage : String := "Matching variant not found"

end PrimitiveToken

mutual

/-- What a property is. -/
inductive Kind where
  | reference (target : Reference)
  | array (items : Items)
  | string (values : Option (List String)) (format : Option String) (pattern : Option String)
  | integer (format : Option String) (minimum : Option Number)
  | boolean
  | object
  | email
  /-- A type tag outside of the recognised ones, rendered as it is. -/
  | other (tag : String)
  /-- Neither a reference nor a node with a type tag. -/
  | untyped

/-- The items of an array. -/
inductive Items where
  | primitive (token : PrimitiveToken)
  | reference (target : Reference)
  | typed (node : Property)
  | missing
  /-- Anything else, rendered as it is. -/
  | verbatim (value : Json)

/-- A property, or a top-level schema that is neither a record nor a union. -/
structure Property where
  kind : Kind
  exampleValue : Option Json
  defaultValue : Option Json

end

/-- One alternative of a union. -/
inductive UnionMember where
  | reference (target : Reference)
  /-- An alternative without a reference. -/
  | unresolved
deriving DecidableEq

/-- A schema with named properties, some of them required. -/
structure RecordType where
  properties : List (String × Property)
  required : List String

/-- One of several named types. -/
structure UnionType where
  members : List UnionMember
deriving DecidableEq

/-- A named schema. -/
inductive SchemaNode where
  | record (type : RecordType)
  | union (type : UnionType)
  | property (node : Property)

/-! ### Type expressions -/

/-- A text between single quotes. -/
def enumLiteral (value : String) : String := "'" ++ value ++ "'"

mutual

/-- The type expression of a kind. -/
def Kind.render : Kind → String
  | .reference target => target.name
  | .array items => items.render
  | .string (some values) _ _ => joinWith "|" (values.map enumLiteral)
  | .string none _ _ => "string"
  | .integer _ _ => "number"
  | .boolean => "boolean"
  | .object => "\x7b\x7d"
  | .email => "string"
  | .other tag => tag
  | .untyped => unknownType

/-- The type expression of an array. Primitive tokens keep their spelling;
typed items are rendered as properties. -/
def Items.render : Items → String
  | .primitive token => token.text ++ arraySuffix
  | .reference target => target.name ++ arraySuffix
  | .typed node => node.render ++ arraySuffix
  | .missing => unknownType ++ arraySuffix
  | .verbatim value => value.literal

/-- The type expression of a property. -/
def Property.render : Property → String
  | ⟨kind, _, _⟩ => kind.render

end

def UnionMember.render : UnionMember → String
  | reference target => target.name
  | unresolved => unknownType

/-- The alternatives in order, or the unknown type if there are none. -/
def UnionType.render (type : UnionType) : String :=
  if type.members.isEmpty then unknownType
  else joinWith " | " (type.members.map UnionMember.render)

/-- Whether the record requires the property with the given key. -/
def RecordType.isRequired (type : RecordType) (key : String) : Bool :=
  type.required.contains key

/-! ### Documentation -/

/-- References and nodes without a type tag are never documented. -/
def Kind.isDocumentable : Kind → Bool
  | reference _ => false
  | untyped => false
  | _ => true

/-- What the attributes of a kind say beside its type. -/
def Kind.notes : Kind → List String
  | string _ format pattern =>
    (format.map ("Format: " ++ ·)).toList ++ (pattern.map ("Pattern: " ++ ·)).toList
  | integer format minimum =>
    (format.map ("Format: " ++ ·)).toList ++
      (minimum.map fun n => "Minimum: " ++ n.text).toList
  | _ => []

/-- The entries of a property's documentation: its example, then the notes of
its kind. -/
def Property.entries (p : Property) : List String :=
  (p.exampleValue.map Json.literal).toList ++ p.kind.notes

/-- The documentation of a property, if it has any entry. -/
def Property.documentation (p : Property) (indent : Indent) : Option DocBlock :=
  if p.kind.isDocumentable && !p.entries.isEmpty then some ⟨indent, p.entries⟩ else none

end SchemaTypes
