/-!
Findings about malformed schemas.

* `Location`: a place inside of a schema;
* `Finding`: what is malformed there;
* `Warning`: a finding with the name of its schema, and its text.
-/

namespace SchemaTypes

/-- A place inside of a named schema. -/
inductive Location where
  /-- The schema itself. -/
  | schema
  | property (key : String)
  /-- The items of the array at a place. -/
  | items (place : Location)
deriving DecidableEq

def Location.text : Location → String
  | schema => "schema"
  | property key => s!"property '{key}'"
  | items place => place.text ++ " items"

/-- A malformed place of a schema, which is declared by the most permissive
rule. -/
inductive Finding where
  | opaqueNode (location : Location)
  | memberWithoutReference (index : Nat)
  | malformedUnion
  | malformedItems (location : Location)
  | malformedProperties
deriving DecidableEq

def Finding.text : Finding → String
  | opaqueNode location => s!"{location.text} has no usable type, rendered as unknown"
  | memberWithoutReference index => s!"anyOf entry {index} has no $ref, rendered as unknown"
  | malformedUnion => "anyOf is not a non-empty list, rendered as unknown"
  | malformedItems location => s!"{location.text} has malformed array items, passed through"
  | malformedProperties => "properties is not a mapping, emitted as an empty type"

/-- A finding about the schema of the given name. -/
structure Warning where
  schema : String
  finding : Finding
deriving DecidableEq

def Warning.message (w : Warning) : String := s!"Schema '{w.schema}': {w.finding.text}"

end SchemaTypes
