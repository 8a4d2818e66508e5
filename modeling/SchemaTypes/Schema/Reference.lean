import SchemaTypes.Text.Split

/-!
References to named schemas.

* `Reference`: the path of a `$ref`;
* `Reference.name`: the last segment of the path, which is the name of the
  referenced type.
-/

namespace SchemaTypes

/-- A pointer to another schema, such as `#/components/schemas/Pet`. Paths are
kept as they are, so that every path has a name. -/
structure Reference where
  path : String
deriving DecidableEq

/-- The name of the referenced type. -/
def Reference.name (r : Reference) : String := String.ofList (afterLast '/' r.path.toList)

end SchemaTypes
