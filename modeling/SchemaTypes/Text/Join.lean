/-!
Joining texts.

* `joinWith`: texts with a separator between neighbours.
-/

namespace SchemaTypes

/-- The texts in order with `separator` between neighbours. -/
def joinWith (separator : String) : List String → String
  | [] => ""
  | [text] => text
  | text :: next :: rest => text ++ separator ++ joinWith separator (next :: rest)

end SchemaTypes
