import SchemaTypes.Text.Split

/-!
White space and trimming.

* `isBlank`: the twenty-five characters with the Unicode property
  White_Space;
* `trim`: a text without its blank ends.
-/

namespace SchemaTypes

/-- The ranges of characters with the Unicode property White_Space. -/
def blankRanges : List (Nat × Nat) :=
  [(0x09, 0x0D), (0x20, 0x20), (0x85, 0x85), (0xA0, 0xA0), (0x1680, 0x1680),
   (0x2000, 0x200A), (0x2028, 0x2029), (0x202F, 0x202F), (0x205F, 0x205F), (0x3000, 0x3000)]

/-- Whether a character has the Unicode property White_Space. -/
def isBlank (c : Char) : Bool :=
  blankRanges.any fun (low, high) => low ≤ c.toNat && c.toNat ≤ high

/-- A text without the blanks at either end. -/
def trim (text : String) : String := String.ofList (trimEnds isBlank text.toList)

end SchemaTypes
