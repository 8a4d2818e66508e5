import SchemaTypes.Json.Value
import SchemaTypes.Number.Decimal
import SchemaTypes.Yaml.Cursor

/-!
The values of YAML scalars.

* `Scalar.null?`, `Scalar.bool?`, `Scalar.integer?`, `Scalar.real?`: the texts of
  each type;
* `Scalar.plainValue`: the value of a plain scalar by its text;
* `Scalar.value`: the value of a scalar by its tag, its style and its text.
-/

namespace SchemaTypes.Yaml.Scalar

/-- Whether a text spells null. -/
def isNull (text : List Char) : Bool :=
  ["null", "Null", "NULL", "~"].any (·.toList = text)

/-- The truth value spelled by a text. -/
def bool? (text : List Char) : Option Bool :=
  if ["true", "True", "TRUE"].any (·.toList = text) then some true
  else if ["false", "False", "FALSE"].any (·.toList = text) then some false
  else none

/-! ### Integers -/

/-- Whether a text is two or more digits that begin with a zero, behind an
optional sign. Such a text is a string. -/
def hasLeadingZero (text : List Char) : Bool :=
  let digits := (splitSign text).2
  1 < digits.length && digits.head? = some '0' && digits.all Char.isDigit

/-- The integer spelled by a text: an optional sign, then decimal digits, or
digits of the base that a mark tells. -/
def integer? (text : List Char) : Option Int :=
  let (negative, digits) := splitSign text
  let spelled (base : Nat) (digits : List Char) : Option Nat :=
    if digits.isEmpty then none else natural? base digits
  let magnitude :=
    match digits with
    | '0' :: 'x' :: rest => spelled 16 rest
    | '0' :: 'o' :: rest => spelled 8 rest
    | '0' :: 'b' :: rest => spelled 2 rest
    | _ => if hasLeadingZero text then none else spelled 10 digits
  magnitude.map fun n => if negative then -(n : Int) else n

/-- Where an integer belongs by its size. -/
inductive Size where
  /-- Within sixty-four bits, without sign if it is not negative. -/
  | word
  /-- Within a hundred and twenty-eight bits. -/
  | doubleWord
  | beyond
deriving DecidableEq

def sizeOf (n : Int) : Size :=
  if -Int.pow 2 63 ≤ n ∧ n < Int.pow 2 64 then .word
  else if -Int.pow 2 127 ≤ n ∧ n < Int.pow 2 128 then .doubleWord
  else .beyond

/-! ### Numbers with a fraction -/

/-- The number spelled by a text. Infinities and the undefined number are
`some none`. -/
def real? (text : List Char) : Option (Option Binary64) :=
  let unsigned :=
    match text with
    | '+' :: rest => rest
    | _ => text
  if unsigned ≠ text ∧ (unsigned.head? = some '+' ∨ unsigned.head? = some '-') then none
  else if [".inf", ".Inf", ".INF"].any (·.toList = unsigned) then some none
  else if ["-.inf", "-.Inf", "-.INF", ".nan", ".NaN", ".NAN"].any (·.toList = text) then some none
  else (Binary64.ofText? unsigned).map some

/-- Numbers that are not finite have no JSON value but null. -/
def realValue : Option Binary64 → Json
  | some f => .num (.real f)
  | none => .null

/-! ### Values -/

/-- The value of a plain scalar. -/
def plainValue (text : List Char) : Except Fault Json :=
  let other : Json :=
    if hasLeadingZero text then .str (String.ofList text)
    else (real? text).elim (.str (String.ofList text)) realValue
  if text.isEmpty || isNull text then .ok .null
  else
    match bool? text, integer? text with
    | some b, _ => .ok (.bool b)
    | none, some n =>
      match sizeOf n with
      | .word => .ok (.num (.integer n))
      | .doubleWord => .error .integerRange
      | .beyond => .ok other
    | none, none => .ok other

/-- What the tags of the standard types begin with. -/
def standard (name : String) : List Char := "tag:yaml.org,2002:".toList ++ name.toList

/-- Whether a tag belongs to the document's own types. -/
def isLocal (tag : List Char) : Bool := tag.head? = some '!'

/-- The value of a scalar. The tags of the standard types force a type on the
text, whatever its style; other tags leave it a string. -/
def value (tag : Option (List Char)) (isPlain : Bool) (text : List Char) : Except Fault Json :=
  let string : Json := .str (String.ofList text)
  match tag with
  | none => if isPlain then plainValue text else .ok string
  | some tag =>
    if isLocal tag then .error .localTag
    else if tag = standard "bool" then ((bool? text).map Json.bool).elim (.error .scalarType) .ok
    else if tag = standard "int" then
      match (integer? text).map fun n => (n, sizeOf n) with
      | some (n, .word) => .ok (.num (.integer n))
      | some (_, .doubleWord) => .error .integerRange
      | _ => .error .scalarType
    else if tag = standard "float" then
      ((real? text).map realValue).elim (.error .scalarType) .ok
    else if tag = standard "null" then if isNull text then .ok .null else .error .scalarType
    else .ok string

end SchemaTypes.Yaml.Scalar
