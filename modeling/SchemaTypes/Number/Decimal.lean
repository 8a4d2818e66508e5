import SchemaTypes.Number.Binary64
import SchemaTypes.Number.Digits

/-!
Reading binary64 numbers from decimal text.

* `Binary64.ofText?`: an optional sign, digits with an optional point, at least
  one of them, and an optional exponent; the nearest number, where there is a
  finite one.
-/

namespace SchemaTypes

/-- The number spelled by decimal digits. -/
def decimalValue (digits : List Char) : Nat := (natural? 10 digits).getD 0

/-- The sign in front of a text, and the text behind it. -/
def splitSign : List Char → Bool × List Char
  | '-' :: rest => (true, rest)
  | '+' :: rest => (false, rest)
  | cs => (false, cs)

/-- The exponent spelled by the end of a text; none is zero. -/
def exponentOf? : List Char → Option Int
  | [] => some 0
  | mark :: rest =>
    let (negative, digits) := splitSign rest
    if (mark = 'e' ∨ mark = 'E') ∧ !digits.isEmpty ∧ digits.all Char.isDigit then
      some (if negative then -(decimalValue digits : Int) else decimalValue digits)
    else none

/-- The finite number nearest to the one that a text spells. -/
def Binary64.ofText? (cs : List Char) : Option Binary64 :=
  let (negative, cs) := splitSign cs
  let whole := cs.takeWhile Char.isDigit
  let cs := cs.dropWhile Char.isDigit
  let hasPoint := cs.head? = some '.'
  let fraction := if hasPoint then cs.tail.takeWhile Char.isDigit else []
  let cs := if hasPoint then cs.tail.dropWhile Char.isDigit else cs
  if whole.isEmpty && fraction.isEmpty then none
  else
    (exponentOf? cs).bind fun exponent =>
      Binary64.ofDecimal? negative (decimalValue (whole ++ fraction)) (exponent - fraction.length)

end SchemaTypes
