import SchemaTypes.Number.Shortest

/-!
The text of a binary64 number.

* `DecimalLayout`: which decimal exponents are written positionally;
* `Binary64.text`: the shortest digits, positionally with a fraction from
  `1e-5` up to but not including `1e16`, and with an exponent otherwise.
-/

namespace SchemaTypes

/-- How decimals are laid out: positionally from the exponent `least` of the
first digit up to the exponent `greatest`, with an exponent otherwise. -/
structure DecimalLayout where
  least : Int
  greatest : Int
deriving DecidableEq

namespace DecimalLayout

/-- Digits with a point after the first `whole` of them; zeros fill either
side, and the fraction has at least one digit. -/
def positional (digits : List Char) (whole : Int) : List Char :=
  if whole ≤ 0 then
    '0' :: '.' :: (List.replicate (-whole).toNat '0' ++ digits)
  else if digits.length ≤ whole.toNat then
    digits ++ List.replicate (whole.toNat - digits.length) '0' ++ ['.', '0']
  else
    digits.take whole.toNat ++ '.' :: digits.drop whole.toNat

/-- One digit, the others as a fraction, and the signed exponent of the first
digit. -/
def scientific (digits : List Char) (exponent : Int) : List Char :=
  let fraction := digits.drop 1
  digits.take 1 ++ (if fraction.isEmpty then [] else '.' :: fraction)
    ++ ['e', if exponent < 0 then '-' else '+'] ++ Nat.toDigits 10 exponent.natAbs

def write (layout : DecimalLayout) (d : Decimal) : List Char :=
  let digits := Nat.toDigits 10 d.digits
  let lead : Int := digits.length + d.exponent - 1
  if layout.least ≤ lead ∧ lead ≤ layout.greatest then positional digits (lead + 1)
  else scientific digits lead

end DecimalLayout

namespace Binary64

/-- Numbers from `1e-5` to below `1e16` are written positionally. -/
def layout : DecimalLayout := ⟨-5, 15⟩

/-- The text of a number; zero keeps its sign. -/
def text (x : Binary64) : String :=
  String.ofList ((if x.negative then ['-'] else []) ++ layout.write x.shortest)

end Binary64

end SchemaTypes
