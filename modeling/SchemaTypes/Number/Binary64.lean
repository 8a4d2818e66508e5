/-!
Finite binary64 numbers with exact arithmetic.

* `Binary64`: a sign and the rank of the magnitude among all finite
  magnitudes, so that every value of the type is a number and every number has
  one value of the type;
* `Binary64.ofRatio?`: the number nearest to a ratio, a tie going to the even
  significand; `none` where the rounded magnitude is beyond the largest one;
* `Binary64.ofDecimal?`, `Binary64.mul?`, `Binary64.div?`: correctly rounded
  operations, all by way of `ofRatio?`.
-/

namespace SchemaTypes

/-- A finite binary64 number. The rank counts the magnitudes in increasing
order from zero: ranks below `2 ^ 52` are the multiples of `2 ^ (-1074)`, and
every further `2 ^ 52` ranks double the spacing. -/
structure Binary64 where
  negative : Bool
  rank : Fin (2047 * Nat.pow 2 52)
deriving DecidableEq

namespace Binary64

/-- The zero of the given sign. -/
def zero (negative : Bool) : Binary64 := ⟨negative, ⟨0, by decide⟩⟩

def isZero (x : Binary64) : Bool := x.rank.val = 0

def neg (x : Binary64) : Binary64 := { x with negative := !x.negative }

/-! ### Significand and scale -/

/-- The magnitude is `significand * 2 ^ scale`. -/
def significand (x : Binary64) : Nat :=
  if x.rank.val < Nat.pow 2 52 then x.rank.val
  else x.rank.val % Nat.pow 2 52 + Nat.pow 2 52

/-- The exponent of two by which the significand is multiplied. -/
def scale (x : Binary64) : Int :=
  (max (x.rank.val / Nat.pow 2 52) 1 : Nat) - 1075

/-- The ratio `num / den` multiplied by `2 ^ k`. -/
def scaleRatio (num den : Nat) (k : Int) : Nat × Nat :=
  if 0 ≤ k then (num * Nat.pow 2 k.toNat, den) else (num, den * Nat.pow 2 (-k).toNat)

/-! ### Rounding -/

/-- The whole number nearest to `num / den`; a half goes to the even
neighbour. -/
def roundHalfEven (num den : Nat) : Nat :=
  let whole := num / den
  let rest := num % den
  if den < 2 * rest ∨ (2 * rest = den ∧ whole % 2 = 1) then whole + 1 else whole

/-- The scale of the grid on which a positive ratio is rounded: the least one,
not below `-1074`, at which fewer than `2 ^ 53` whole steps fit into the
ratio. -/
def gridScale (num den : Nat) : Int :=
  let guess : Int := max ((num.log2 : Int) - den.log2 - 53) (-1074)
  let (n, d) := scaleRatio num den (-guess)
  if n / d < Nat.pow 2 53 then guess else guess + 1

/-- The number nearest to `num / den` with the given sign. A significand that
rounds up to `2 ^ 53` needs no case of its own, because ranks continue across
the change of scale. -/
def ofRatio? (negative : Bool) (num den : Nat) : Option Binary64 :=
  if num = 0 then
    some (zero negative)
  else
    let s := gridScale num den
    let (n, d) := scaleRatio num den (-s)
    let rank := (s + 1074).toNat * Nat.pow 2 52 + roundHalfEven n d
    if h : rank < 2047 * Nat.pow 2 52 then some ⟨negative, ⟨rank, h⟩⟩ else none

/-- The number nearest to `digits * 10 ^ exponent`. Exponents far outside the
range of the type are settled before the power is formed. -/
def ofDecimal? (negative : Bool) (digits : Nat) (exponent : Int) : Option Binary64 :=
  if digits = 0 then
    some (zero negative)
  else
    let lead : Int := (digits.log2 : Int) / 3 + exponent
    if 400 < (digits.log2 : Int) / 4 + exponent then none
    else if lead < -400 then some (zero negative)
    else if 0 ≤ exponent then ofRatio? negative (digits * Nat.pow 10 exponent.toNat) 1
    else ofRatio? negative digits (Nat.pow 10 (-exponent).toNat)

/-! ### Arithmetic -/

/-- The product, rounded; `none` where it overflows. -/
def mul? (x y : Binary64) : Option Binary64 :=
  let (n, d) := scaleRatio (x.significand * y.significand) 1 (x.scale + y.scale)
  ofRatio? (x.negative != y.negative) n d

/-- The quotient by a number other than zero, rounded; `none` where it
overflows. -/
def div? (x y : Binary64) : Option Binary64 :=
  let (n, d) := scaleRatio x.significand y.significand (x.scale - y.scale)
  ofRatio? (x.negative != y.negative) n d

end Binary64

end SchemaTypes
