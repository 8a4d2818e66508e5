import SchemaTypes.Number.Binary64

/-!
The shortest decimal that reads back as a given binary64 number.

* `Decimal`: `digits * 10 ^ exponent`;
* `Binary64.shortest`: on the coarsest decimal grid that has a point within
  the rounding interval of the number, the point nearest to the number. The
  interval holds its ends exactly if the significand is even, because a tie
  goes to the even significand.
-/

namespace SchemaTypes

/-- The number `digits * 10 ^ exponent`. -/
structure Decimal where
  digits : Nat
  exponent : Int
deriving DecidableEq

namespace Binary64

/-- The rounding interval of a magnitude in units of `2 ^ (scale - 2)`. The
magnitude itself is four times the significand. The gap below the least
significand of a scale is half the gap above it. -/
structure RoundingInterval where
  low : Nat
  middle : Nat
  high : Nat
  closed : Bool
deriving DecidableEq

def roundingInterval (x : Binary64) : RoundingInterval where
  low := if x.significand = Nat.pow 2 52 ∧ -1074 < x.scale then 4 * x.significand - 1
    else 4 * x.significand - 2
  middle := 4 * x.significand
  high := 4 * x.significand + 2
  closed := x.significand % 2 = 0

/-- The multiple of `step` nearest to the middle among the two neighbours of
the middle that lie in the interval, as a count of steps; all interval ends
are multiplied by `unit`. -/
def RoundingInterval.pointOn? (i : RoundingInterval) (unit step : Nat) : Option Nat :=
  let below := i.middle * unit / step
  let above := below + 1
  let inside (c : Nat) : Bool :=
    if i.closed then i.low * unit ≤ c * step ∧ c * step ≤ i.high * unit
    else i.low * unit < c * step ∧ c * step < i.high * unit
  let rest := i.middle * unit - below * step
  if inside below then
    if inside above ∧ (step < 2 * rest ∨ (step = 2 * rest ∧ below % 2 = 1)) then some above
    else some below
  else if inside above then some above
  else none

/-- Looks for a point on the grids `10 ^ exponent`, `10 ^ (exponent - 1)` and so
on, `tries` of them. -/
def RoundingInterval.coarsest (i : RoundingInterval) (scale : Int) : Nat → Int → Decimal
  | 0, exponent => ⟨0, exponent⟩
  | tries + 1, exponent =>
    let (unit, step) := scaleRatio 1 1 (scale - 2)
    let (step, unit) :=
      if 0 ≤ exponent then (step * Nat.pow 10 exponent.toNat, unit)
      else (step, unit * Nat.pow 10 (-exponent).toNat)
    match i.pointOn? unit step with
    | some digits => ⟨digits, exponent⟩
    | none => i.coarsest scale tries (exponent - 1)

/-- The shortest decimal that reads back as the magnitude of `x`. The search
starts at a power of ten above the magnitude; twenty grids reach seventeen
significant digits, which always suffice. -/
def shortest (x : Binary64) : Decimal :=
  if x.isZero then ⟨0, 0⟩
  else
    let top : Int := ((x.significand.log2 : Int) + x.scale) * 30103 / 100000 + 2
    x.roundingInterval.coarsest x.scale 21 top

end Binary64

end SchemaTypes
