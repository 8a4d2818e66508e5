/-!
Natural numbers spelled by digits.

* `digit?`: the value of a digit of a base up to sixteen;
* `natural?`: the number that digits of a base spell.
-/

namespace SchemaTypes

/-- The value of a character as a digit of a base up to sixteen. Letters of
either case are the digits from ten on. -/
def digit? (base : Nat) (c : Char) : Option Nat :=
  let value? :=
    if '0' ≤ c && c ≤ '9' then some (c.toNat - 0x30)
    else if 'a' ≤ c && c ≤ 'f' then some (c.toNat - 0x57)
    else if 'A' ≤ c && c ≤ 'F' then some (c.toNat - 0x37)
    else none
  value?.filter (· < base)

/-- The number spelled by digits of a base; no digits spell zero. -/
def natural? (base : Nat) (digits : List Char) : Option Nat :=
  digits.foldlM (fun n c => (digit? base c).map (n * base + ·)) 0

end SchemaTypes
