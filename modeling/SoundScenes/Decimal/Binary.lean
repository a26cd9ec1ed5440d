import SoundScenes.Bounded

/-!
# Binary floating-point numbers as exact fractions

A finite `Float` is `± mantissa · 2 ^ exponent` with natural mantissa and integer exponent. This
module takes the number apart and rounds its magnitude to a natural number; both are exact integer
arithmetic.

* `Binary.ofFloat` — the parts of a finite number;
* `Binary.toNearest` — the nearest natural number, halves to the even neighbour;
* `toCount` — the same for any `Float`, held within 64 bits.
-/

namespace SoundScenes.Decimal

/-- The number `± mantissa · 2 ^ exponent`. -/
structure Binary where
  negative : Bool
  mantissa : Nat
  exponent : Int
  deriving Repr, DecidableEq

namespace Binary

/-- The bit in front of the fraction of a normal number. -/
def leading : Nat := 1 <<< 52

/-- The parts of a finite number. The fraction field has 52 bits, the exponent field 11; a normal
number carries one more bit in front of its fraction. -/
def ofFloat (x : Float) : Binary :=
  let bits : Nat := x.toBits.toNat
  let fraction : Nat := bits % leading
  let field : Nat := bits / leading % 2048
  { negative := bits / leading / 2048 = 1
    mantissa := if field = 0 then fraction else leading + fraction
    exponent := (if field = 0 then 1 else (field : Int)) - 1075 }

/-- The quotient `n / d` to the nearest natural number, a half to the even neighbour. -/
def divToNearest (n d : Nat) : Nat :=
  let q := n / d
  let r := n % d
  if d < 2 * r ∨ (2 * r = d ∧ q % 2 = 1) then q + 1 else q

/-- The magnitude to the nearest natural number, a half to the even neighbour. -/
def toNearest (b : Binary) : Nat :=
  divToNearest (b.mantissa <<< b.exponent.toNat) (1 <<< (-b.exponent).toNat)

end Binary

/-- A rounded count: the nearest natural number, a half to the even neighbour. Negative numbers and
NaN count as `0`; nothing exceeds `countLimit`. -/
def toCount (x : Float) : Nat :=
  if x.isNaN then 0
  else if x < 0 then 0
  else if x.isInf then countLimit
  else min (Binary.ofFloat x).toNearest countLimit

end SoundScenes.Decimal
