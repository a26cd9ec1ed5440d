import SoundScenes.Decimal.Binary

/-!
# Shortest decimals

The shortest decimal of a binary number is the one with the fewest digits that reads back as that
number; of several, the nearest. A decimal `c · 10 ^ k` reads back when it lies in the interval of
reals that round to the number, whose ends belong to it when the mantissa is even.

For each power of ten, from coarse to fine, the only candidates are the two neighbours of the number
on the grid of its multiples: if any point of the grid lies in the interval, so does one of the two.
-/

namespace SoundScenes

/-- The natural number `digits` times `10 ^ exponent`. -/
structure Decimal where
  digits : Nat
  exponent : Int
  deriving Repr, DecidableEq

namespace Decimal

/-- Which of two equally near decimals is taken. -/
inductive Tie where
  | even
  | up
  deriving Repr, DecidableEq

/-- The reals that round to one positive number, in quarters of `2 ^ exponent`: from `low` to `high`
around `value`. Below a power of two the numbers lie twice as dense, so the lower half is
narrower. -/
structure Interval where
  low : Nat
  value : Nat
  high : Nat
  closed : Bool
  exponent : Int

/-- The interval of a positive number. -/
def Binary.interval (b : Binary) : Interval :=
  { low := 4 * b.mantissa - (if b.mantissa = leading ∧ -1074 < b.exponent then 1 else 2)
    value := 4 * b.mantissa
    high := 4 * b.mantissa + 2
    closed := b.mantissa % 2 = 0
    exponent := b.exponent - 2 }

namespace Interval

/-- The factors that bring `c · 10 ^ k` and a bound of the interval to one scale: the decimal is
multiplied by the first, the bound by the second. -/
def scales (i : Interval) (k : Int) : Nat × Nat :=
  (Nat.pow 10 k.toNat <<< (-i.exponent).toNat, Nat.pow 10 (-k).toNat <<< i.exponent.toNat)

/-- Whether `c · 10 ^ k` lies in the interval. -/
def holds (i : Interval) (k : Int) (c : Nat) : Bool :=
  let (grid, unit) := i.scales k
  if i.closed then i.low * unit ≤ c * grid ∧ c * grid ≤ i.high * unit
  else i.low * unit < c * grid ∧ c * grid < i.high * unit

/-- The point of the grid of `10 ^ k` that lies in the interval and is nearest to the value. -/
def pick (i : Interval) (tie : Tie) (k : Int) : Option Nat :=
  let (grid, unit) := i.scales k
  let below := i.value * unit / grid
  let gap := 2 * (i.value * unit % grid)
  match i.holds k below, i.holds k (below + 1) with
  | false, false => none
  | true, false => some below
  | false, true => some (below + 1)
  | true, true =>
    if gap < grid ∨ (gap = grid ∧ tie = .even ∧ below % 2 = 0) then some below else some (below + 1)

end Interval

/-- A power of ten above the number: `2 ^ n` has at most `n · 0.30103 + 1` digits. -/
def Binary.ceiling (b : Binary) : Int :=
  ((b.mantissa.log2 + 1 : Nat) + b.exponent) * 30103 / 100000 + 1

/-- The powers of ten tried, from coarse to fine. Seventeen digits tell any two numbers apart, so
the last ones are never reached. -/
def Binary.grids (b : Binary) : List Int :=
  (List.range 24).map fun (n : Nat) => b.ceiling - n

/-- The shortest decimal of a number's magnitude. -/
def Binary.shortest (b : Binary) (tie : Tie) : Decimal :=
  if b.mantissa = 0 then ⟨0, 0⟩
  else (b.grids.findSome? fun k => (b.interval.pick tie k).map (⟨·, k⟩)).getD ⟨0, 0⟩

end Decimal

end SoundScenes
