import SoundScenes.Json.Value

/-!
# Numbers in a JSON text

A number as it is written: sign, digits before the point, digits after it, exponent. Its value is an
integer when it has neither point nor exponent and fits 64 bits, and a `Float` otherwise.

A floating-point value is made in two steps. Digits are gathered into a significand as long as it
fits 64 bits; further digits are dropped, and those before the point count toward the exponent. The
significand is then scaled by a power of ten in binary64, so the result can differ from the nearest
number in its last bit.
-/

namespace SoundScenes

/-- Why a text cannot be read on. -/
inductive Fault where
  /-- A character does not belong where it stands. -/
  | malformed
  /-- The text ends too early. -/
  | cut
  deriving Repr, DecidableEq

/-- A number as written. -/
structure Digits where
  negative : Bool
  whole : List Char
  fraction : Option (List Char)
  exponent : Option (Bool × List Char)

namespace Digits

/-- The value of a digit. -/
def digit (c : Char) : Nat := c.toNat - '0'.toNat

/-- The number that digits spell, most significant first. -/
def number (ds : List Char) : Nat := ds.foldl (fun n c => 10 * n + digit c) 0

/-- Appends digits to a significand while it fits 64 bits, and gives back the rest. -/
def gather (s : Nat) : List Char → Nat × List Char
  | [] => (s, [])
  | c :: cs =>
    if UInt64.size ≤ 10 * s + digit c then (s, c :: cs) else gather (10 * s + digit c) cs

/-- The power of ten with an exponent of at most `308`. -/
def power (e : Nat) : Float := Float.ofScientific 1 false e

/-- `x · 10 ^ e`, or nothing when it is too large. Small results go through steps of `10 ^ 308`. -/
def scale (x : Float) (e : Int) : Option Float :=
  if e.natAbs ≤ 308 then
    if 0 ≤ e then
      let y := x * power e.natAbs
      if y.isInf then none else some y
    else some (x / power e.natAbs)
  else if x == 0 then some x
  else if 0 ≤ e then none
  else scale (x / power 308) (e + 308)
termination_by (-e).toNat

/-- The floating-point value: significand and exponent gathered from all parts. -/
def float (d : Digits) : Except Fault Float :=
  let (s, spilled) := gather 0 d.whole
  let fraction := d.fraction.getD []
  let (s, dropped) := gather s fraction
  let shift : Int := spilled.length - (fraction.length - dropped.length : Nat)
  let exponent : Int := match d.exponent with
    | none => 0
    | some (true, ds) => -(number ds : Int)
    | some (false, ds) => number ds
  match scale (Float.ofNat s) (shift + exponent) with
  | none => .error .malformed
  | some x => .ok (if d.negative then -x else x)

/-- The value of a written number. `-0` keeps its sign and is therefore a `Float`. -/
def value (d : Digits) : Except Fault Numeral :=
  let n := number d.whole
  if d.fraction.isNone ∧ d.exponent.isNone then
    if d.negative = false ∧ n < UInt64.size then .ok (.integer n)
    else if d.negative ∧ 0 < n ∧ 2 * n ≤ UInt64.size then .ok (.integer (-n))
    else d.float.map .float
  else d.float.map .float

end Digits

end SoundScenes
