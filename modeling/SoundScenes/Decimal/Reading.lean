/-!
# Numbers in arguments

A floating-point argument is a decimal with an optional sign, point and exponent, or the name of an
infinity or of NaN in letters of either case. It is read as the nearest binary64 number.
-/

namespace SoundScenes.Decimal

/-- The number that digits spell, most significant first. -/
def ofDigits (ds : List Char) : Nat := ds.foldl (fun n c => 10 * n + (c.toNat - '0'.toNat)) 0

/-- The nearest number to `m · 10 ^ e`. No number has a digit before place 310 or, unless it rounds
to zero, after place -400. -/
def nearest (m : Nat) (e : Int) : Float :=
  let digits : Int := (Nat.toDigits 10 m).length
  if m = 0 ∨ digits + e < -400 then 0
  else if 310 < digits + e then 1 / 0
  else if 0 ≤ e then Float.ofScientific m false e.natAbs
  else Float.ofScientific m true e.natAbs

/-- An exponent with its letter, or none at the end of the text. -/
def exponentOf : List Char → Option Int
  | [] => some 0
  | c :: cs =>
    let unsigned (ds : List Char) : Option Int :=
      if ds ≠ [] ∧ ds.all Char.isDigit then some (ofDigits ds) else none
    if c = 'e' ∨ c = 'E' then
      match cs with
      | '-' :: ds => (unsigned ds).map (-·)
      | '+' :: ds => unsigned ds
      | ds => unsigned ds
    else none

/-- A number without sign: digits with or without a point, at least one of them, and perhaps an
exponent. -/
def magnitudeOf (cs : List Char) : Option Float :=
  let whole := cs.takeWhile Char.isDigit
  let rest := cs.dropWhile Char.isDigit
  let (fraction, rest) := match rest with
    | '.' :: r => (r.takeWhile Char.isDigit, r.dropWhile Char.isDigit)
    | r => ([], r)
  if whole.isEmpty ∧ fraction.isEmpty then none
  else (exponentOf rest).map fun e => nearest (ofDigits (whole ++ fraction)) (e - fraction.length)

/-- A named number without sign. -/
def namedOf (cs : List Char) : Option Float :=
  match String.ofList (cs.map Char.toLower) with
  | "inf" | "infinity" => some (1 / 0)
  | "nan" => some (0 / 0)
  | _ => none

/-- The number that a text spells. -/
def ofText? (s : String) : Option Float :=
  let unsigned (cs : List Char) := (namedOf cs).orElse fun _ => magnitudeOf cs
  match s.toList with
  | '-' :: cs => (unsigned cs).map (-·)
  | '+' :: cs => unsigned cs
  | cs => unsigned cs

end SoundScenes.Decimal
