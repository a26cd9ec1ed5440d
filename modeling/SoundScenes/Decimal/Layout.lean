import SoundScenes.Decimal.Shortest

/-!
# Written forms of numbers

A `Layout` says how the shortest decimal of a number is written out: which sizes are written
positionally, and whether a whole number keeps a point. Two layouts are in use, one for numbers in
JSON documents and one for numbers in messages.
-/

namespace SoundScenes.Decimal

/-- Conventions for writing a finite number. -/
structure Layout where
  /-- Exponents of the leading digit that are written positionally; others take an exponent. -/
  positional : Int → Bool
  /-- Whether a whole number in positional form ends in `.0`. -/
  point : Bool
  /-- Which of two equally near shortest decimals is written. -/
  tie : Tie

/-- Numbers in JSON documents: an exponent below `1e-5` and from `1e16`, a point in every positional
number. -/
def Layout.document : Layout where
  positional e := -5 ≤ e ∧ e ≤ 15
  point := true
  tie := .even

/-- Numbers in messages: never an exponent, no point in whole numbers. -/
def Layout.plain : Layout where
  positional _ := true
  point := false
  tie := .up

/-- The decimal digits of a number, without trailing zeros, and the exponent of the leading one. -/
def significant (d : Decimal) : List Char × Int :=
  let written := Nat.toDigits 10 d.digits
  let trimmed := (written.reverse.dropWhile (· == '0')).reverse
  (if trimmed.isEmpty then ['0'] else trimmed,
    if d.digits = 0 then 0 else d.exponent + written.length - 1)

/-- Digits with the point after the one of exponent zero. -/
def Layout.spread (l : Layout) (digits : List Char) (e : Int) : List Char :=
  if e < 0 then '0' :: '.' :: (List.replicate (-e - 1).toNat '0' ++ digits)
  else
    let whole := e.toNat + 1
    if digits.length ≤ whole then
      digits ++ List.replicate (whole - digits.length) '0' ++ (if l.point then ['.', '0'] else [])
    else digits.take whole ++ '.' :: digits.drop whole

/-- Digits with an exponent: one digit before the point, and the sign of the exponent. -/
def Layout.scientific (digits : List Char) (e : Int) : List Char :=
  let fraction := digits.drop 1
  digits.take 1 ++ (if fraction.isEmpty then [] else '.' :: fraction) ++
    'e' :: (if e < 0 then '-' else '+') :: Nat.toDigits 10 e.natAbs

/-- The written form of a finite number. -/
def Layout.finite (l : Layout) (x : Float) : List Char :=
  let b := Binary.ofFloat x
  let (digits, e) := (b.shortest l.tie).significant
  let magnitude := if l.positional e then l.spread digits e else Layout.scientific digits e
  if b.negative then '-' :: magnitude else magnitude

/-- A number in a message. -/
def plain (x : Float) : String :=
  if x.isNaN then "NaN"
  else if x.isInf then (if x < 0 then "-inf" else "inf")
  else String.ofList (Layout.plain.finite x)

/-- A finite number in a document. -/
def document (x : Float) : String := String.ofList (Layout.document.finite x)

end SoundScenes.Decimal
