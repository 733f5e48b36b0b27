/-
# The shortest decimal digits of a floating-point number

A binary64 number is shown with as few digits as still read back as the same
number, and of those digits with the nearest. For each count of digits from
one up, the two neighbours of the number on that decimal grid are compared
with the interval of reals that round to it; the first count with a neighbour
inside gives the digits. Two ways to write them out follow: without an
exponent, and with one for numbers far from one.

Key definitions: `Decimal`, `Magnitude.shortest`, `Decimal.positional`,
`Decimal.readable`.
-/
import FileReceiver.Number.Binary64

namespace FileReceiver

/-- A decimal number `0.d₁d₂… * 10 ^ point`, that is, with `point` digits before the point. -/
structure Decimal where
  digits : List Char
  point : Int
deriving DecidableEq, Repr

namespace Magnitude

/-- The exponent of the leading decimal digit of `num / den`, for positive
`num` and `den`. -/
def leadingPlace (num den : Nat) : Int :=
  if den ≤ num then ((Nat.toDigits 10 (num / den)).length : Int) - 1
  else
    let places := (Nat.toDigits 10 (den / num)).length
    if den ≤ num * Nat.pow 10 (places - 1) then -((places : Int) - 1) else -(places : Int)

/-- A closed or open interval of reals, its ends as quarters of the last binary place. -/
structure RoundingRange where
  low : Nat
  high : Nat
  includesEnds : Bool

/-- The reals that round to the magnitude. Below a power of two the gap to the
next number is half as wide. -/
def roundingRange (x : Magnitude) : RoundingRange :=
  let quarters := 4 * x.mantissa
  let below := if x.mantissa = leastNormal ∧ minExponent < x.exponent then 1 else 2
  ⟨quarters - below, quarters + 2, x.mantissa % 2 = 0⟩

/-- Whether the decimal `n * 10 ^ place` lies in the range of `x`. -/
def rangeContains (x : Magnitude) (n : Nat) (place : Int) : Bool :=
  let range := x.roundingRange
  let unit := x.exponent - 2
  let left := n * Nat.pow 10 place.toNat * Nat.pow 2 (-unit).toNat
  let scale := Nat.pow 10 (-place).toNat * Nat.pow 2 unit.toNat
  if range.includesEnds then range.low * scale ≤ left && left ≤ range.high * scale
  else range.low * scale < left && left < range.high * scale

/-- The neighbour of `x` on the grid of `10 ^ place` that reads back as `x`,
if one does: the nearer one, the even one of two equally near. -/
def neighbour? (x : Magnitude) (place : Int) : Option Nat :=
  let num := x.numerator * Nat.pow 10 (-place).toNat
  let den := x.denominator * Nat.pow 10 place.toNat
  let nearest := roundHalfEven num den
  let floor := num / den
  if rangeContains x nearest place then some nearest
  else if rangeContains x floor place then some floor
  else if rangeContains x (floor + 1) place then some (floor + 1)
  else none

/-- The digits of the first grid with a neighbour that reads back, trying `tries` grids. -/
def shortestFrom (x : Magnitude) (lead : Int) : Nat → Nat → Nat × Int
  | 0, _ => (x.truncate, 0)
  | tries + 1, count =>
    let place := lead - count
    match neighbour? x place with
    | some n => (n, place)
    | none => shortestFrom x lead tries (count + 1)

/-- The shortest decimal that reads back as the magnitude. -/
def shortest (x : Magnitude) : Decimal :=
  if x.mantissa = 0 then ⟨['0'], 1⟩
  else
    let found := shortestFrom x (leadingPlace x.numerator x.denominator) 17 0
    let digits := Nat.toDigits 10 found.1
    ⟨(digits.reverse.dropWhile (· == '0')).reverse, (digits.length : Int) + found.2⟩

end Magnitude

namespace Decimal

/-- The digits before the point, at least one. -/
def wholePart (x : Decimal) : List Char :=
  if x.point ≤ 0 then ['0']
  else
    x.digits.take x.point.toNat ++ List.replicate (x.point.toNat - x.digits.length) '0'

/-- The digits after the point. -/
def fractionPart (x : Decimal) : List Char :=
  List.replicate (-x.point).toNat '0' ++ x.digits.drop x.point.toNat

/-- Plain digits, with a point only where a fraction follows. -/
def positional (x : Decimal) : List Char :=
  if x.fractionPart.isEmpty then x.wholePart else x.wholePart ++ '.' :: x.fractionPart

/-- One digit before the point and an exponent with its sign. -/
def scientific (x : Decimal) : List Char :=
  let exponent := x.point - 1
  let tail := x.digits.drop 1
  x.digits.take 1 ++ (if tail.isEmpty then [] else '.' :: tail) ++
    ['e', if exponent < 0 then '-' else '+'] ++ Nat.toDigits 10 exponent.natAbs

/-- Plain digits with a fraction of at least one digit where the leading digit
stands between the fifth place after the point and the sixteenth before it;
otherwise with an exponent. -/
def readable (x : Decimal) : List Char :=
  if -5 ≤ x.point - 1 ∧ x.point - 1 ≤ 15 then
    x.wholePart ++ '.' :: (if x.fractionPart.isEmpty then ['0'] else x.fractionPart)
  else x.scientific

end Decimal

namespace Binary64

/-- Puts the sign before the digits of the size. -/
def signed (x : Binary64) (digits : List Char) : String :=
  String.ofList (if x.negative then '-' :: digits else digits)

/-- The shortest digits, never with an exponent. -/
def positional (x : Binary64) : String :=
  x.signed x.magnitude.shortest.positional

/-- The shortest digits, with an exponent for numbers far from one. -/
def readable (x : Binary64) : String :=
  x.signed x.magnitude.shortest.readable

end Binary64

end FileReceiver
