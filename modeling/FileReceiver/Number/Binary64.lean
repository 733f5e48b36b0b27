/-
# Floating-point numbers of 64 bits

A number in JSON text that is no machine integer is read as a binary64
number. The numbers are kept as exact products `mantissa * 2 ^ exponent`, so
that rounding is one function on natural numbers: the quotient of two
naturals, rounded to 53 bits with ties to the even mantissa. Products,
quotients and powers of ten are exact quotients that are rounded once.

Key definitions: `roundHalfEven`, `Magnitude`, `Magnitude.ofQuotient?`,
`Binary64`, `Magnitude.truncate`.
-/

namespace FileReceiver

/-- The natural number nearest to `num / den`, the even one of two equally near. -/
def roundHalfEven (num den : Nat) : Nat :=
  let quotient := num / den
  let twice := 2 * (num % den)
  if den < twice ∨ (twice = den ∧ quotient % 2 = 1) then quotient + 1 else quotient

/-- The size of a finite binary64 number: `mantissa * 2 ^ exponent`, with a
mantissa below `2 ^ 53` and an exponent from -1074 to 971. -/
structure Magnitude where
  mantissa : Nat
  exponent : Int
deriving DecidableEq, Repr

namespace Magnitude

/-- The least exponent, that of the subnormal numbers. -/
def minExponent : Int := -1074

/-- The least mantissa of 53 bits, two to the fifty-second: numbers above the subnormal ones have
a mantissa from here to its double. -/
def leastNormal : Nat := 4503599627370496

/-- The exponent of the largest numbers. -/
def maxExponent : Int := 971

def zero : Magnitude := ⟨0, minExponent⟩

/-- The numerator of the magnitude as an exact fraction. -/
def numerator (x : Magnitude) : Nat :=
  x.mantissa * Nat.pow 2 x.exponent.toNat

/-- The denominator of the magnitude as an exact fraction, a power of two. -/
def denominator (x : Magnitude) : Nat :=
  Nat.pow 2 (-x.exponent).toNat

/-- The exponent of the leading binary digit of `num / den`, for positive
`num` and `den`: the greatest `e` with `2 ^ e ≤ num / den`. -/
def leadingExponent (num den : Nat) : Int :=
  let guess : Int := (num.log2 : Int) - den.log2
  if den * Nat.pow 2 guess.toNat ≤ num * Nat.pow 2 (-guess).toNat then guess else guess - 1

/-- The magnitude nearest to `num / den`; none if that is past the largest one. -/
def ofQuotient? (num den : Nat) : Option Magnitude :=
  if num = 0 then some zero
  else
    let exponent := max (leadingExponent num den - 52) minExponent
    let mantissa :=
      roundHalfEven (num * Nat.pow 2 (-exponent).toNat) (den * Nat.pow 2 exponent.toNat)
    let rounded : Magnitude :=
      if mantissa = 2 * leastNormal then ⟨leastNormal, exponent + 1⟩ else ⟨mantissa, exponent⟩
    if maxExponent < rounded.exponent then none else some rounded

/-- The magnitude nearest to a natural number. -/
def ofNat? (n : Nat) : Option Magnitude :=
  ofQuotient? n 1

/-- The product, rounded. -/
def times? (x y : Magnitude) : Option Magnitude :=
  ofQuotient? (x.numerator * y.numerator) (x.denominator * y.denominator)

/-- The quotient by a magnitude that is not zero, rounded. -/
def over? (x y : Magnitude) : Option Magnitude :=
  ofQuotient? (x.numerator * y.denominator) (x.denominator * y.numerator)

/-- The part of the magnitude before the point. -/
def truncate (x : Magnitude) : Nat :=
  x.numerator / x.denominator

/-- The largest power of ten that scaling multiplies or divides by in one step. -/
def largestScale : Nat := 308

/-- A magnitude divided by `10 ^ places`: by the largest scale as often as it
fits, as long as something is left, then by the rest. Each step rounds. -/
def scaleDown (x : Magnitude) (places : Nat) : Magnitude :=
  if x.mantissa = 0 then x
  else if places ≤ largestScale then
    (do over? x (← ofNat? (Nat.pow 10 places))).getD zero
  else
    scaleDown ((do over? x (← ofNat? (Nat.pow 10 largestScale))).getD zero) (places - largestScale)
termination_by places
decreasing_by simp only [largestScale] at *; omega

/-- A magnitude times `10 ^ places`, rounded once; none if it is past the
largest magnitude, or if the power itself is and there is something to scale. -/
def scaleUp? (x : Magnitude) (places : Nat) : Option Magnitude :=
  if places ≤ largestScale then do times? x (← ofNat? (Nat.pow 10 places))
  else if x.mantissa = 0 then some x
  else none

/-- The magnitude of `significand * 10 ^ exponent` as a reader of decimal text
computes it: the significand is rounded first, then scaled. -/
def ofDecimal? (significand : Nat) (exponent : Int) : Option Magnitude := do
  let x ← ofNat? significand
  if 0 ≤ exponent then scaleUp? x exponent.toNat else some (scaleDown x (-exponent).toNat)

end Magnitude

/-- A finite binary64 number. -/
structure Binary64 where
  negative : Bool
  magnitude : Magnitude
deriving DecidableEq, Repr

namespace Binary64

/-- The number nearest to an integer of the given sign and size. -/
def ofSigned? (negative : Bool) (size : Nat) : Option Binary64 :=
  (Magnitude.ofNat? size).map (⟨negative, ·⟩)

/-- Whether the number is zero or above; the negative zero counts as zero. -/
def isNonnegative (x : Binary64) : Bool :=
  !x.negative || x.magnitude.mantissa == 0

end Binary64

end FileReceiver
