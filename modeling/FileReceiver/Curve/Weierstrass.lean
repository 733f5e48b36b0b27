/-
# Elliptic curves of the form y² = x³ - 3x + b

The curves that elliptic keys are made on. The points have coordinates modulo
a prime, and a secret number times the base point is the public point. Only
multiples of the base point occur, so the constant term of the equation is
never asked for.

Key definitions: `Weierstrass`, `Weierstrass.Point`, `Weierstrass.add`,
`Weierstrass.times`, `Weierstrass.publicKey`.
-/
import FileReceiver.Number.Bytes
import FileReceiver.Number.Modular

namespace FileReceiver

/-- A curve: the prime, the base point and its order. -/
structure Weierstrass where
  prime : Nat
  baseX : Nat
  baseY : Nat
  order : Nat
  /-- How many bytes a coordinate takes. -/
  size : Nat

namespace Weierstrass

/-- The curve over a prime of 256 bits. -/
def p256 : Weierstrass where
  prime := 0xffffffff00000001000000000000000000000000ffffffffffffffffffffffff
  baseX := 0x6b17d1f2e12c4247f8bce6e563a440f277037d812deb33a0f4a13945d898c296
  baseY := 0x4fe342e2fe1a7f9b8ee7eb4a7c0f9e162bce33576b315ececbb6406837bf51f5
  order := 0xffffffff00000000ffffffffffffffffbce6faada7179e84f3b9cac2fc632551
  size := 32

/-- The curve over a prime of 384 bits. -/
def p384 : Weierstrass where
  prime :=
  0xfffffffffffffffffffffffffffffffffffffffffffffffffffffffffffffffeffffffff0000000000000000ffffffff
  baseX :=
  0xaa87ca22be8b05378eb1c71ef320ad746e1d3b628ba79b9859f741e082542a385502f25dbf55296c3a545e3872760ab7
  baseY :=
  0x3617de4a96262c6f5d9e98bf9292dc29f8f41dbd289a147ce9da3113b5f0b8c00a60b1ce1d7e819d7a431d7c90ea0e5f
  order :=
  0xffffffffffffffffffffffffffffffffffffffffffffffffc7634d81f4372ddf581a0db248b0a77aecec196accc52973
  size := 48

/-- A point of a curve. -/
inductive Point where
  | infinity
  | affine (x y : Nat)
deriving DecidableEq, Repr

/-- The slope of the line through two points, or of the tangent if they are one. -/
def slope (c : Weierstrass) (x y u v : Nat) : Nat :=
  let p := c.prime
  if x = u then (3 * x * x + (p - 3)) * Modular.inverse p (2 * y) % p
  else Modular.subtract p v y * Modular.inverse p (Modular.subtract p u x) % p

/-- The sum of two points. -/
def add (c : Weierstrass) : Point → Point → Point
  | .infinity, q => q
  | p, .infinity => p
  | .affine x y, .affine u v =>
    let p := c.prime
    if x = u ∧ (y + v) % p = 0 then .infinity
    else
      let s := slope c x y u v
      let w := Modular.subtract p (s * s) (x + u)
      .affine w (Modular.subtract p (s * Modular.subtract p x w) y)

/-- A multiple of a point: the double of half the multiple, and the point once more if the number is
odd. -/
def times (c : Weierstrass) (k : Nat) (p : Point) : Point :=
  if k = 0 then .infinity
  else
    let half := c.times (k / 2) p
    let double := c.add half half
    if k % 2 = 0 then double else c.add double p
termination_by k
decreasing_by omega

/-- A point in bytes: a mark and the two coordinates. -/
def pointBytes (c : Weierstrass) : Point → List UInt8
  | .infinity => [0]
  | .affine x y => 4 :: (Bytes.ofNat c.size x ++ Bytes.ofNat c.size y)

/-- The public key that belongs to a secret number: that multiple of the base point. -/
def publicKey (c : Weierstrass) (secret : Nat) : List UInt8 :=
  c.pointBytes (c.times secret (.affine c.baseX c.baseY))

theorem add_infinity (c : Weierstrass) (p : Point) : c.add p .infinity = p := by
  cases p <;> rfl

theorem infinity_add (c : Weierstrass) (p : Point) : c.add .infinity p = p := by
  cases p <;> rfl

end Weierstrass

end FileReceiver
