/-
# The Edwards curve over the prime 2²⁵⁵ - 19

The curve -x² + y² = 1 + dx²y², on which one formula adds any two points. A
secret of thirty-two bytes gives a number by way of its SHA-512 digest, and
that number times the base point is the public point, which is written as its
second coordinate with the parity of the first one in the highest bit.

Key definitions: `Edwards.add`, `Edwards.times`, `Edwards.secretNumber`,
`Edwards.publicKey`.
-/
import FileReceiver.Digest.Sha512
import FileReceiver.Number.Modular

namespace FileReceiver.Edwards

def prime : Nat :=
  0x7fffffffffffffffffffffffffffffffffffffffffffffffffffffffffffffed

/-- The constant of the curve. -/
def constant : Nat :=
  0x52036cee2b6ffe738cc740797779e89800700a4d4141d8ab75eb4dca135978a3

/-- A point of the curve. -/
structure Point where
  x : Nat
  y : Nat
deriving DecidableEq, Repr

def neutral : Point := ⟨0, 1⟩

def base : Point where
  x := 0x216936d3cd6e53fec0a4e231fdd6dc5c692cc7609525a7b2c9562d608f25d51a
  y := 0x6666666666666666666666666666666666666666666666666666666666666658

/-- A quotient of coordinates. -/
def divide (a b : Nat) : Nat :=
  a % prime * Modular.inverse prime b % prime

/-- The sum of two points. -/
def add (p q : Point) : Point :=
  let product := constant * (p.x * q.x % prime) % prime * (p.y * q.y % prime) % prime
  ⟨divide (p.x * q.y + p.y * q.x) (1 + product),
    divide (p.y * q.y + p.x * q.x) (Modular.subtract prime 1 product)⟩

/-- A multiple of a point: the double of half the multiple, and the point once more if the number is
odd. -/
def times (k : Nat) (p : Point) : Point :=
  if k = 0 then neutral
  else
    let half := times (k / 2) p
    let double := add half half
    if k % 2 = 0 then double else add double p
termination_by k
decreasing_by omega

/-- The number that a secret stands for: the first half of its digest, the least significant byte
first, made a multiple of eight with the highest bit at a fixed place. -/
def secretNumber (secret : List UInt8) : Nat :=
  let n := Bytes.toNat ((Sha512.digest secret).take 32).reverse % Nat.pow 2 254
  Nat.pow 2 254 + (n - n % 8)

/-- A point in thirty-two bytes, the least significant first. -/
def Point.toBytes (p : Point) : List UInt8 :=
  (Bytes.ofNat 32 (p.y + p.x % 2 * Nat.pow 2 255)).reverse

/-- The public key that belongs to a secret. -/
def publicKey (secret : List UInt8) : List UInt8 :=
  (times (secretNumber secret) base).toBytes

end FileReceiver.Edwards
