/-
# Private keys

A private key comes in one of three forms: a bare RSA key, a bare elliptic
key, or a key of any algorithm in a wrapping that names it. Which one it is
shows in its first bytes, whatever the section that holds it is called. The
numbers of a key have to fit each other, and its public half is computed or
checked here.

Key definitions: `PrivateKey.Form`, `PrivateKey.Form.of?`,
`PrivateKey.RsaKey`, `PrivateKey.RsaKey.isSound`, `PrivateKey.Wrapped`,
`PrivateKey.publicKey?`.
-/
import FileReceiver.Certificate.PublicKey
import FileReceiver.Curve.Edwards

namespace FileReceiver.PrivateKey

/-- The forms of private keys. -/
inductive Form where
  /-- A key in a wrapping that names its algorithm. -/
  | wrapped
  | rsa
  | elliptic
deriving DecidableEq, Repr

/-- What stands behind the tag and the length of a key. -/
def contents? (key : List UInt8) : Option (List UInt8) :=
  match key with
  | tag :: length :: _ =>
    let start := if length < 0x80 then 2 else 2 + (length.toNat - 0x80)
    if tag = Der.sequenceTag ∧ start ≤ key.length then some (key.drop start) else none
  | _ => none

/-- The form of a key: it begins with a version, behind which the name of an algorithm follows in a
wrapping. -/
def Form.of? (key : List UInt8) : Option Form :=
  match contents? key with
  | some (0x02 :: 0x01 :: _ :: 0x30 :: _) => some .wrapped
  | some (0x02 :: 0x01 :: 0x00 :: _) => some .rsa
  | some (0x02 :: 0x01 :: 0x01 :: _) => some .elliptic
  | _ => none

/-- The most bytes that a value of a key may have. -/
def valueLimit : Nat := 65535

/-- The bytes of the first value, if it has the tag, and what follows it. -/
def take? (tag : UInt8) (bytes : List UInt8) : Option (List UInt8 × List UInt8) :=
  Der.take? valueLimit tag bytes

/-- The bytes of a value with the tag that is all there is. -/
def only? (tag : UInt8) (bytes : List UInt8) : Option (List UInt8) :=
  Der.only? valueLimit tag bytes

/-- The magnitude of an integer at the front, and what follows it. -/
def takeMagnitude? (bytes : List UInt8) : Option (List UInt8 × List UInt8) := do
  let (value, rest) ← take? Der.integerTag bytes
  return (← Der.magnitude? value, rest)

/-- A version at the front, which is one byte, and what follows it. -/
def takeVersion? (bytes : List UInt8) : Option (UInt8 × List UInt8) := do
  match ← takeMagnitude? bytes with
  | ([version], rest) => some (version, rest)
  | _ => none

/-! ## RSA keys -/

/-- The numbers of an RSA key. -/
structure RsaKey where
  modulus : Nat
  publicExponent : Nat
  privateExponent : Nat
  firstPrime : Nat
  secondPrime : Nat
  /-- The private exponent modulo the first prime less one. -/
  firstExponent : Nat
  secondExponent : Nat
  /-- The inverse of the second prime modulo the first. -/
  coefficient : Nat
deriving DecidableEq, Repr

/-- The number of binary digits. -/
def bitLength (n : Nat) : Nat :=
  if n = 0 then 0 else Nat.log2 n + 1

namespace RsaKey

/-- Whether the sizes of the numbers are those of a key that can be used: the modulus takes 256
bytes or more and up to 4096 bits, the primes half of that, in multiples of 512 bits. -/
def hasGoodSizes (k : RsaKey) : Bool :=
  let bits := bitLength k.modulus
  let half := (bits + 1) / 2
  2048 ≤ (bits + 7) / 8 * 8 && bits ≤ 4096 && half % 512 == 0 &&
    bitLength k.firstPrime == half && bitLength k.secondPrime == half &&
    65537 ≤ k.publicExponent && k.publicExponent < Nat.pow 2 33 &&
    half < bitLength k.privateExponent && k.privateExponent < k.modulus

/-- Whether the numbers that have to be odd are. -/
def hasOddNumbers (k : RsaKey) : Bool :=
  [k.modulus, k.publicExponent, k.privateExponent, k.firstPrime, k.secondPrime, k.firstExponent,
    k.secondExponent].all (· % 2 == 1)

/-- Whether the numbers fit each other, as far as it is looked at: the primes make up the modulus,
the coefficient belongs to them, and their exponents are below them. -/
def isConsistent (k : RsaKey) : Bool :=
  k.firstPrime * k.secondPrime % k.modulus == 0 &&
    k.coefficient < k.firstPrime && k.coefficient * k.secondPrime % k.firstPrime == 1 &&
    k.firstExponent < k.firstPrime && k.secondExponent < k.secondPrime

def isSound (k : RsaKey) : Bool :=
  k.hasGoodSizes && k.hasOddNumbers && k.isConsistent

end RsaKey

/-- The magnitudes of integers that fill the bytes, at most `fuel` of them. -/
def magnitudesUpTo : (fuel : Nat) → List UInt8 → Option (List (List UInt8))
  | _, [] => some []
  | 0, _ => none
  | fuel + 1, bytes => do
    let (magnitude, rest) ← takeMagnitude? bytes
    return magnitude :: (← magnitudesUpTo fuel rest)

/-- The public half of a bare RSA key. -/
def ofRsa? (key : List UInt8) : Option PublicKey := do
  match ← magnitudesUpTo 9 (← only? Der.sequenceTag key) with
  | [[0], n, e, d, p, q, dp, dq, c] =>
    let k : RsaKey := ⟨Bytes.toNat n, Bytes.toNat e, Bytes.toNat d, Bytes.toNat p, Bytes.toNat q,
      Bytes.toNat dp, Bytes.toNat dq, Bytes.toNat c⟩
    if k.isSound then
      some ⟨.rsa, Der.write Der.sequenceTag (Der.writeInteger n ++ Der.writeInteger e)⟩
    else none
  | _ => none

/-! ## Elliptic keys -/

/-- The public half of a bare elliptic key for an algorithm. The key holds its public half, which
has to be the one that belongs to the secret number; it need not name the curve. -/
def ofElliptic? (a : KeyAlgorithm) (key : List UInt8) : Option PublicKey := do
  let curve ← a.curve?
  let (version, rest) ← takeVersion? (← only? Der.sequenceTag key)
  let (secret, rest) ← take? Der.octetStringTag rest
  let rest ←
    if rest.head? = some (Der.partTag 0) then
      match ← take? (Der.partTag 0) rest with
      | (name, rest) => if name = a.curveName then some rest else none
    else some rest
  let holder ← only? (Der.partTag 1) rest
  let held ← Der.bits? (← only? Der.bitStringTag holder)
  let number := Bytes.toNat secret
  if version = 1 ∧ secret.length = curve.size ∧ 0 < number ∧ number < curve.order ∧
      held = curve.publicKey number then
    some ⟨a, held⟩
  else none

/-! ## Wrapped keys -/

/-- A key in its wrapping. -/
structure Wrapped where
  algorithm : KeyAlgorithm
  secret : List UInt8
  /-- The public half, which the second version of the wrapping has. -/
  publicHalf : Option (List UInt8)
deriving DecidableEq, Repr

/-- The public half in a wrapping: a bit string in the place of a part or, by an older custom,
within it. -/
def publicHalf? (bytes : List UInt8) : Option (List UInt8) := do
  if bytes.head? = some (Der.partTag 1) then
    Der.bits? (← only? Der.bitStringTag (← only? (Der.partTag 1) bytes))
  else Der.bits? (← only? (Der.plainPartTag 1) bytes)

/-- Takes a wrapping off. It may hold attributes, which say nothing here. -/
def Wrapped.read? (key : List UInt8) : Option Wrapped := do
  let (version, rest) ← takeVersion? (← only? Der.sequenceTag key)
  let (name, rest) ← take? Der.sequenceTag rest
  let algorithm ← KeyAlgorithm.ofName? name
  let (secret, rest) ← take? Der.octetStringTag rest
  let rest ←
    if rest.head? = some (Der.partTag 0) then (take? (Der.partTag 0) rest).map Prod.snd
    else some rest
  if version = 0 ∧ rest = [] then some ⟨algorithm, secret, none⟩
  else if version = 1 then some ⟨algorithm, secret, some (← publicHalf? rest)⟩
  else none

/-- The public half of an Edwards key: the secret is thirty-two bytes, and a public half that comes
with it has to belong to it. -/
def ofEdwards? (k : Wrapped) : Option PublicKey := do
  let secret ← only? Der.octetStringTag k.secret
  if secret.length = 32 then
    let held := Edwards.publicKey secret
    if k.publicHalf = none ∨ k.publicHalf = some held then some ⟨.edwards, held⟩ else none
  else none

/-- The public half of a wrapped key. Only Edwards keys have the second version of the wrapping. -/
def ofWrapped? (key : List UInt8) : Option PublicKey := do
  let k ← Wrapped.read? key
  match k.algorithm with
  | .edwards => ofEdwards? k
  | .rsa => if k.publicHalf = none then ofRsa? k.secret else none
  | curve => if k.publicHalf = none then ofElliptic? curve k.secret else none

/-- The public half of a private key of a known form. -/
def publicKey? (form : Form) (key : List UInt8) : Option PublicKey :=
  match form with
  | .wrapped => ofWrapped? key
  | .rsa => ofRsa? key
  | .elliptic => (ofElliptic? .p256 key).or (ofElliptic? .p384 key)

end FileReceiver.PrivateKey
