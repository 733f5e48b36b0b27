/-
# Public keys

A public key is an algorithm and the bytes that the algorithm makes of the
key. A certificate holds both in one field, the bytes as a bit string.

Key definitions: `KeyAlgorithm`, `PublicKey`, `PublicKey.field`.
-/
import FileReceiver.Certificate.Der
import FileReceiver.Curve.Weierstrass

namespace FileReceiver

/-- What keys are made for. -/
inductive KeyAlgorithm where
  | rsa
  | p256
  | p384
  | edwards
deriving DecidableEq, Repr

namespace KeyAlgorithm

def all : List KeyAlgorithm := [rsa, p256, p384, edwards]

/-- The curve of an elliptic algorithm. -/
def curve? : KeyAlgorithm → Option Weierstrass
  | p256 => some .p256
  | p384 => some .p384
  | _ => none

/-- The name of the curve of an elliptic algorithm, as it is written. -/
def curveName : KeyAlgorithm → List UInt8
  | p256 => Der.write Der.objectTag [0x2A, 0x86, 0x48, 0xCE, 0x3D, 0x03, 0x01, 0x07]
  | p384 => Der.write Der.objectTag [0x2B, 0x81, 0x04, 0x00, 0x22]
  | rsa | edwards => []

/-- The name of an algorithm with what has to stand behind it, as it is written. -/
def name : KeyAlgorithm → List UInt8
  | rsa =>
    Der.write Der.objectTag [0x2A, 0x86, 0x48, 0x86, 0xF7, 0x0D, 0x01, 0x01, 0x01] ++
      Der.write Der.nullTag []
  | edwards => Der.write Der.objectTag [0x2B, 0x65, 0x70]
  | curve =>
    Der.write Der.objectTag [0x2A, 0x86, 0x48, 0xCE, 0x3D, 0x02, 0x01] ++ curve.curveName

/-- The algorithm with a name. -/
def ofName? (written : List UInt8) : Option KeyAlgorithm :=
  all.find? fun a => a.name == written

theorem ofName?_name (a : KeyAlgorithm) : ofName? a.name = some a := by
  cases a <;> decide

end KeyAlgorithm

/-- A public key. -/
structure PublicKey where
  algorithm : KeyAlgorithm
  bytes : List UInt8
deriving DecidableEq, Repr

/-- What the field of a certificate that names the key holds. -/
def PublicKey.field (k : PublicKey) : List UInt8 :=
  Der.write Der.sequenceTag k.algorithm.name ++ Der.write Der.bitStringTag (0 :: k.bytes)

end FileReceiver
