/-
# A certificate and its key

A certificate file and a key file can be used together if the first holds
certificates, the second exactly one private key, and the public half of that
key is the one that the first certificate names. A fault in a section of the
certificate file is one of the pair; faults in the key file are passed over.

Key definitions: `CertificateFault`, `certificatesOf`, `privateKeysOf`,
`checkKeyPair`.
-/
import FileReceiver.Certificate.Pem
import FileReceiver.Certificate.PrivateKey
import FileReceiver.Certificate.X509

namespace FileReceiver

/-- Why a certificate and a key cannot be used together. -/
inductive CertificateFault where
  | badSection (f : Pem.Fault)
  /-- The key file does not hold exactly one private key. -/
  | keyCount
  | unknownKeyForm
  | badKey
  | noCertificate
  | badCertificate (f : X509.Fault)
  | otherKey
deriving DecidableEq, Repr

namespace CertificateFault

def message : CertificateFault → String
  | badSection f => f.message
  | keyCount => "private key format not supported"
  | unknownKeyForm => "unknown or invalid key format"
  | badKey => "unexpected error: failed to parse private key as RSA, ECDSA, or EdDSA"
  | noCertificate => "peer sent no certificates"
  | badCertificate f => "invalid peer certificate: " ++ f.message
  | otherKey => "keys may not be consistent: KeyMismatch"

end CertificateFault

/-- The certificates among what has been found, or the first fault. -/
def certificatesOf : List (Except Pem.Fault Pem.Section) →
    Except CertificateFault (List (List UInt8))
  | [] => .ok []
  | .error f :: _ => .error (.badSection f)
  | .ok s :: rest =>
    (certificatesOf rest).map fun more => if s.kind = .certificate then s.bytes :: more else more

/-- The private keys among what has been found. -/
def privateKeysOf (found : List (Except Pem.Fault Pem.Section)) : List (List UInt8) :=
  found.filterMap fun
    | .ok s => if s.kind.isPrivateKey then some s.bytes else none
    | .error _ => none

/-- The public half of the only private key. -/
def publicHalfOf : List (List UInt8) → Except CertificateFault PublicKey
  | [key] =>
    match PrivateKey.Form.of? key with
    | none => .error .unknownKeyForm
    | some form =>
      match PrivateKey.publicKey? form key with
      | none => .error .badKey
      | some half => .ok half
  | _ => .error .keyCount

/-- Whether the first certificate names a public key. -/
def checkNamed (half : PublicKey) : List (List UInt8) → Except CertificateFault Unit
  | [] => .error .noCertificate
  | first :: _ =>
    match X509.publicKeyField first with
    | .error f => .error (.badCertificate f)
    | .ok field => if field = half.field then .ok () else .error .otherKey

/-- Whether a certificate file and a key file can be used together. -/
def checkKeyPair (certificate key : ByteArray) : Except CertificateFault Unit :=
  match certificatesOf (Pem.read certificate) with
  | .error f => .error f
  | .ok certificates =>
    match publicHalfOf (privateKeysOf (Pem.read key)) with
    | .error f => .error f
    | .ok half => checkNamed half certificates

end FileReceiver
