/-
# Certificates

A certificate is a body, an algorithm and a signature. Its body has to be of
the third version, to name the same algorithm and to hold, behind an issuer, a
time and a subject, the field of a public key. Extensions may follow: those
that are known occur once at most, and unknown ones must not be critical.
Nothing else is looked at, not even the signature.

Key definitions: `X509.Fault`, `X509.Extension`, `X509.checkExtensions`,
`X509.publicKeyField`.
-/
import FileReceiver.Certificate.Der

namespace FileReceiver.X509

/-- Why bytes are no certificate that can be used. -/
inductive Fault where
  | badEncoding
  | badVersion
  /-- The body names another algorithm than the one behind it. -/
  | otherAlgorithm
  /-- A known extension occurs twice. -/
  | repeatedExtension
  | unknownCritical
deriving DecidableEq, Repr

def Fault.message : Fault → String
  | badEncoding => "BadEncoding"
  | badVersion => "Other(OtherError(UnsupportedCertVersion))"
  | otherAlgorithm => "Other(OtherError(SignatureAlgorithmMismatch))"
  | repeatedExtension => "Other(OtherError(ExtensionValueInvalid))"
  | unknownCritical => "Other(OtherError(UnsupportedCriticalExtension))"

/-- The most bytes that a value of a certificate may have. -/
def valueLimit : Nat := 65534

/-- The bytes of the first value, which has to have the tag, and what follows it. -/
def take (tag : UInt8) (bytes : List UInt8) : Except Fault (List UInt8 × List UInt8) :=
  match Der.take? valueLimit tag bytes with
  | some found => .ok found
  | none => .error .badEncoding

/-- The bytes of a value with the tag that is all there has to be. -/
def only (tag : UInt8) (bytes : List UInt8) : Except Fault (List UInt8) :=
  match Der.only? valueLimit tag bytes with
  | some inner => .ok inner
  | none => .error .badEncoding

/-- Takes the version, which has to be the third: the number two in a part of its own. -/
def takeVersion (bytes : List UInt8) : Except Fault (List UInt8) :=
  match Der.take? valueLimit (Der.partTag 0) bytes with
  | none => .error .badVersion
  | some (part, rest) => do
    let (value, behind) ← take Der.integerTag part
    match Der.magnitude? value with
    | some [version] => if version = 2 ∧ behind = [] then .ok rest else .error .badVersion
    | _ => .error .badEncoding

/-! ## Extensions -/

/-- The names of the known extensions have this in front of their last byte. -/
def extensionName : List UInt8 := [0x55, 0x1D]

/-- The last bytes of the names of the known extensions: the use of the key, other names, basic
constraints, constraints on names, where to find revocations, further use of the key. -/
def knownExtensions : List UInt8 := [15, 17, 19, 30, 31, 37]

/-- An extension. -/
structure Extension where
  name : List UInt8
  critical : Bool
  value : List UInt8

/-- The mark of a critical extension, which may be left out. -/
def takeCritical (bytes : List UInt8) : Except Fault (Bool × List UInt8) :=
  if bytes.head? = some Der.booleanTag then do
    let (mark, rest) ← take Der.booleanTag bytes
    match mark with
    | [0xFF] => .ok (true, rest)
    | [0x00] => .ok (false, rest)
    | _ => .error .badEncoding
  else .ok (false, bytes)

/-- Takes an extension from the bytes of its sequence. -/
def takeExtension (bytes : List UInt8) : Except Fault (Extension × List UInt8) := do
  let (name, rest) ← take Der.objectTag bytes
  let (critical, rest) ← takeCritical rest
  let (value, rest) ← take Der.octetStringTag rest
  return (⟨name, critical, value⟩, rest)

/-- The last byte of the name of a known extension. -/
def Extension.known? (e : Extension) : Option UInt8 :=
  match e.name with
  | [a, b, last] =>
    if [a, b] = extensionName ∧ last ∈ knownExtensions then some last else none
  | _ => none

/-- Looks at an extension and gives the known ones up to it. The value of a known one is a sequence,
but for the use of the key, which is not looked into. -/
def checkExtension (seen : List UInt8) (e : Extension) : Except Fault (List UInt8) :=
  match e.known? with
  | none => if e.critical then .error .unknownCritical else .ok seen
  | some last =>
    if last ∈ seen then .error .repeatedExtension
    else if last = 15 then .ok (last :: seen)
    else (only Der.sequenceTag e.value).map fun _ => last :: seen

/-- Looks at extensions one after the other. -/
def checkExtensions (seen : List UInt8) : List Der.Item → Except Fault Unit
  | [] => .ok ()
  | item :: rest =>
    if item.tag = Der.sequenceTag then do
      let (e, behind) ← takeExtension item.bytes
      let seen ← checkExtension seen e
      if behind = [] then checkExtensions seen rest else .error .badEncoding
    else .error .badEncoding

/-- Looks at what stands behind the field of the public key: nothing, or the part of the extensions,
of which there may be none. -/
def checkRest (bytes : List UInt8) : Except Fault Unit :=
  if bytes = [] then .ok ()
  else do
    let (part, behind) ← take (Der.partTag 3) bytes
    let (list, more) ← take Der.sequenceTag part
    let (items, left) := Der.items valueLimit list
    checkExtensions [] items
    if left = [] ∧ more = [] ∧ behind = [] then .ok () else .error .badEncoding

/-! ## The body -/

/-- The field of the public key in the body of a certificate that names an algorithm behind it. -/
def fieldOfBody (algorithm body : List UInt8) : Except Fault (List UInt8) := do
  let rest ← takeVersion body
  let (_, rest) ← take Der.integerTag rest
  let (named, rest) ← take Der.sequenceTag rest
  if named ≠ algorithm then .error .otherAlgorithm
  else
    let (_, rest) ← take Der.sequenceTag rest
    let (_, rest) ← take Der.sequenceTag rest
    let (_, rest) ← take Der.sequenceTag rest
    let (field, rest) ← take Der.sequenceTag rest
    checkRest rest
    return field

/-- What the field of the public key in a certificate holds. -/
def publicKeyField (certificate : List UInt8) : Except Fault (List UInt8) := do
  let (body, rest) ← take Der.sequenceTag (← only Der.sequenceTag certificate)
  let (algorithm, rest) ← take Der.sequenceTag rest
  match Der.bits? (← only Der.bitStringTag rest) with
  | some _ => fieldOfBody algorithm body
  | none => .error .badEncoding

end FileReceiver.X509
