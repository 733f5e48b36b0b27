/-
# Percent encoding

A segment of a target may hold any byte as a percent sign and two hexadecimal
digits. A percent sign that two digits do not follow stands for itself.

Key definitions: `Percent.decode`, `Percent.encode`.
-/
import FileReceiver.Text.Basic

namespace FileReceiver.Percent

/-- The bytes that a segment stands for. -/
def decode : List UInt8 → List UInt8
  | [] => []
  | [a] => [a]
  | [a, b] => [a, b]
  | a :: b :: c :: rest =>
    if a = '%'.toUInt8 then
      match Text.hexValue? (Char.ofNat b.toNat), Text.hexValue? (Char.ofNat c.toNat) with
      | some high, some low => (high * 16 + low).toUInt8 :: decode rest
      | _, _ => a :: decode (b :: c :: rest)
    else a :: decode (b :: c :: rest)

/-- Letters, digits and the four marks that need no encoding. -/
def isUnreserved (b : UInt8) : Bool :=
  let c := Char.ofNat b.toNat
  c.isAlphanum || c == '-' || c == '.' || c == '_' || c == '~'

/-- A segment that stands for the given bytes. -/
def encode (bytes : List UInt8) : List Char :=
  bytes.flatMap fun b =>
    if isUnreserved b then [Char.ofNat b.toNat]
    else ['%', Text.hexDigit (b.toNat / 16), Text.hexDigit (b.toNat % 16)]

/-- The text that a segment stands for, if it is any. -/
def decodeText? (segment : String) : Option String :=
  String.fromUTF8? (decode segment.toUTF8.toList).toByteArray

end FileReceiver.Percent
