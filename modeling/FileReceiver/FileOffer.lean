/-
# Files on offer

What a sender says about a file before it sends it. A size may be given as a
number or as text that holds one; a fraction is dropped, and a number past 64
bits counts as the largest that fits.

Key definitions: `FileOffer`, `FileOffer.sizeForm`, `FileOffer.schema`, `Manifest`.
-/
import FileReceiver.Json.Record

namespace FileReceiver

/-- A file that a sender offers. -/
structure FileOffer where
  name : Option String := none
  size : UInt64 := 0
  kind : Option String := none
  hash : Option String := none
deriving DecidableEq, Repr

/-- The files that a sender offers, by the ids it gives them. -/
abbrev Manifest := List (String × FileOffer)

namespace FileOffer

open Json

/-- The largest size. -/
def maxSize : Nat := UInt64.size - 1

/-- The size that a floating-point number gives. -/
def sizeOfReal (x : Binary64) : Except Mismatch UInt64 :=
  if x.isNonnegative then .ok (min x.magnitude.truncate maxSize).toUInt64
  else .error (.badSize x.positional)

/-- The size that text gives: digits with an optional plus sign, between blanks. -/
def sizeOfText (s : String) : Except Mismatch UInt64 :=
  match Text.readCount? (Text.trimBlanks s.toList) with
  | some n => if n ≤ maxSize then .ok n.toUInt64 else .error (.badSize (Text.quotedText s))
  | none => .error (.badSize (Text.quotedText s))

/-- The size that a value gives. -/
def sizeOfValue : Value → Except Mismatch UInt64
  | .number (.integer n) =>
    if 0 ≤ n then .ok n.toNat.toUInt64
    else sizeOfReal ((Binary64.ofSigned? true n.natAbs).getD ⟨true, .zero⟩)
  | .number (.real x) => sizeOfReal x
  | .string s => sizeOfText s
  | _ => .error .noSize

/-- The form of a size. -/
def sizeForm : Form UInt64 where
  structured := true
  decode := sizeOfValue
  encode n := .natural n.toNat

/-- The written form of an offer. -/
def schema : Schema FileOffer where
  title := "FileMetadata"
  default := {}
  fields := [
    Form.text.optional.field "name" FileOffer.name fun v f => { f with name := v },
    sizeForm.field "size" FileOffer.size fun v f => { f with size := v },
    Form.text.optional.field "type" FileOffer.kind fun v f => { f with kind := v },
    Form.text.optional.field "hash" FileOffer.hash fun v f => { f with hash := v }]

/-- The manifest that a value gives. -/
def manifestOfValue (v : Value) : Except Mismatch Manifest :=
  membersOf schema.ofValue v

end FileOffer

end FileReceiver
