/-
# Values by tag and length

The structure of certificates and keys: a value is a tag, a length and that
many bytes, which for a sequence are values again. Every length has one form
only, tags take one byte, and no value here is longer than a length of two
bytes can say; how long it may be is up to the reader.

Key definitions: `Der.Item`, `Der.next?`, `Der.take?`, `Der.items`,
`Der.magnitude?`, `Der.bits?`, `Der.write`.
Key theorems: `Der.next?_write`.
-/

namespace FileReceiver.Der

/-- A value: its tag and its bytes. -/
structure Item where
  tag : UInt8
  bytes : List UInt8
deriving DecidableEq, Repr

def booleanTag : UInt8 := 0x01
def integerTag : UInt8 := 0x02
def bitStringTag : UInt8 := 0x03
def octetStringTag : UInt8 := 0x04
def nullTag : UInt8 := 0x05
def objectTag : UInt8 := 0x06
def sequenceTag : UInt8 := 0x30

/-- The tag of a part with a number, which holds values. -/
def partTag (number : UInt8) : UInt8 := 0xA0 + number

/-- The tag of a part with a number, which holds plain bytes. -/
def plainPartTag (number : UInt8) : UInt8 := 0x80 + number

/-- A length and what follows it. -/
def length? : List UInt8 → Option (Nat × List UInt8)
  | [] => none
  | b :: rest =>
    if b < 0x80 then some (b.toNat, rest)
    else if b = 0x81 then
      match rest with
      | n :: rest => if n < 0x80 then none else some (n.toNat, rest)
      | _ => none
    else if b = 0x82 then
      match rest with
      | m :: n :: rest => if m = 0 then none else some (m.toNat * 256 + n.toNat, rest)
      | _ => none
    else none

/-- The first value, which may have up to `longest` bytes, and what follows it. Tags of more than
one byte are refused. -/
def next? (longest : Nat) : List UInt8 → Option (Item × List UInt8)
  | [] => none
  | tag :: rest =>
    if tag % 32 = 31 then none
    else
      match length? rest with
      | none => none
      | some (length, rest) =>
        if longest < length ∨ rest.length < length then none
        else some (⟨tag, rest.take length⟩, rest.drop length)

/-- The bytes of the first value, if it has the tag, and what follows it. -/
def take? (longest : Nat) (tag : UInt8) (bytes : List UInt8) :
    Option (List UInt8 × List UInt8) :=
  match next? longest bytes with
  | some (item, rest) => if item.tag = tag then some (item.bytes, rest) else none
  | none => none

/-- The bytes of a value with the tag that is all there is. -/
def only? (longest : Nat) (tag : UInt8) (bytes : List UInt8) : Option (List UInt8) :=
  match take? longest tag bytes with
  | some (inner, []) => some inner
  | _ => none

/-- The values at the front, at most `fuel` of them, and what stands behind the last one that can be
read. -/
def itemsUpTo (longest : Nat) : (fuel : Nat) → List UInt8 → List Item × List UInt8
  | 0, bytes => ([], bytes)
  | fuel + 1, bytes =>
    match next? longest bytes with
    | none => ([], bytes)
    | some (item, rest) =>
      let (items, rest) := itemsUpTo longest fuel rest
      (item :: items, rest)

/-- The values at the front, and what stands behind the last one that can be read. -/
def items (longest : Nat) (bytes : List UInt8) : List Item × List UInt8 :=
  itemsUpTo longest bytes.length bytes

/-- The magnitude of an integer that is not negative: its bytes without the zero in front that keeps
the sign. More bytes than needed are refused. -/
def magnitude? : List UInt8 → Option (List UInt8)
  | [] => none
  | [b] => if b < 0x80 then some [b] else none
  | a :: b :: rest =>
    if a = 0 then if b < 0x80 then none else some (b :: rest)
    else if a < 0x80 then some (a :: b :: rest)
    else none

/-- A bit string of whole bytes. -/
def bits? : List UInt8 → Option (List UInt8)
  | 0 :: bytes => some bytes
  | _ => none

/-- A length as it is written. -/
def writeLength (n : Nat) : List UInt8 :=
  if n < 128 then [n.toUInt8]
  else if n < 256 then [0x81, n.toUInt8]
  else [0x82, (n / 256).toUInt8, (n % 256).toUInt8]

/-- A value as it is written. -/
def write (tag : UInt8) (bytes : List UInt8) : List UInt8 :=
  tag :: (writeLength bytes.length ++ bytes)

/-- The integer with a magnitude, as it is written: a zero in front keeps the sign. -/
def writeInteger (magnitude : List UInt8) : List UInt8 :=
  match magnitude with
  | b :: _ => write integerTag (if b < 0x80 then magnitude else 0 :: magnitude)
  | [] => write integerTag [0]

/-- A written length can be read. -/
theorem length?_writeLength (n : Nat) (rest : List UInt8) (h : n < 65536) :
    length? (writeLength n ++ rest) = some (n, rest) := by
  unfold writeLength
  split
  · have : n.toUInt8 < 0x80 := by
      rw [UInt8.lt_iff_toNat_lt]
      simpa [Nat.mod_eq_of_lt (show n < 256 by omega)] using ‹n < 128›
    simp [length?, this, Nat.mod_eq_of_lt (show n < 256 by omega)]
  · split
    · have : ¬ n.toUInt8 < 0x80 := by
        rw [UInt8.lt_iff_toNat_lt]
        simp [Nat.mod_eq_of_lt (show n < 256 by omega)]
        omega
      simp [length?, this, Nat.mod_eq_of_lt (show n < 256 by omega)]
    · have : (n / 256).toUInt8 ≠ 0 := by
        intro h0
        have := congrArg UInt8.toNat h0
        simp at this
        omega
      simp [length?, this, Nat.mod_eq_of_lt (show n / 256 < 256 by omega)]
      omega

/-- A written value can be read, and what follows it is left. -/
theorem next?_write (longest : Nat) (tag : UInt8) (bytes rest : List UInt8)
    (hTag : tag % 32 ≠ 31) (hLongest : bytes.length ≤ longest) (h : bytes.length < 65536) :
    next? longest (write tag bytes ++ rest) = some (⟨tag, bytes⟩, rest) := by
  simp [next?, write, hTag, List.append_assoc, length?_writeLength _ _ h]
  omega

end FileReceiver.Der
