/-
# The tokens of a document

Reading goes through the bytes of a document once, from the left. A reader
takes the unread bytes and gives a result with what is left, or the first
error met. An error that blames the next byte counts that byte as read; an
error that blames a byte already taken does not.

A string is read by an automaton that takes one byte a step, so that nothing
is looked at twice; its bytes are checked to be UTF-8 once the closing quote
is found. A number is a machine integer if it fits one, and is otherwise
rounded to binary64 from the digits that fit 64 bits.

Key definitions: `Json.skipBlanks`, `Json.readWord`, `Json.StringState`,
`Json.readString`, `Json.readNumber`.
-/
import FileReceiver.Json.ReadError
import FileReceiver.Text.Basic

namespace FileReceiver.Json

/-- A reader takes the unread bytes and leaves what it does not use. -/
abbrev Reader (α : Type) := List UInt8 → Except ReadError (α × List UInt8)

/-- An error found when the given bytes are unread. -/
def failAt {α : Type} (defect : Defect) (rest : List UInt8) : Except ReadError α :=
  .error ⟨defect, rest.length⟩

/-- An error that blames the first of the given bytes. -/
def failAtNext {α : Type} (defect : Defect) (rest : List UInt8) : Except ReadError α :=
  .error ⟨defect, rest.length - 1⟩

/-- The code of an ASCII character. -/
def code (c : Char) : UInt8 :=
  c.toUInt8

/-- Spaces, line breaks, tabs and carriage returns. -/
def isBlankByte (b : UInt8) : Bool :=
  b == 0x20 || b == 0x0A || b == 0x09 || b == 0x0D

def skipBlanks (input : List UInt8) : List UInt8 :=
  input.dropWhile isBlankByte

/-- The rest of one of the words `null`, `true` and `false`. -/
def readWord : List Char → List UInt8 → Except ReadError (List UInt8)
  | [], input => .ok input
  | _ :: _, [] => failAt .endsInValue []
  | c :: word, b :: rest => if b = code c then readWord word rest else failAt .expectedWord rest

/-! ## Strings -/

/-- Where the reader of a string stands. A surrogate pair is two escapes, so
the first half is kept until the second has been read. -/
inductive StringState where
  /-- Between characters. -/
  | text
  /-- After a backslash. -/
  | escape
  /-- Inside four hexadecimal digits: how many are left, and the value so far unless a digit
  was wrong. -/
  | hex (left : Nat) (value : Option Nat) (high : Option Nat)
  /-- After the first half of a surrogate pair. -/
  | pair (high : Nat)
  /-- After the backslash that follows the first half of a surrogate pair. -/
  | pairEscape (high : Nat)
deriving DecidableEq, Repr

/-- The byte that a one-letter escape stands for. -/
def escapedByte? (b : UInt8) : Option UInt8 :=
  if b = code '"' then some 0x22
  else if b = code '\\' then some 0x5C
  else if b = code '/' then some 0x2F
  else if b = code 'b' then some 0x08
  else if b = code 'f' then some 0x0C
  else if b = code 'n' then some 0x0A
  else if b = code 'r' then some 0x0D
  else if b = code 't' then some 0x09
  else none

/-- The bytes of a code point in UTF-8. -/
def encodeCodePoint (n : Nat) : List UInt8 :=
  String.utf8EncodeChar (Char.ofNat n)

/-- What four hexadecimal digits mean: text to add, or the first half of a pair. -/
def closeHex (value : Nat) (high : Option Nat) : Except Defect (StringState × List UInt8) :=
  match high with
  | none =>
    if 0xDC00 ≤ value ∧ value ≤ 0xDFFF then .error .loneSurrogate
    else if 0xD800 ≤ value ∧ value ≤ 0xDBFF then .ok (.pair value, [])
    else .ok (.text, encodeCodePoint value)
  | some high =>
    if 0xDC00 ≤ value ∧ value ≤ 0xDFFF then
      .ok (.text, encodeCodePoint (0x10000 + (high - 0xD800) * 0x400 + (value - 0xDC00)))
    else .error .loneSurrogate

/-- One step of the reader of a string: the next state and the bytes it adds to the text. The
closing quote is not a step. -/
def StringState.step (state : StringState) (b : UInt8) : Except Defect (StringState × List UInt8) :=
  match state with
  | .text =>
    if b = code '\\' then .ok (.escape, [])
    else if b < 0x20 then .error .controlInString
    else .ok (.text, [b])
  | .escape =>
    if b = code 'u' then .ok (.hex 3 (some 0) none, [])
    else match escapedByte? b with
      | some plain => .ok (.text, [plain])
      | none => .error .badEscape
  | .hex left value high =>
    let value := do pure ((← value) * 16 + (← Text.hexValue? (Char.ofNat b.toNat)))
    match left, value with
    | left + 1, value => .ok (.hex left value high, [])
    | 0, none => .error .badEscape
    | 0, some value => closeHex value high
  | .pair high =>
    if b = code '\\' then .ok (.pairEscape high, []) else .error .unpairedSurrogate
  | .pairEscape high =>
    if b = code 'u' then .ok (.hex 3 (some 0) (some high), []) else .error .unpairedSurrogate

/-- The bytes of a string up to its closing quote. The text so far is kept in reverse. -/
def readStringBytes (state : StringState) (text : List UInt8) : Reader (List UInt8)
  | [] => failAt .endsInString []
  | b :: rest =>
    if state = .text ∧ b = code '"' then .ok (text.reverse, rest)
    else match state.step b with
      | .ok (next, added) => readStringBytes next (added.reverse ++ text) rest
      | .error defect => failAt defect rest

/-- The text that UTF-8 bytes hold. -/
def decodeText? (bytes : List UInt8) : Option String :=
  String.fromUTF8? bytes.toByteArray

/-- A string after its opening quote. -/
def readString : Reader String := fun input => do
  let (bytes, rest) ← readStringBytes .text [] input
  match decodeText? bytes with
  | some s => .ok (s, rest)
  | none => failAt .badCodePoint rest

/-! ## Numbers -/

def isDigitByte (b : UInt8) : Bool :=
  code '0' ≤ b && b ≤ code '9'

def digitOf (b : UInt8) : Nat :=
  b.toNat - '0'.toNat

/-- Digits are gathered into a significand of 64 bits. -/
def significandLimit : Nat := UInt64.size

/-- An exponent of decimal text is read up to this limit, two to the thirty-first. -/
def exponentLimit : Nat := 2147483648

/-- Gathers digits into a significand as long as it stays within 64 bits: the significand, the
count of digits taken, and what is left. -/
def gatherDigits (significand taken : Nat) : List UInt8 → Nat × Nat × List UInt8
  | [] => (significand, taken, [])
  | b :: rest =>
    if isDigitByte b ∧ significand * 10 + digitOf b < significandLimit then
      gatherDigits (significand * 10 + digitOf b) (taken + 1) rest
    else (significand, taken, b :: rest)

/-- The number written by a sign, a significand and a power of ten. -/
def scaledNumber (negative : Bool) (significand : Nat) (exponent : Int) :
    Reader Number := fun rest =>
  match Magnitude.ofDecimal? significand exponent with
  | some size => .ok (.real ⟨negative, size⟩, rest)
  | none => failAt .numberOutOfRange rest

/-- The digits of an exponent after the first: its value, or nothing where it leaves the limit. -/
def readExponentDigits (exponent : Nat) : List UInt8 → Option Nat × List UInt8
  | [] => (some exponent, [])
  | b :: rest =>
    if isDigitByte b then
      if exponent * 10 + digitOf b < exponentLimit then
        readExponentDigits (exponent * 10 + digitOf b) rest
      else (none, rest)
    else (some exponent, b :: rest)

/-- The sign that may stand before the digits of an exponent: whether the exponent is below zero. -/
def readExponentSign : List UInt8 → Bool × List UInt8
  | [] => (false, [])
  | b :: rest =>
    if b = code '+' then (false, rest)
    else if b = code '-' then (true, rest)
    else (false, b :: rest)

/-- The exponent after its letter. -/
def readExponent (negative : Bool) (significand : Nat) (exponent : Int) :
    Reader Number := fun input =>
  let (below, afterSign) := readExponentSign input
  match afterSign with
  | [] => failAt .endsInValue []
  | b :: rest =>
    if isDigitByte b then
      match readExponentDigits (digitOf b) rest with
      | (some written, rest) =>
        scaledNumber negative significand (if below then exponent - written else exponent + written)
          rest
      | (none, rest) =>
        if significand ≠ 0 ∧ !below then failAt .numberOutOfRange rest
        else .ok (.real ⟨negative, .zero⟩, rest.dropWhile isDigitByte)
    else failAt .badNumber rest

/-- An exponent, if one follows. -/
def readScale (negative : Bool) (significand : Nat) (exponent : Int) : Reader Number := fun input =>
  match input with
  | b :: rest =>
    if b = code 'e' ∨ b = code 'E' then readExponent negative significand exponent rest
    else scaledNumber negative significand exponent input
  | [] => scaledNumber negative significand exponent input

/-- The digits after the point. Once one does not fit the significand the rest are dropped. -/
def readFraction (negative : Bool) (significand : Nat) (exponent : Int) :
    Reader Number := fun input =>
  match input with
  | [] => failAtNext .endsInValue []
  | b :: _ =>
    if isDigitByte b then
      let (significand, taken, rest) := gatherDigits significand 0 input
      readScale negative significand (exponent - taken) (rest.dropWhile isDigitByte)
    else failAtNext .badNumber input

/-- The size of the least of the signed integers of 64 bits. -/
def leastIntegerSize : Nat := 9223372036854775808

/-- The integer of a sign and a size, unless only a floating-point number holds it: the negative
zero and everything below the signed integers. -/
def integerNumber (negative : Bool) (size : Nat) : Number :=
  if !negative then .integer size
  else if size = 0 ∨ leastIntegerSize < size then
    .real ⟨true, (Magnitude.ofNat? size).getD .zero⟩
  else .integer (-(size : Int))

/-- What may follow the digits before the point. -/
def readNumberTail (negative : Bool) (significand : Nat) : Reader Number := fun input =>
  match input with
  | [] => .ok (integerNumber negative significand, input)
  | b :: rest =>
    if b = code '.' then readFraction negative significand 0 rest
    else if b = code 'e' ∨ b = code 'E' then readExponent negative significand 0 rest
    else .ok (integerNumber negative significand, input)

/-- What follows the first digit that no longer fits: each further digit before the point raises
the exponent. -/
def readLongNumber (negative : Bool) (significand : Nat) : Reader Number := fun input =>
  let dropped := (input.takeWhile isDigitByte).length
  match input.dropWhile isDigitByte with
  | [] => scaledNumber negative significand dropped []
  | b :: rest =>
    if b = code '.' then readFraction negative significand dropped rest
    else readScale negative significand dropped (b :: rest)

/-- Whether the input starts with a digit. -/
def startsWithDigit : List UInt8 → Bool
  | [] => false
  | b :: _ => isDigitByte b

/-- A number after its sign. -/
def readNumber (negative : Bool) : Reader Number := fun input =>
  match input with
  | [] => failAt .endsInValue []
  | b :: rest =>
    if b = code '0' then
      if startsWithDigit rest then failAtNext .badNumber rest
      else readNumberTail negative 0 rest
    else if isDigitByte b then
      let (significand, _, rest) := gatherDigits (digitOf b) 0 rest
      if startsWithDigit rest then readLongNumber negative significand rest
      else readNumberTail negative significand rest
    else failAt .badNumber rest

end FileReceiver.Json
