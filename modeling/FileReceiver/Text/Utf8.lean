/-
# Bytes shown as text

Bytes that should be UTF-8 but may not be are shown with a replacement
character for each stretch that is none: a byte that begins no character, or
the beginning of a character that the next byte does not go on with. Such a
byte is then looked at again, as the beginning of what follows.

Key definitions: `Utf8.Begun`, `Utf8.begin`, `Utf8.decodeFrom`,
`Text.ofBytes`.
-/

namespace FileReceiver

namespace Utf8

/-- A character of which some bytes have been read. -/
structure Begun where
  /-- How many bytes are missing. -/
  missing : Nat
  /-- The bounds that the next byte has to keep, so that no character has two encodings and none
  is a surrogate or past the last code point. -/
  low : UInt8
  high : UInt8
  /-- The bits that have been read. -/
  code : Nat

/-- What the first byte of a character may be. -/
inductive First where
  | whole (c : Char)
  | begun (b : Begun)
  | wrong

/-- What a byte is where a character has to begin. -/
def begin (b : UInt8) : First :=
  if b < 0x80 then .whole (Char.ofNat b.toNat)
  else if b < 0xC2 then .wrong
  else if b < 0xE0 then .begun ⟨1, 0x80, 0xBF, b.toNat - 0xC0⟩
  else if b < 0xF0 then
    .begun ⟨2, if b = 0xE0 then 0xA0 else 0x80, if b = 0xED then 0x9F else 0xBF, b.toNat - 0xE0⟩
  else if b < 0xF5 then
    .begun ⟨3, if b = 0xF0 then 0x90 else 0x80, if b = 0xF4 then 0x8F else 0xBF, b.toNat - 0xF0⟩
  else .wrong

/-- The character that stands for what is no text. -/
def replacement : Char := Char.ofNat 0xFFFD

/-- Puts what a byte is where a character has to begin behind the text. -/
def start (b : UInt8) (text : List Char) : Option Begun × List Char :=
  match begin b with
  | .whole c => (none, c :: text)
  | .begun s => (some s, text)
  | .wrong => (none, replacement :: text)

/-- Goes through bytes; the text is kept in reverse. -/
def decodeFrom (begun : Option Begun) (text : List Char) : List UInt8 → List Char
  | [] => if begun.isSome then replacement :: text else text
  | b :: rest =>
    match begun with
    | none =>
      let (begun, text) := start b text
      decodeFrom begun text rest
    | some s =>
      if s.low ≤ b && b ≤ s.high then
        let code := s.code * 64 + b.toNat % 64
        if s.missing ≤ 1 then decodeFrom none (Char.ofNat code :: text) rest
        else decodeFrom (some ⟨s.missing - 1, 0x80, 0xBF, code⟩) text rest
      else
        let (begun, text) := start b (replacement :: text)
        decodeFrom begun text rest

end Utf8

/-- The text that bytes show. -/
def Text.ofBytes (bytes : List UInt8) : String :=
  String.ofList (Utf8.decodeFrom none [] bytes).reverse

end FileReceiver
