/-
# SHA-256

The digest of a message of bytes, by FIPS 180-4. It is defined twice: `digest`
pads the whole message and folds the compression over its blocks, and a
`Hasher` takes the message piece by piece, keeping at most one block. A
hasher's fields are the words so far, the bytes of the block that is not full
yet, and the count of all bytes.

Key definitions: `Sha256.compress`, `Sha256.digest`, `Sha256.Hasher`,
`Sha256.Hasher.absorb`, `Sha256.Hasher.finish`, `Sha256.Hasher.ofReads`.
-/
import FileReceiver.Number.Bytes

namespace FileReceiver.Sha256

/-- The eight words of the state. -/
structure Words where
  a : UInt32
  b : UInt32
  c : UInt32
  d : UInt32
  e : UInt32
  f : UInt32
  g : UInt32
  h : UInt32
deriving DecidableEq, Repr

/-- The words that every message starts from. -/
def initialWords : Words :=
  ⟨0x6a09e667, 0xbb67ae85, 0x3c6ef372, 0xa54ff53a, 0x510e527f, 0x9b05688c, 0x1f83d9ab, 0x5be0cd19⟩

/-- The constants of the rounds. -/
def roundConstants : Array UInt32 :=
  #[0x428a2f98, 0x71374491, 0xb5c0fbcf, 0xe9b5dba5, 0x3956c25b, 0x59f111f1, 0x923f82a4, 0xab1c5ed5,
    0xd807aa98, 0x12835b01, 0x243185be, 0x550c7dc3, 0x72be5d74, 0x80deb1fe, 0x9bdc06a7, 0xc19bf174,
    0xe49b69c1, 0xefbe4786, 0x0fc19dc6, 0x240ca1cc, 0x2de92c6f, 0x4a7484aa, 0x5cb0a9dc, 0x76f988da,
    0x983e5152, 0xa831c66d, 0xb00327c8, 0xbf597fc7, 0xc6e00bf3, 0xd5a79147, 0x06ca6351, 0x14292967,
    0x27b70a85, 0x2e1b2138, 0x4d2c6dfc, 0x53380d13, 0x650a7354, 0x766a0abb, 0x81c2c92e, 0x92722c85,
    0xa2bfe8a1, 0xa81a664b, 0xc24b8b70, 0xc76c51a3, 0xd192e819, 0xd6990624, 0xf40e3585, 0x106aa070,
    0x19a4c116, 0x1e376c08, 0x2748774c, 0x34b0bcb5, 0x391c0cb3, 0x4ed8aa4a, 0x5b9cca4f, 0x682e6ff3,
    0x748f82ee, 0x78a5636f, 0x84c87814, 0x8cc70208, 0x90befffa, 0xa4506ceb, 0xbef9a3f7, 0xc67178f2]

def rotateRight (x n : UInt32) : UInt32 :=
  (x >>> n) ||| (x <<< (32 - n))

/-- The word of four bytes, the most significant first. -/
def wordAt (block : ByteArray) (i : Nat) : UInt32 :=
  let byte (j : Nat) : UInt32 := (block.data.getD (4 * i + j) 0).toUInt32
  (byte 0 <<< 24) ||| (byte 1 <<< 16) ||| (byte 2 <<< 8) ||| byte 3

/-- The next word of a schedule. -/
def nextWord (w : Array UInt32) : UInt32 :=
  let back (k : Nat) := w.getD (w.size - k) 0
  let x := back 15
  let y := back 2
  let s0 := rotateRight x 7 ^^^ rotateRight x 18 ^^^ (x >>> 3)
  let s1 := rotateRight y 17 ^^^ rotateRight y 19 ^^^ (y >>> 10)
  back 16 + s0 + back 7 + s1

/-- A schedule with so many further words. -/
def extend : Nat → Array UInt32 → Array UInt32
  | 0, w => w
  | n + 1, w => extend n (w.push (nextWord w))

/-- The sixty-four words of a block. -/
def schedule (block : ByteArray) : Array UInt32 :=
  extend 48 (Array.ofFn fun i : Fin 16 => wordAt block i)

/-- One round with its constant and its word of the schedule. -/
def round (v : Words) (k w : UInt32) : Words :=
  let s1 := rotateRight v.e 6 ^^^ rotateRight v.e 11 ^^^ rotateRight v.e 25
  let choice := (v.e &&& v.f) ^^^ (v.e.complement &&& v.g)
  let t1 := v.h + s1 + choice + k + w
  let s0 := rotateRight v.a 2 ^^^ rotateRight v.a 13 ^^^ rotateRight v.a 22
  let majority := (v.a &&& v.b) ^^^ (v.a &&& v.c) ^^^ (v.b &&& v.c)
  ⟨t1 + (s0 + majority), v.a, v.b, v.c, v.d + t1, v.e, v.f, v.g⟩

/-- The last `left` rounds. -/
def rounds (w : Array UInt32) : (left : Nat) → Words → Words
  | 0, v => v
  | left + 1, v =>
    let i := 63 - left
    rounds w left (round v (roundConstants.getD i 0) (w.getD i 0))

/-- The state after one more block. -/
def compress (v : Words) (block : ByteArray) : Words :=
  let r := rounds (schedule block) 64 v
  ⟨v.a + r.a, v.b + r.b, v.c + r.c, v.d + r.d, v.e + r.e, v.f + r.f, v.g + r.g, v.h + r.h⟩

/-- The bytes of a word, the most significant first. -/
def wordBytes (w : UInt32) : List UInt8 :=
  [(w >>> 24).toUInt8, (w >>> 16).toUInt8, (w >>> 8).toUInt8, w.toUInt8]

/-- The state as thirty-two bytes. -/
def Words.toBytes (v : Words) : ByteArray :=
  ([v.a, v.b, v.c, v.d, v.e, v.f, v.g, v.h].flatMap wordBytes).toByteArray

/-- The count of bits of a message of `length` bytes, as eight bytes. -/
def lengthBytes (length : Nat) : List UInt8 :=
  Bytes.ofNat 8 (8 * length)

/-- What is put behind a message of `length` bytes to fill whole blocks. -/
def padding (length : Nat) : List UInt8 :=
  0x80 :: (List.replicate ((119 - length % 64) % 64) 0 ++ lengthBytes length)

/-- Folds the compression over the whole blocks of a message, at most `fuel` of them. -/
def compressBlocks : (fuel : Nat) → Words → List UInt8 → Words
  | 0, v, _ => v
  | fuel + 1, v, bytes =>
    if bytes.length < 64 then v
    else compressBlocks fuel (compress v (bytes.take 64).toByteArray) (bytes.drop 64)

/-- The digest of a whole message. -/
def digest (message : List UInt8) : ByteArray :=
  let padded := message ++ padding message.length
  (compressBlocks padded.length initialWords padded).toBytes

/-- A digest in the making. -/
structure Hasher where
  words : Words
  /-- The bytes since the last whole block. -/
  pending : ByteArray
  /-- The count of all bytes. -/
  length : Nat

namespace Hasher

/-- The hasher of the empty message. -/
def empty : Hasher := ⟨initialWords, .empty, 0⟩

/-- Takes one byte more. -/
def absorbByte (h : Hasher) (b : UInt8) : Hasher :=
  let pending := h.pending.push b
  if pending.size = 64 then ⟨compress h.words pending, .empty, h.length + 1⟩
  else ⟨h.words, pending, h.length + 1⟩

/-- Takes a piece of the message. -/
def absorb (h : Hasher) (piece : ByteArray) : Hasher :=
  piece.data.foldl absorbByte h

/-- The digest of everything taken. -/
def finish (h : Hasher) : ByteArray :=
  ((padding h.length).foldl absorbByte h).words.toBytes

/-- Takes what one read after the other gives; a read that gives nothing is the end. -/
def absorbReads (h : Hasher) : List ByteArray → Hasher
  | [] => h
  | piece :: rest => if piece.isEmpty then h else absorbReads (h.absorb piece) rest

/-- The digest of what the reads give. -/
def ofReads (reads : List ByteArray) : ByteArray :=
  (empty.absorbReads reads).finish

end Hasher

end FileReceiver.Sha256
