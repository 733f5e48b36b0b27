/-
# SHA-512

The digest of a message of bytes, by FIPS 180-4: the message is padded to
blocks of 128 bytes, each of which gives a schedule of eighty words and is
folded into the eight words of the state.

Key definitions: `Sha512.schedule`, `Sha512.compress`, `Sha512.digest`.
-/
import FileReceiver.Number.Bytes

namespace FileReceiver.Sha512

/-- A word of 64 bits. -/
abbrev Word := BitVec 64

/-- The eight words of the state. -/
structure State where
  a : Word
  b : Word
  c : Word
  d : Word
  e : Word
  f : Word
  g : Word
  h : Word
deriving DecidableEq, Repr

/-- The state that every message starts from. -/
def initial : State :=
  ⟨0x6a09e667f3bcc908, 0xbb67ae8584caa73b, 0x3c6ef372fe94f82b, 0xa54ff53a5f1d36f1,
    0x510e527fade682d1, 0x9b05688c2b3e6c1f, 0x1f83d9abfb41bd6b, 0x5be0cd19137e2179⟩

/-- The constants of the rounds. -/
def constants : List Word :=
  [0x428a2f98d728ae22, 0x7137449123ef65cd, 0xb5c0fbcfec4d3b2f, 0xe9b5dba58189dbbc,
    0x3956c25bf348b538, 0x59f111f1b605d019, 0x923f82a4af194f9b, 0xab1c5ed5da6d8118,
    0xd807aa98a3030242, 0x12835b0145706fbe, 0x243185be4ee4b28c, 0x550c7dc3d5ffb4e2,
    0x72be5d74f27b896f, 0x80deb1fe3b1696b1, 0x9bdc06a725c71235, 0xc19bf174cf692694,
    0xe49b69c19ef14ad2, 0xefbe4786384f25e3, 0x0fc19dc68b8cd5b5, 0x240ca1cc77ac9c65,
    0x2de92c6f592b0275, 0x4a7484aa6ea6e483, 0x5cb0a9dcbd41fbd4, 0x76f988da831153b5,
    0x983e5152ee66dfab, 0xa831c66d2db43210, 0xb00327c898fb213f, 0xbf597fc7beef0ee4,
    0xc6e00bf33da88fc2, 0xd5a79147930aa725, 0x06ca6351e003826f, 0x142929670a0e6e70,
    0x27b70a8546d22ffc, 0x2e1b21385c26c926, 0x4d2c6dfc5ac42aed, 0x53380d139d95b3df,
    0x650a73548baf63de, 0x766a0abb3c77b2a8, 0x81c2c92e47edaee6, 0x92722c851482353b,
    0xa2bfe8a14cf10364, 0xa81a664bbc423001, 0xc24b8b70d0f89791, 0xc76c51a30654be30,
    0xd192e819d6ef5218, 0xd69906245565a910, 0xf40e35855771202a, 0x106aa07032bbd1b8,
    0x19a4c116b8d2d0c8, 0x1e376c085141ab53, 0x2748774cdf8eeb99, 0x34b0bcb5e19b48a8,
    0x391c0cb3c5c95a63, 0x4ed8aa4ae3418acb, 0x5b9cca4f7763e373, 0x682e6ff3d6b2b8a3,
    0x748f82ee5defb2fc, 0x78a5636f43172f60, 0x84c87814a1f0ab72, 0x8cc702081a6439ec,
    0x90befffa23631e28, 0xa4506cebde82bde9, 0xbef9a3f7b2c67915, 0xc67178f2e372532b,
    0xca273eceea26619c, 0xd186b8c721c0c207, 0xeada7dd6cde0eb1e, 0xf57d4f7fee6ed178,
    0x06f067aa72176fba, 0x0a637dc5a2c898a6, 0x113f9804bef90dae, 0x1b710b35131c471b,
    0x28db77f523047d84, 0x32caab7b40c72493, 0x3c9ebe0a15c9bebc, 0x431d67c49c100d4c,
    0x4cc5d4becb3e42b6, 0x597f299cfc657e2a, 0x5fcb6fab3ad6faec, 0x6c44198c4a475817]

/-- The exclusive or of three words. -/
def mix (x y z : Word) : Word :=
  x ^^^ y ^^^ z

/-- The word that bytes write. -/
def word (bytes : List UInt8) : Word :=
  BitVec.ofNat 64 (Bytes.toNat bytes)

/-- The sixteen words of a block, the last one first. -/
def blockWords (block : List UInt8) : List Word :=
  ((List.range 16).map fun i => word ((block.drop (8 * i)).take 8)).reverse

/-- A schedule, the last word first, with so many further words. -/
def extend : Nat → List Word → List Word
  | 0, w => w
  | n + 1, w =>
    let x := w.getD 14 0
    let y := w.getD 1 0
    let s := mix (x.rotateRight 1) (x.rotateRight 8) (x >>> 7)
    let t := mix (y.rotateRight 19) (y.rotateRight 61) (y >>> 6)
    extend n ((w.getD 15 0 + s + w.getD 6 0 + t) :: w)

/-- The eighty words of a block. -/
def schedule (block : List UInt8) : List Word :=
  (extend 64 (blockWords block)).reverse

/-- One round with its constant and its word of the schedule. -/
def round (v : State) (k w : Word) : State :=
  let s := mix (v.e.rotateRight 14) (v.e.rotateRight 18) (v.e.rotateRight 41)
  let t := v.h + s + ((v.e &&& v.f) ^^^ (~~~v.e &&& v.g)) + k + w
  let u := mix (v.a.rotateRight 28) (v.a.rotateRight 34) (v.a.rotateRight 39)
  let majority := mix (v.a &&& v.b) (v.a &&& v.c) (v.b &&& v.c)
  ⟨t + (u + majority), v.a, v.b, v.c, v.d + t, v.e, v.f, v.g⟩

/-- The state after one more block. -/
def compress (v : State) (block : List UInt8) : State :=
  let r := (constants.zip (schedule block)).foldl (fun r (k, w) => round r k w) v
  ⟨v.a + r.a, v.b + r.b, v.c + r.c, v.d + r.d, v.e + r.e, v.f + r.f, v.g + r.g, v.h + r.h⟩

/-- What is put behind a message of `length` bytes to fill whole blocks. -/
def padding (length : Nat) : List UInt8 :=
  0x80 :: (List.replicate ((239 - length % 128) % 128) 0 ++ Bytes.ofNat 16 (8 * length))

/-- Folds the blocks of a message, at most `fuel` of them, into the state. -/
def compressBlocks : (fuel : Nat) → State → List UInt8 → State
  | 0, v, _ => v
  | fuel + 1, v, bytes =>
    if bytes.length < 128 then v
    else compressBlocks fuel (compress v (bytes.take 128)) (bytes.drop 128)

/-- The sixty-four bytes of the digest of a message. -/
def digest (message : List UInt8) : List UInt8 :=
  let padded := message ++ padding message.length
  let v := compressBlocks padded.length initial padded
  [v.a, v.b, v.c, v.d, v.e, v.f, v.g, v.h].flatMap fun w => Bytes.ofNat 8 w.toNat

/-- A padded message is whole blocks. -/
theorem length_padding (length : Nat) : (length + (padding length).length) % 128 = 0 := by
  simp [padding, Bytes.length_ofNat]
  omega

end FileReceiver.Sha512
