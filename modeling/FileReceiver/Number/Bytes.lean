/-
# Numbers in bytes

A number is written with so many bytes, the most significant first. Bytes that
do not fit are dropped at that end.

Key definitions: `Bytes.toNat`, `Bytes.ofNat`.
Key theorems: `Bytes.toNat_ofNat`, `Bytes.length_ofNat`.
-/

namespace FileReceiver.Bytes

/-- The number of bytes, the most significant first. -/
def toNat (bytes : List UInt8) : Nat :=
  bytes.foldl (fun n b => n * 256 + b.toNat) 0

/-- A number in so many bytes, the most significant first. -/
def ofNat : (count : Nat) → Nat → List UInt8
  | 0, _ => []
  | count + 1, n => ofNat count (n / 256) ++ [(n % 256).toUInt8]

theorem length_ofNat (count n : Nat) : (ofNat count n).length = count := by
  induction count generalizing n with
  | zero => rfl
  | succ count ih => simp [ofNat, ih]

theorem toNat_append_singleton (bytes : List UInt8) (b : UInt8) :
    toNat (bytes ++ [b]) = toNat bytes * 256 + b.toNat := by
  simp [toNat]

/-- What is written is read back, up to the bytes that do not fit. -/
theorem toNat_ofNat (count n : Nat) : toNat (ofNat count n) = n % Nat.pow 256 count := by
  induction count generalizing n with
  | zero => exact (Nat.mod_one n).symm
  | succ count ih =>
    have hPow : Nat.pow 256 (count + 1) = 256 * Nat.pow 256 count := Nat.mul_comm _ _
    rw [ofNat, toNat_append_singleton, ih, hPow, Nat.mod_mul]
    simp
    omega

end FileReceiver.Bytes
