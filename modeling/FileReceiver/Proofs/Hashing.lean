/-
# The hash of a file read in pieces

A hasher that takes a message byte by byte ends with the digest of the whole
(`Sha256.Hasher.finish_foldl`): whenever its block is full it has compressed
as many blocks as it has taken, and the padding fills the last one.

A file is hashed through one buffer that every read fills from its start,
without clearing the rest. Whatever the reads give, what is taken of the
buffer is what the last of them gave, so it does not matter what the buffer
held before (`FileHash.hashThrough_eq`). Each read but the last gives something,
so there are no more of them than bytes in the file, and what they give
together is the file (`FileHash.IsReading.exists_end`).

An announced hash agrees with a computed one just if it spells the same bytes
in hexadecimal digits of any case, with any blanks around them
(`FileHash.agree_iff`).

Key definitions: `FileHash.Buffer`, `FileHash.hashThrough`, `FileHash.IsReading`,
`Text.SpellsBytes`.
Key theorems: `Sha256.Hasher.finish_foldl`, `FileHash.hashThrough_eq`,
`FileHash.ofReads_split`, `FileHash.agree_iff`, `FileHash.pieces_hash_whole`.
-/
import FileReceiver.Digest.FileHash
import FileReceiver.Proofs.Encoding
import FileReceiver.Proofs.Sizes

namespace FileReceiver

/-! ### Taking a message byte by byte -/

namespace Sha256.Hasher

/-- Bytes that leave the block open are kept. -/
theorem foldl_open (h : Hasher) (bytes : List UInt8) (hopen : h.pending.size + bytes.length < 64) :
    bytes.foldl absorbByte h =
      ⟨h.words, h.pending ++ bytes.toByteArray, h.length + bytes.length⟩ := by
  induction bytes generalizing h with
  | nil => rw [List.foldl_nil, List.toByteArray_nil, ByteArray.append_empty]; rfl
  | cons b bytes ih =>
    rw [List.length_cons] at hopen
    have hsize : (h.pending.push b).size = h.pending.size + 1 := ByteArray.size_push
    have hone : h.absorbByte b = ⟨h.words, h.pending.push b, h.length + 1⟩ := by
      rw [absorbByte]
      exact if_neg (by omega)
    have hkept : h.pending.push b ++ bytes.toByteArray = h.pending ++ (b :: bytes).toByteArray := by
      refine ByteArray.ext ?_
      simp [ByteArray.data_append, List.data_toByteArray, ByteArray.data_push]
    rw [List.foldl_cons, hone, ih _ (by dsimp only; omega)]
    dsimp only
    rw [hkept, List.length_cons, Nat.add_assoc, Nat.add_comm 1]

/-- A block that is full is compressed. -/
theorem foldl_block (v : Words) (n : Nat) {block : List UInt8} (hfull : block.length = 64) :
    block.foldl absorbByte ⟨v, .empty, n⟩ = ⟨compress v block.toByteArray, .empty, n + 64⟩ := by
  have hne : block ≠ [] := List.ne_nil_of_length_pos (by omega)
  -- all but the last byte leave the block open
  obtain ⟨init, b, rfl⟩ : ∃ init b, block = init ++ [b] :=
    ⟨_, _, (List.dropLast_concat_getLast hne).symm⟩
  rw [List.length_append, List.length_singleton] at hfull
  have hblock : (ByteArray.empty ++ init.toByteArray).push b = (init ++ [b]).toByteArray := by
    refine ByteArray.ext ?_
    simp [List.data_toByteArray, ByteArray.data_push]
  have hsize : (init ++ [b]).toByteArray.size = 64 := by
    rw [List.size_toByteArray, List.length_append, List.length_singleton, hfull]
  have hinit := foldl_open ⟨v, .empty, n⟩ init (by change 0 + init.length < 64; omega)
  rw [List.foldl_append, hinit, List.foldl_cons, List.foldl_nil, absorbByte]
  dsimp only
  rw [hblock, if_pos hsize, Nat.add_assoc, hfull]

/-- From a block's start on, the blocks that are full are compressed one after the other. -/
theorem words_foldl (fuel : Nat) (v : Words) (n : Nat) (bytes : List UInt8)
    (hfuel : bytes.length ≤ fuel) :
    (bytes.foldl absorbByte ⟨v, .empty, n⟩).words = compressBlocks fuel v bytes := by
  induction fuel generalizing v n bytes with
  | zero =>
    obtain rfl := List.length_eq_zero_iff.mp (Nat.le_zero.mp hfuel)
    rfl
  | succ fuel ih =>
    rw [compressBlocks]
    split
    · rename_i hshort
      rw [foldl_open _ _ (by simpa using hshort)]
    · -- the first block is compressed, and behind it a block starts again
      rename_i hlong
      have hblock : (bytes.take 64).length = 64 := by rw [List.length_take]; omega
      conv_lhs => rw [← List.take_append_drop 64 bytes, List.foldl_append, foldl_block v n hblock]
      exact ih _ _ _ (by rw [List.length_drop]; omega)

theorem length_foldl (h : Hasher) (bytes : List UInt8) :
    (bytes.foldl absorbByte h).length = h.length + bytes.length := by
  induction bytes generalizing h with
  | nil => rfl
  | cons b bytes ih =>
    have hone : (h.absorbByte b).length = h.length + 1 := by
      unfold absorbByte
      dsimp only
      split <;> rfl
    rw [List.foldl_cons, ih, hone, List.length_cons]
    omega

/-- **Byte by byte or at once**, the digest is the same. -/
theorem finish_foldl (message : List UInt8) :
    (message.foldl absorbByte empty).finish = digest message := by
  rw [finish, length_foldl, ← List.foldl_append]
  have hlength : empty.length + message.length = message.length := Nat.zero_add _
  rw [hlength, empty, words_foldl _ _ _ _ (Nat.le_refl _)]
  rfl

theorem absorb_eq (h : Hasher) (piece : ByteArray) :
    h.absorb piece = piece.toList.foldl absorbByte h := by
  rw [absorb, Text.toList_eq_data, Array.foldl_toList]

/-- Reads that give something are taken one after the other, as if they were one. -/
theorem absorbReads_append {pieces : List ByteArray} (hsome : ∀ p ∈ pieces, p.isEmpty = false)
    (h : Hasher) (rest : List ByteArray) :
    h.absorbReads (pieces ++ rest) =
      ((pieces.flatMap ByteArray.toList).foldl absorbByte h).absorbReads rest := by
  induction pieces generalizing h with
  | nil => rfl
  | cons piece pieces ih =>
    have hone := hsome piece List.mem_cons_self
    rw [List.cons_append, absorbReads, hone, if_neg Bool.false_ne_true,
      ih fun p hp => hsome p (List.mem_cons_of_mem _ hp), absorb_eq, List.flatMap_cons,
      List.foldl_append]

end Sha256.Hasher

theorem Sha256.size_digest (message : List UInt8) : (digest message).size = 32 := by
  have hsize (v : Words) : v.toBytes.size = 32 := by
    rw [Words.toBytes, List.size_toByteArray]
    rfl
  exact hsize _

/-! ### Digits of either case -/

namespace Text

/-- The characters spell the bytes, two hexadecimal digits of either case for each. -/
inductive SpellsBytes : List Char → List UInt8 → Prop
  | nil : SpellsBytes [] []
  | cons {high low : Char} {s : List Char} {b : UInt8} {bytes : List UInt8}
      (hhigh : hexValue? high = some (b.toNat / 16)) (hlow : hexValue? low = some (b.toNat % 16))
      (hlater : SpellsBytes s bytes) : SpellsBytes (high :: low :: s) (b :: bytes)

theorem toLower_high {c : Char} (h : 128 ≤ c.toNat) : c.toLower = c := by
  have hcode : ¬ (c.val ≥ 'A'.val ∧ c.val ≤ 'Z'.val) := by
    rintro ⟨-, hhigh⟩
    have hhigh : c.toNat ≤ 90 := hhigh
    omega
  exact dif_neg hcode

/-- A character becomes a hexadecimal digit in lower case just if it has the digit's value. -/
theorem toLower_eq_hexDigit {c : Char} {n : Nat} (hn : n < 16) :
    c.toLower = (hexDigit n).toLower ↔ hexValue? c = some n := by
  by_cases hascii : c.toNat < 128
  · have hall : ∀ k < 128, ∀ n < 16, (Char.ofNat k).toLower = (hexDigit n).toLower ↔
        hexValue? (Char.ofNat k) = some n := by
      decide +kernel
    have hc := hall c.toNat hascii n hn
    rwa [Char.ofNat_toNat] at hc
  · have hlower : ∀ n < 16, (hexDigit n).toLower = hexDigit n := by decide
    rw [toLower_high (Nat.not_lt.mp hascii), hlower n hn]
    refine ⟨fun h => ?_, fun h => absurd (hexValue?_ascii h) hascii⟩
    rw [h] at hascii
    exact absurd (hexDigit_plain hn).1 hascii

/-- The digits of bytes are equal up to case to what spells the bytes. -/
theorem map_toLower_digits {s : List Char} {bytes : List UInt8} :
    s.map Char.toLower = (bytes.flatMap fun b =>
      [hexDigit (b.toNat / 16), hexDigit (b.toNat % 16)]).map Char.toLower ↔
    SpellsBytes s bytes := by
  induction bytes generalizing s with
  | nil =>
    rw [List.flatMap_nil, List.map_nil, List.map_eq_nil_iff]
    exact ⟨fun h => h ▸ .nil, fun | .nil => rfl⟩
  | cons b bytes ih =>
    have hb := b.toNat_lt
    have hhigh := fun c => toLower_eq_hexDigit (c := c) (n := b.toNat / 16) (by omega)
    have hlow := fun c => toLower_eq_hexDigit (c := c) (n := b.toNat % 16) (by omega)
    rw [List.flatMap_cons, List.map_append, List.map_cons, List.map_cons, List.map_nil]
    constructor
    · intro h
      match s with
      | [] => cases h
      | [c] => simp at h
      | high :: low :: s =>
        injection h with h1 h
        injection h with h2 h
        exact .cons ((hhigh _).mp h1) ((hlow _).mp h2) (ih.mp h)
    · rintro (_ | ⟨h1, h2, h⟩)
      rw [List.map_cons, List.map_cons, (hhigh _).mpr h1, (hlow _).mpr h2, ih.mpr h]
      rfl

theorem equalIgnoringCase_hexOfBytes {s : List Char} {bytes : ByteArray} :
    equalIgnoringCase s (hexOfBytes bytes) = true ↔ SpellsBytes s bytes.toList := by
  rw [equalIgnoringCase, beq_iff_eq, hexOfBytes, map_toLower_digits]

theorem SpellsBytes.not_blank {s : List Char} {bytes : List UInt8} (h : SpellsBytes s bytes) :
    ∀ c ∈ s, isBlank c = false := by
  have hdigit {c : Char} {v : Nat} (hc : hexValue? c = some v) : Text.isBlank c = false := by
    have hall : ∀ k < 128, (hexValue? (Char.ofNat k)).isSome = true →
        Text.isBlank (Char.ofNat k) = false := by
      decide +kernel
    have hcode := hall c.toNat (hexValue?_ascii hc)
    rw [Char.ofNat_toNat, hc] at hcode
    exact hcode rfl
  induction h with
  | nil => exact fun c hc => absurd hc List.not_mem_nil
  | cons hhigh hlow _ ih =>
    intro c hc
    rcases List.mem_cons.mp hc with rfl | hc
    · exact hdigit hhigh
    rcases List.mem_cons.mp hc with rfl | hc
    · exact hdigit hlow
    · exact ih c hc

/-- What is taken off a text by trimming it is blank. -/
theorem exists_padded (s : List Char) : ∃ before behind,
    s = before ++ (trimBlanks s ++ behind) ∧ (∀ c ∈ before, isBlank c = true) ∧
      ∀ c ∈ behind, isBlank c = true := by
  have hblank (t : List Char) : ∀ c ∈ t.takeWhile Text.isBlank, Text.isBlank c = true :=
    List.all_eq_true.mp List.all_takeWhile
  refine ⟨s.takeWhile Text.isBlank,
    ((s.dropWhile Text.isBlank).reverse.takeWhile Text.isBlank).reverse, ?_, hblank s,
    fun c hc => hblank _ c (List.mem_reverse.mp hc)⟩
  rw [trimBlanks, ← List.reverse_append, List.takeWhile_append_dropWhile, List.reverse_reverse,
    List.takeWhile_append_dropWhile]

end Text

/-! ### Reading through one buffer -/

namespace FileHash

/-- What one read gives: no more than the buffer holds. -/
structure Piece where
  bytes : ByteArray
  fits : bytes.size ≤ bufferSize

/-- The buffer of the reads. -/
structure Buffer where
  bytes : ByteArray
  full : bytes.size = bufferSize

/-- A read is put at the buffer's start; behind it the buffer stays as it was. -/
def Buffer.fill (b : Buffer) (p : Piece) : Buffer where
  bytes := p.bytes ++ b.bytes.extract p.bytes.size bufferSize
  full := by
    have hfits := p.fits
    have hfull := b.full
    rw [ByteArray.size_append, ByteArray.size_extract]
    omega

/-- So many bytes from the buffer's start. -/
def Buffer.start (b : Buffer) (n : Nat) : ByteArray :=
  b.bytes.extract 0 n

/-- Nothing that an earlier read left behind is taken. -/
theorem Buffer.start_fill (b : Buffer) (p : Piece) : (b.fill p).start p.bytes.size = p.bytes :=
  ByteArray.extract_append_eq_left rfl

/-- The hash of a message, taken as a whole. -/
def ofWhole (message : List UInt8) : String :=
  String.ofList (Text.hexOfBytes (Sha256.digest message))

/-- The loop that hashes a file through a buffer, on what the reads so far have given: after each
read it takes as many bytes from the buffer as were read, and it ends with the first read that
gives nothing. It is still running if no read gave nothing. -/
def hashThrough (buffer : Buffer) (h : Sha256.Hasher) : List Piece → Option String
  | [] => none
  | p :: later =>
    if p.bytes.isEmpty then some (String.ofList (Text.hexOfBytes h.finish))
    else hashThrough (buffer.fill p) (h.absorb ((buffer.fill p).start p.bytes.size)) later

/-- **What the buffer held does not matter.** The loop takes what the reads give, up to the first
that gives nothing. -/
theorem hashThrough_eq (buffer : Buffer) (h : Sha256.Hasher) (given : List Piece) :
    hashThrough buffer h given = if given.any fun p => p.bytes.isEmpty then
      some (String.ofList (Text.hexOfBytes (h.absorbReads (given.map Piece.bytes)).finish))
    else none := by
  induction given generalizing buffer h with
  | nil => rfl
  | cons p later ih =>
    rw [hashThrough, List.map_cons, Sha256.Hasher.absorbReads, List.any_cons]
    by_cases hend : p.bytes.isEmpty = true
    · rw [hend, if_pos rfl, if_pos rfl, Bool.true_or, if_pos rfl]
    · rw [if_neg hend, if_neg hend, ih, Buffer.start_fill, Bool.eq_false_of_not_eq_true hend,
        Bool.false_or]

/-- **Pieces or the whole**, the hash is the same. -/
theorem ofReads_split {pieces rest : List ByteArray} (hsome : ∀ p ∈ pieces, p.isEmpty = false)
    (hend : ∀ p ∈ rest.head?, p.isEmpty = true) :
    ofReads (pieces ++ rest) = ofWhole (pieces.flatMap ByteArray.toList) := by
  have hstop (h : Sha256.Hasher) : h.absorbReads rest = h := by
    match rest with
    | [] => rfl
    | p :: later => rw [Sha256.Hasher.absorbReads, if_pos (hend p rfl)]
  rw [ofReads, Sha256.Hasher.ofReads, Sha256.Hasher.absorbReads_append hsome, hstop,
    Sha256.Hasher.finish_foldl, ofWhole]

/-! ### Reads of one mebibyte each -/

theorem length_toList (content : ByteArray) : content.toList.length = content.size := by
  rw [Text.toList_eq_data, Array.length_toList]
  rfl

/-- A piece of a byte array. -/
theorem toList_extract (content : ByteArray) (start count : Nat) :
    (content.extract start (start + count)).toList = (content.toList.drop start).take count := by
  rw [Text.toList_eq_data, Text.toList_eq_data, ByteArray.data_extract, Array.toList_extract,
    List.extract_eq_take_drop, Nat.add_sub_cancel_left]

theorem readsFrom_spec {content : ByteArray} {fuel start : Nat}
    (hfuel : content.size < start + fuel * bufferSize) :
    (∀ p ∈ readsFrom content fuel start, p.isEmpty = false) ∧
      (readsFrom content fuel start).flatMap ByteArray.toList = content.toList.drop start := by
  have hlength := length_toList content
  induction fuel generalizing start with
  | zero =>
    refine ⟨fun p hp => absurd hp List.not_mem_nil, (List.drop_eq_nil_iff.mpr ?_).symm⟩
    omega
  | succ fuel ih =>
    rw [readsFrom]
    split
    · rename_i hend
      exact ⟨fun p hp => absurd hp List.not_mem_nil, (List.drop_eq_nil_iff.mpr (by omega)).symm⟩
    · rename_i hmore
      have hfuel' : content.size < start + bufferSize + fuel * bufferSize := by
        rw [Nat.succ_mul] at hfuel
        omega
      obtain ⟨hsome, hrest⟩ := ih hfuel'
      have hone : (content.extract start (start + bufferSize)).isEmpty = false := by
        have hbuffer : 0 < bufferSize := by decide
        rw [ByteArray.isEmpty, ByteArray.size_extract, beq_eq_false_iff_ne]
        omega
      refine ⟨List.forall_mem_cons.mpr ⟨hone, hsome⟩, ?_⟩
      calc (content.extract start (start + bufferSize) ::
              readsFrom content fuel (start + bufferSize)).flatMap ByteArray.toList
          = (content.toList.drop start).take bufferSize ++
              (content.toList.drop start).drop bufferSize := by
            rw [List.flatMap_cons, hrest, toList_extract, List.drop_drop]
        _ = content.toList.drop start := List.take_append_drop _ _

/-- The hash of a file's content is that of the whole. -/
theorem ofContent_eq (content : ByteArray) : ofContent content = ofWhole content.toList := by
  have hbuffer : 0 < bufferSize := by decide
  have hfuel : content.size < 0 + (content.size / bufferSize + 1) * bufferSize := by
    rw [Nat.zero_add]
    exact Nat.lt_mul_of_div_lt (Nat.lt_succ_self _) hbuffer
  obtain ⟨hsome, hall⟩ := readsFrom_spec hfuel
  rw [ofContent, reads, ← List.append_nil (readsFrom _ _ _), ofReads_split hsome (by simp), hall,
    List.drop_zero]

/-! ### Reads that give less than they could -/

/-- What the first `n` reads give. -/
def firsts (answers : Nat → Piece) (n : Nat) : List Piece :=
  (List.range n).map answers

/-- The bytes of the first `n` reads. -/
def taken (answers : Nat → Piece) (n : Nat) : List UInt8 :=
  (firsts answers n).flatMap fun p => p.bytes.toList

theorem firsts_succ (answers : Nat → Piece) (n : Nat) :
    firsts answers (n + 1) = firsts answers n ++ [answers n] := by
  rw [firsts, firsts, List.range_succ, List.map_append, List.map_singleton]

theorem taken_succ (answers : Nat → Piece) (n : Nat) :
    taken answers (n + 1) = taken answers n ++ (answers n).bytes.toList := by
  rw [taken, firsts_succ, List.flatMap_append, List.flatMap_singleton, taken]

/-- How a file is read: each read goes on where the last one stopped and gives as many bytes as it
likes, but nothing only at the file's end. -/
structure IsReading (content : ByteArray) (answers : Nat → Piece) : Prop where
  next : ∀ n, taken answers n <+: content.toList
  ended : ∀ n, (answers n).bytes.isEmpty = true → taken answers n = content.toList

theorem le_length_taken {answers : Nat → Piece} {n : Nat}
    (hsome : ∀ k < n, (answers k).bytes.isEmpty = false) : n ≤ (taken answers n).length := by
  induction n with
  | zero => exact Nat.zero_le _
  | succ n ih =>
    have hone : (answers n).bytes.size ≠ 0 := beq_eq_false_iff_ne.mp (hsome n (Nat.lt_succ_self n))
    have hbefore := ih fun k hk => hsome k (Nat.lt_succ_of_lt hk)
    rw [taken_succ, List.length_append, length_toList]
    omega

/-- **The reads come to the end**, and before it they have given the file. -/
theorem IsReading.exists_end {content : ByteArray} {answers : Nat → Piece}
    (h : IsReading content answers) : ∃ n ≤ content.size,
      (∀ k < n, (answers k).bytes.isEmpty = false) ∧ (answers n).bytes.isEmpty = true ∧
      taken answers n = content.toList := by
  have hlength := length_toList content
  -- reads that all give something would give more than the file has
  have hsome : ∃ n ≤ content.size, (answers n).bytes.isEmpty = true := by
    by_contra hnone
    push Not at hnone
    have hmany : content.size + 1 ≤ (taken answers (content.size + 1)).length :=
      le_length_taken fun k hk => Bool.eq_false_of_not_eq_true (hnone k (Nat.le_of_lt_succ hk))
    have hfew := (h.next (content.size + 1)).length_le
    omega
  obtain ⟨n, ⟨hle, hend⟩, hfirst⟩ := Nat.findX hsome
  refine ⟨n, hle, fun k hk => ?_, hend, h.ended n hend⟩
  have hk' := hfirst k hk
  exact Bool.eq_false_of_not_eq_true fun hempty => hk' ⟨by omega, hempty⟩

theorem any_isEmpty_firsts {answers : Nat → Piece} {n k : Nat}
    (hsome : ∀ i < n, (answers i).bytes.isEmpty = false) (hend : (answers n).bytes.isEmpty = true) :
    ((firsts answers k).any fun p => p.bytes.isEmpty) = decide (n < k) := by
  rw [firsts, List.any_map, Bool.eq_iff_iff, List.any_eq_true, decide_eq_true_iff]
  refine ⟨fun ⟨i, hi, hempty⟩ => ?_, fun hlt => ⟨n, List.mem_range.mpr hlt, hend⟩⟩
  have hle : n ≤ i := by
    by_contra hlt
    exact Bool.false_ne_true ((hsome i (Nat.not_le.mp hlt)).symm.trans hempty)
  exact Nat.lt_of_le_of_lt hle (List.mem_range.mp hi)

theorem ofReads_firsts {answers : Nat → Piece} {n k : Nat}
    (hsome : ∀ i < n, (answers i).bytes.isEmpty = false) (hend : (answers n).bytes.isEmpty = true)
    (hlt : n < k) : ofReads ((firsts answers k).map Piece.bytes) = ofWhole (taken answers n) := by
  obtain ⟨m, rfl⟩ := Nat.exists_eq_add_of_lt hlt
  -- the reads that give something, the one that gives nothing, and those that nobody looks at
  have hsplit : firsts answers (n + m + 1) =
      firsts answers n ++ (answers n :: (List.range m).map fun i => answers (n + (i + 1))) := by
    rw [firsts, Nat.add_assoc, List.range_add, List.map_append, List.range_succ_eq_map]
    simp [firsts, Function.comp_def]
  rw [hsplit, List.map_append, ofReads_split, List.flatMap_map, taken]
  · intro p hp
    obtain ⟨q, hq, rfl⟩ := List.mem_map.mp hp
    obtain ⟨i, hi, rfl⟩ := List.mem_map.mp hq
    exact hsome i (List.mem_range.mp hi)
  · rintro p ⟨⟩
    exact hend

/-- Reads that give a file's pieces one after the other, then nothing. -/
theorem isReading_of_pieces {content : ByteArray} {pieces : List Piece} {nothing : Piece}
    (hnothing : nothing.bytes.toList = []) (hsome : ∀ p ∈ pieces, p.bytes.isEmpty = false)
    (hwhole : pieces.flatMap (fun p => p.bytes.toList) = content.toList) :
    IsReading content fun k => pieces.getD k nothing := by
  have htaken (n : Nat) : taken (fun k => pieces.getD k nothing) n =
      (pieces.take n).flatMap fun p => p.bytes.toList := by
    induction n with
    | zero => rfl
    | succ n ih =>
      rw [taken_succ, ih, List.take_add_one, List.flatMap_append, List.getD_eq_getElem?_getD]
      congr 1
      cases pieces[n]? with
      | none => exact hnothing
      | some p => exact (List.append_nil _).symm
  refine ⟨fun n => ?_, fun n hempty => ?_⟩
  · -- the first pieces are a start of all of them
    rw [htaken, ← hwhole]
    conv_rhs => rw [← List.take_append_drop n pieces, List.flatMap_append]
    exact List.prefix_append _ _
  · -- no piece is empty, so all of them have been read
    have hn : pieces.length ≤ n := by
      by_contra hlt
      have hlt := Nat.not_le.mp hlt
      rw [List.getD_eq_getElem?_getD, List.getElem?_eq_getElem hlt, Option.getD_some,
        hsome _ (List.getElem_mem hlt)] at hempty
      exact Bool.false_ne_true hempty
    rw [htaken, List.take_of_length_le hn, hwhole]

/-! ### The announced hash -/

/-- **A hash agrees** just if it spells the digest between blanks. -/
theorem agree_iff {announced : String} {message : List UInt8} :
    agree announced (ofWhole message) = true ↔ ∃ before core behind,
      announced.toList = before ++ (core ++ behind) ∧ (∀ c ∈ before, Text.isBlank c = true) ∧
      (∀ c ∈ behind, Text.isBlank c = true) ∧
      Text.SpellsBytes core (Sha256.digest message).toList := by
  rw [agree, ofWhole, String.toList_ofList, Text.equalIgnoringCase_hexOfBytes]
  constructor
  · intro h
    obtain ⟨before, behind, hall, hbefore, hbehind⟩ := Text.exists_padded announced.toList
    exact ⟨before, _, behind, hall, hbefore, hbehind, h⟩
  · rintro ⟨before, core, behind, hall, hbefore, hbehind, h⟩
    have hne : core ≠ [] := by
      rintro rfl
      have hsize := Sha256.size_digest message
      generalize hdigest : (Sha256.digest message).toList = bytes at h
      cases h
      rw [Text.toList_eq_data, Array.toList_eq_nil_iff] at hdigest
      rw [ByteArray.size, hdigest] at hsize
      cases hsize
    rw [hall, Text.trimBlanks_padded hbefore hbehind h.not_blank hne]
    exact h

/-- **A file's hash is that of the whole file**, however its reads split it and whatever the
buffer held before: the loop ends after at most as many reads as there are bytes, and one more,
and an announced hash agrees just if it spells the digest, between blanks and in letters of any
case. -/
theorem pieces_hash_whole {content : ByteArray} {answers : Nat → Piece}
    (h : IsReading content answers) (buffer : Buffer) :
    (∃ n ≤ content.size, ∀ k,
      hashThrough buffer .empty (firsts answers k) =
        (if n < k then some (ofWhole content.toList) else none) ∧
      (n < k → ofReads ((firsts answers k).map Piece.bytes) = ofWhole content.toList)) ∧
    ofContent content = ofWhole content.toList ∧
    ∀ announced : String, agree announced (ofContent content) = true ↔ ∃ before core behind,
      announced.toList = before ++ (core ++ behind) ∧ (∀ c ∈ before, Text.isBlank c = true) ∧
      (∀ c ∈ behind, Text.isBlank c = true) ∧
      Text.SpellsBytes core (Sha256.digest content.toList).toList := by
  refine ⟨?_, ofContent_eq content, fun announced => ?_⟩
  · obtain ⟨n, hle, hsome, hend, hall⟩ := h.exists_end
    rw [← hall]
    refine ⟨n, hle, fun k => ⟨?_, ofReads_firsts hsome hend⟩⟩
    rw [hashThrough_eq, any_isEmpty_firsts hsome hend]
    by_cases hlt : n < k
    · rw [if_pos hlt, if_pos (decide_eq_true hlt), ← ofReads_firsts hsome hend hlt]
      rfl
    · rw [if_neg hlt, decide_eq_false hlt]
      rfl
  · rw [ofContent_eq]
    exact agree_iff

/-- The bytes of three letters. -/
def letters : ByteArray :=
  [97, 98, 99].toByteArray

/-- Reads that give one letter at a time. -/
def oneByOne (k : Nat) : Piece :=
  [⟨[97].toByteArray, by decide⟩, ⟨[98].toByteArray, by decide⟩,
    ⟨[99].toByteArray, by decide⟩].getD k ⟨.empty, by decide⟩

/-- A buffer that is clear. -/
def clear : Buffer where
  bytes := (List.replicate bufferSize 0).toByteArray
  full := by rw [List.size_toByteArray, List.length_replicate]

theorem letters_hash_whole : IsReading letters oneByOne ∧
    (∃ n ≤ 3, ∀ k, n < k →
      hashThrough clear .empty (firsts oneByOne k) = some (ofContent letters)) ∧
    agree " BA7816BF8F01CFEA414140DE5DAE2223B00361A396177A9CB410FF61F20015AD\n"
      (ofContent letters) = true := by
  have hreading : IsReading letters oneByOne :=
    isReading_of_pieces (by decide +kernel) (by decide) (by decide +kernel)
  obtain ⟨⟨n, hle, hends⟩, hwhole, -⟩ := pieces_hash_whole hreading clear
  refine ⟨hreading, ⟨n, hle, fun k hk => ?_⟩, ?_⟩
  · rw [(hends k).1, if_pos hk, hwhole]
  · rw [hwhole]
    decide +kernel

end FileHash

end FileReceiver
