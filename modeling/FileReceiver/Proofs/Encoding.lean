/-
# Texts and their bytes

A text travels as its bytes in UTF-8 and is read back from them. A character
of ASCII is one byte, its code, so that what is written with ASCII characters
only can be followed character by character in its bytes. With percent
encoding the bytes of any text can be written so, and none of the characters
that cut a target into pieces is used for it (`Percent.encode_plain`).

Key definitions: `Text.encoded`.
Key theorems: `Text.toList_toUTF8`, `Text.fromUTF8?_bytes`,
`Text.encoded_ascii`, `Text.hexValue?_hexDigit`, `Percent.decode_encode`,
`Percent.decodeText?_encode`.
-/
import FileReceiver.Http.Percent

namespace FileReceiver

namespace Text

/-- The bytes of a byte array in order. -/
theorem toList_eq_data (bytes : ByteArray) : bytes.toList = bytes.data.toList := by
  have hloop : ∀ (n i : Nat) (soFar : List UInt8), bytes.size - i = n →
      ByteArray.toList.loop bytes i soFar = soFar.reverse ++ bytes.data.toList.drop i := by
    intro n
    induction n with
    | zero =>
      intro i soFar hn
      have hend : ¬ i < bytes.size := by omega
      have hdrop : bytes.data.toList.drop i = [] := by
        rw [List.drop_eq_nil_iff, Array.length_toList]
        exact Nat.not_lt.mp hend
      rw [ByteArray.toList.loop, if_neg hend, hdrop, List.append_nil]
    | succ n ih =>
      intro i soFar hn
      have hlt : i < bytes.size := by omega
      have hlength : i < bytes.data.toList.length := by rwa [Array.length_toList]
      have hbyte : bytes.get! i = bytes.data.toList[i] := by
        rw [ByteArray.get!, Array.getElem_toList]
        exact getElem!_pos bytes.data i hlt
      rw [ByteArray.toList.loop, if_pos hlt, ih (i + 1) _ (by omega), List.reverse_cons, hbyte,
        List.append_assoc, List.singleton_append, List.getElem_cons_drop]
  exact hloop _ 0 [] rfl

/-- The bytes of characters. -/
def encoded (s : List Char) : List UInt8 :=
  s.flatMap String.utf8EncodeChar

@[simp] theorem encoded_nil : encoded [] = [] := rfl

theorem encoded_cons (c : Char) (s : List Char) :
    encoded (c :: s) = String.utf8EncodeChar c ++ encoded s := rfl

@[simp] theorem encoded_append (s t : List Char) : encoded (s ++ t) = encoded s ++ encoded t :=
  List.flatMap_append

/-- The bytes of a text are those of its characters. -/
theorem toList_toUTF8 (s : String) : s.toUTF8.toList = encoded s.toList := by
  rw [toList_eq_data, String.toUTF8_eq_toByteArray, ← String.utf8Encode_toList, List.utf8Encode,
    List.toList_data_toByteArray, encoded]

theorem toByteArray_bytes (s : String) : s.toUTF8.toList.toByteArray = s.toByteArray := by
  rw [toList_toUTF8, ← String.utf8Encode_toList, List.utf8Encode, encoded]

/-- **A text is read back from its bytes.** -/
theorem fromUTF8?_bytes (s : String) : String.fromUTF8? s.toUTF8.toList.toByteArray = some s := by
  rw [toByteArray_bytes, String.fromUTF8?, dif_pos s.isValidUTF8]
  rfl

theorem bytes_eq_nil {s : String} : s.toUTF8.toList = [] ↔ s = "" := by
  refine ⟨fun h => ?_, fun h => by rw [h, toList_toUTF8]; rfl⟩
  rw [← String.toByteArray_inj, ← toByteArray_bytes s, h]
  rfl

/-! ### ASCII -/

theorem utf8EncodeChar_ascii {c : Char} (h : c.toNat < 128) :
    String.utf8EncodeChar c = [c.toUInt8] := by
  have hsize : c.utf8Size = 1 :=
    Char.utf8Size_eq_one_iff.mpr (UInt32.le_iff_toNat_le.mpr (Nat.le_of_lt_succ h))
  rw [String.utf8EncodeChar_eq_singleton hsize]
  rfl

theorem encoded_cons_ascii {c : Char} (h : c.toNat < 128) (s : List Char) :
    encoded (c :: s) = c.toUInt8 :: encoded s := by
  rw [encoded_cons, utf8EncodeChar_ascii h, List.singleton_append]

theorem encoded_ascii {s : List Char} (h : ∀ c ∈ s, c.toNat < 128) :
    encoded s = s.map Char.toUInt8 := by
  induction s with
  | nil => rfl
  | cons c s ih =>
    rw [encoded_cons_ascii (h c List.mem_cons_self),
      ih fun c' hc' => h c' (List.mem_cons_of_mem _ hc'), List.map_cons]

/-- No byte of another character is one of ASCII. -/
theorem utf8EncodeChar_high {c : Char} (h : 128 ≤ c.toNat) :
    ∀ b ∈ String.utf8EncodeChar c, 128 ≤ b.toNat := by
  change 128 ≤ c.val.toNat at h
  intro b hb
  unfold String.utf8EncodeChar at hb
  dsimp only at hb
  rw [if_neg (by omega)] at hb
  repeat' split at hb
  all_goals
    simp only [List.mem_cons, List.not_mem_nil, or_false] at hb
    rcases hb with rfl | rfl | rfl | rfl <;> simp only [UInt8.toNat_ofNat'] <;> omega

theorem toNat_toUInt8 {c : Char} (h : c.toNat < 128) : c.toUInt8.toNat = c.toNat := by
  rw [Char.toUInt8, UInt32.toNat_toUInt8]
  exact Nat.mod_eq_of_lt (by change c.toNat < _; omega)

theorem ofNat_toUInt8 {c : Char} (h : c.toNat < 128) : Char.ofNat c.toUInt8.toNat = c := by
  rw [toNat_toUInt8 h, Char.ofNat_toNat]

theorem toUInt8_inj {c c' : Char} (h : c.toNat < 128) (h' : c'.toNat < 128)
    (heq : c.toUInt8 = c'.toUInt8) : c = c' := by
  rw [← ofNat_toUInt8 h, heq, ofNat_toUInt8 h']

theorem toNat_ofNat {n : Nat} (h : n < 128) : (Char.ofNat n).toNat = n := by
  have hvalid : n.isValidChar := Or.inl (by omega)
  rw [Char.ofNat, dif_pos hvalid]
  rfl

theorem toUInt8_ofNat {b : UInt8} (h : b.toNat < 128) : (Char.ofNat b.toNat).toUInt8 = b := by
  have hcode := toNat_ofNat h
  rw [← UInt8.toNat_inj, toNat_toUInt8 (by omega), hcode]

/-- Bytes of ASCII, one character each, are the text that they encode. -/
theorem ofList_bytes {s : String} (h : ∀ b ∈ s.toUTF8.toList, b.toNat < 128) :
    String.ofList (s.toUTF8.toList.map fun b => Char.ofNat b.toNat) = s := by
  have hascii : ∀ c ∈ s.toUTF8.toList.map fun b => Char.ofNat b.toNat, c.toNat < 128 := by
    intro c hc
    obtain ⟨b, hb, rfl⟩ := List.mem_map.mp hc
    have hb := h b hb
    rwa [toNat_ofNat hb]
  have hsame : (s.toUTF8.toList.map fun b => Char.ofNat b.toNat).map Char.toUInt8 =
      s.toUTF8.toList := by
    rw [List.map_map]
    exact (List.map_congr_left fun b hb => toUInt8_ofNat (h b hb)).trans (List.map_id' _)
  rw [← String.toByteArray_inj, String.toByteArray_ofList, List.utf8Encode, ← encoded,
    encoded_ascii hascii, hsame, toByteArray_bytes]

/-! ### Hexadecimal digits -/

theorem hexValue?_hexDigit : ∀ {n : Nat}, n < 16 → hexValue? (hexDigit n) = some n := by
  decide

/-- The hexadecimal digits are characters of ASCII. -/
theorem hexValue?_ascii {c : Char} {v : Nat} (h : hexValue? c = some v) : c.toNat < 128 := by
  have hle : ∀ c' : Char, c ≤ c' → c.toNat ≤ c'.toNat := fun c' hc => hc
  unfold hexValue? at h
  split at h
  · rename_i hdigit
    have hhigh := hle '9' (of_decide_eq_true (Bool.and_eq_true_iff.mp hdigit).2)
    exact Nat.lt_of_le_of_lt hhigh (by decide)
  split at h
  · rename_i hlower
    have hhigh := hle 'f' (of_decide_eq_true (Bool.and_eq_true_iff.mp hlower).2)
    exact Nat.lt_of_le_of_lt hhigh (by decide)
  split at h
  · rename_i hupper
    have hhigh := hle 'F' (of_decide_eq_true (Bool.and_eq_true_iff.mp hupper).2)
    exact Nat.lt_of_le_of_lt hhigh (by decide)
  · cases h

theorem hexDigit_plain : ∀ {n : Nat}, n < 16 →
    (hexDigit n).toNat < 128 ∧ hexDigit n ∉ ['/', '?', '#'] := by
  decide

end Text

/-! ### Percent encoding -/

namespace Percent

theorem isUnreserved_plain {b : UInt8} (h : isUnreserved b = true) :
    b.toNat < 128 ∧ b ≠ '%'.toUInt8 ∧ Char.ofNat b.toNat ∉ ['/', '?', '#'] := by
  have hall : ∀ n < 256, isUnreserved (UInt8.ofNat n) = true →
      n < 128 ∧ UInt8.ofNat n ≠ '%'.toUInt8 ∧ Char.ofNat n ∉ ['/', '?', '#'] := by
    decide +kernel
  have hb := hall b.toNat b.toNat_lt
  rw [UInt8.ofNat_toNat] at hb
  exact hb h

/-- Percent encoding uses ASCII characters only, and none that cuts a target. -/
theorem encode_plain {bytes : List UInt8} :
    ∀ c ∈ encode bytes, c.toNat < 128 ∧ c ∉ ['/', '?', '#'] := by
  intro c hc
  obtain ⟨b, -, hc⟩ := List.mem_flatMap.mp hc
  split at hc
  · rename_i hfree
    obtain ⟨hascii, -, hplain⟩ := isUnreserved_plain hfree
    rw [List.mem_singleton.mp hc]
    refine ⟨?_, hplain⟩
    rwa [Text.toNat_ofNat hascii]
  · have hb := b.toNat_lt
    have hhigh : b.toNat / 16 < 16 := by omega
    have hlow : b.toNat % 16 < 16 := by omega
    simp only [List.mem_cons, List.not_mem_nil, or_false] at hc
    rcases hc with rfl | rfl | rfl
    · decide
    · exact Text.hexDigit_plain hhigh
    · exact Text.hexDigit_plain hlow

theorem decode_cons {b : UInt8} (h : b ≠ '%'.toUInt8) (rest : List UInt8) :
    decode (b :: rest) = b :: decode rest := by
  match rest with
  | [] => rfl
  | [_] => rfl
  | _ :: _ :: _ => rw [decode, if_neg h]

theorem decode_percent {high low : Nat} (hhigh : high < 16) (hlow : low < 16)
    (rest : List UInt8) :
    decode ('%'.toUInt8 :: (Text.hexDigit high).toUInt8 :: (Text.hexDigit low).toUInt8 :: rest) =
      (high * 16 + low).toUInt8 :: decode rest := by
  rw [decode, if_pos rfl, Text.ofNat_toUInt8 (Text.hexDigit_plain hhigh).1,
    Text.ofNat_toUInt8 (Text.hexDigit_plain hlow).1, Text.hexValue?_hexDigit hhigh,
    Text.hexValue?_hexDigit hlow]

/-- **Percent encoding is undone by decoding.** -/
theorem decode_encode (bytes : List UInt8) :
    decode ((encode bytes).map Char.toUInt8) = bytes := by
  induction bytes with
  | nil => rfl
  | cons b bytes ih =>
    rw [encode, List.flatMap_cons, List.map_append]
    change decode (_ ++ (encode bytes).map Char.toUInt8) = _
    by_cases hfree : isUnreserved b = true
    · obtain ⟨hascii, hpercent, -⟩ := isUnreserved_plain hfree
      rw [if_pos hfree, List.map_singleton, List.singleton_append, Text.toUInt8_ofNat hascii,
        decode_cons hpercent, ih]
    · have hb := b.toNat_lt
      have hsplit : (b.toNat / 16 * 16 + b.toNat % 16).toUInt8 = b := by
        rw [Nat.div_add_mod']
        exact UInt8.ofNat_toNat
      rw [if_neg hfree]
      change decode ('%'.toUInt8 :: _ :: _ :: _) = _
      rw [decode_percent (by omega) (by omega), hsplit]
      exact congrArg _ ih

/-- The segment of a text. -/
theorem decodeText?_encode (s : String) :
    decodeText? (String.ofList (encode s.toUTF8.toList)) = some s := by
  have hbytes : (String.ofList (encode s.toUTF8.toList)).toUTF8.toList =
      (encode s.toUTF8.toList).map Char.toUInt8 := by
    rw [Text.toList_toUTF8, String.toList_ofList,
      Text.encoded_ascii fun c hc => (encode_plain c hc).1]
  rw [decodeText?, hbytes, decode_encode, Text.fromUTF8?_bytes]

theorem encode_eq_nil {bytes : List UInt8} : encode bytes = [] ↔ bytes = [] := by
  cases bytes with
  | nil => simp [encode]
  | cons b bytes =>
    rw [encode, List.flatMap_cons]
    split <;> simp

end Percent

end FileReceiver
