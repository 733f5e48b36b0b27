/-
# Tokens are read

A value that is neither a list nor an object is read as what its characters
denote, whatever follows, as long as it does not go on with a number
(`Stops`). A text has many spellings (`Spells`): a character may stand for
itself, unless it is a quote, a backslash or a control character, and it may
be escaped by a letter or by its code. The spelling that is written is one of
them. Of the numbers, the natural ones that fit 64 bits are looked at here,
the only ones that a record has.

Key definitions: `Json.Spells`, `Json.Stops`, `Json.Value.IsScalar`,
`Json.Denotes`.
Key theorems: `Json.readString_spelled`, `Json.readNumber_back`,
`Json.readScalar_denoted`, `Json.denotes_scalarChars`.
-/
import FileReceiver.Json.Printer
import FileReceiver.Json.Reader
import FileReceiver.Proofs.Encoding

namespace FileReceiver.Json

open Text (encoded)

/-! ### Strings -/

variable {state next : StringState} {b : UInt8} {text rest : List UInt8}

theorem readStringBytes_step {added : List UInt8} (hend : state ≠ .text ∨ b ≠ code '"')
    (h : state.step b = .ok (next, added)) :
    readStringBytes state text (b :: rest) = readStringBytes next (added.reverse ++ text) rest := by
  rw [readStringBytes, if_neg fun hboth => hend.elim (absurd hboth.1) (absurd hboth.2), h]

/-- Bytes that mean themselves go into the text as they are. -/
theorem readStringBytes_plain {bytes : List UInt8}
    (h : ∀ b ∈ bytes, b ≠ code '"' ∧ b ≠ code '\\' ∧ ¬ b < 0x20) (text : List UInt8) :
    readStringBytes .text text (bytes ++ rest) =
      readStringBytes .text (bytes.reverse ++ text) rest := by
  induction bytes generalizing text with
  | nil => rfl
  | cons b bytes ih =>
    obtain ⟨hquote, hslash, hcontrol⟩ := h b List.mem_cons_self
    have hstep : StringState.text.step b = .ok (.text, [b]) := by
      simp only [StringState.step, if_neg hslash, if_neg hcontrol]
    rw [List.cons_append, readStringBytes_step (Or.inr hquote) hstep,
      ih fun b' hb' => h b' (List.mem_cons_of_mem _ hb'), List.reverse_singleton,
      List.reverse_cons, List.append_assoc]

theorem readStringBytes_backslash :
    readStringBytes .text text (code '\\' :: rest) = readStringBytes .escape text rest := by
  have hstep : StringState.text.step (code '\\') = .ok (.escape, []) := rfl
  exact readStringBytes_step (Or.inr (by decide)) hstep

/-- An escape of one letter. -/
theorem readStringBytes_escape {plain : UInt8} (hu : b ≠ code 'u')
    (h : escapedByte? b = some plain) :
    readStringBytes .text text (code '\\' :: b :: rest) =
      readStringBytes .text (plain :: text) rest := by
  have hstep : StringState.escape.step b = .ok (.text, [plain]) := by
    simp only [StringState.step, if_neg hu, h]
  rw [readStringBytes_backslash, readStringBytes_step (Or.inl (by simp)) hstep,
    List.reverse_singleton, List.singleton_append]

/-- The number that hexadecimal digits of either case write. -/
def hexCode? (digits : List Char) : Option Nat :=
  digits.foldlM (fun n c => (Text.hexValue? c).map (n * 16 + ·)) 0

theorem hexCode?_four {a b c d : Char} {n : Nat} (h : hexCode? [a, b, c, d] = some n) :
    ∃ i j k l, Text.hexValue? a = some i ∧ Text.hexValue? b = some j ∧
      Text.hexValue? c = some k ∧ Text.hexValue? d = some l ∧
      n = (((0 * 16 + i) * 16 + j) * 16 + k) * 16 + l := by
  simp only [hexCode?, List.foldlM_cons, List.foldlM_nil, Option.bind_eq_bind,
    Option.bind_eq_some_iff, Option.map_eq_some_iff, Option.pure_def, Option.some.injEq] at h
  obtain ⟨-, ⟨i, hi, rfl⟩, -, ⟨j, hj, rfl⟩, -, ⟨k, hk, rfl⟩, -, ⟨l, hl, rfl⟩, rfl⟩ := h
  exact ⟨i, j, k, l, hi, hj, hk, hl, rfl⟩

/-- A digit of an escape that is not the last one. -/
theorem readStringBytes_digit {c : Char} {v value left : Nat} {high : Option Nat}
    (h : Text.hexValue? c = some v) :
    readStringBytes (.hex (left + 1) (some value) high) text (code c :: rest) =
      readStringBytes (.hex left (some (value * 16 + v)) high) text rest := by
  have hstep : (StringState.hex (left + 1) (some value) high).step (code c) =
      .ok (.hex left (some (value * 16 + v)) high, []) := by
    simp only [StringState.step, code, Text.ofNat_toUInt8 (Text.hexValue?_ascii h), h]
    rfl
  rw [readStringBytes_step (Or.inl (by simp)) hstep, List.reverse_nil, List.nil_append]

/-- The last digit of an escape. -/
theorem readStringBytes_lastDigit {c : Char} {v value : Nat} {high : Option Nat}
    {added : List UInt8} (h : Text.hexValue? c = some v)
    (hclose : closeHex (value * 16 + v) high = .ok (next, added)) :
    readStringBytes (.hex 0 (some value) high) text (code c :: rest) =
      readStringBytes next (added.reverse ++ text) rest := by
  have hstep : (StringState.hex 0 (some value) high).step (code c) = .ok (next, added) := by
    rw [← hclose]
    simp only [StringState.step, code, Text.ofNat_toUInt8 (Text.hexValue?_ascii h), h]
    rfl
  rw [readStringBytes_step (Or.inl (by simp)) hstep]

/-- The four digits of an escape. -/
theorem readStringBytes_code {a b c d : Char} {n : Nat} {high : Option Nat} {added : List UInt8}
    (h : hexCode? [a, b, c, d] = some n) (hclose : closeHex n high = .ok (next, added))
    (w : List Char) :
    readStringBytes (.hex 3 (some 0) high) text (encoded (a :: b :: c :: d :: w) ++ rest) =
      readStringBytes next (added.reverse ++ text) (encoded w ++ rest) := by
  obtain ⟨i, j, k, l, hi, hj, hk, hl, rfl⟩ := hexCode?_four h
  rw [Text.encoded_cons_ascii (Text.hexValue?_ascii hi),
    Text.encoded_cons_ascii (Text.hexValue?_ascii hj),
    Text.encoded_cons_ascii (Text.hexValue?_ascii hk),
    Text.encoded_cons_ascii (Text.hexValue?_ascii hl)]
  change readStringBytes _ _ (code a :: code b :: code c :: code d :: (encoded w ++ rest)) = _
  rw [readStringBytes_digit hi, readStringBytes_digit hj, readStringBytes_digit hk,
    readStringBytes_lastDigit hl hclose]

/-- The characters that have an escape of one letter, with the letter. -/
def letterEscapes : List (Char × Char) :=
  [('"', '"'), ('\\', '\\'), ('/', '/'), ('\x08', 'b'), ('\x09', 't'), ('\x0a', 'n'), ('\x0c', 'f'),
    ('\x0d', 'r')]

theorem letterEscapes_back : ∀ e ∈ letterEscapes, e.2.toNat < 128 ∧ code e.2 ≠ code 'u' ∧
    escapedByte? (code e.2) = some e.1.toUInt8 ∧ String.utf8EncodeChar e.1 = [e.1.toUInt8] := by
  decide

/-- What may stand between the quotes of a string, and the text that it means: characters that mean
themselves, escapes of one letter, and escapes of four hexadecimal digits, two of them for a
character that needs a surrogate pair. -/
inductive Spells : List Char → List Char → Prop
  | nil : Spells [] []
  | plain {c : Char} {w s : List Char} (hquote : c ≠ '"') (hslash : c ≠ '\\')
      (hcontrol : ¬ c.toNat < 0x20) (h : Spells w s) : Spells (c :: w) (c :: s)
  | letter {c l : Char} {w s : List Char} (hletter : (c, l) ∈ letterEscapes) (h : Spells w s) :
      Spells ('\\' :: l :: w) (c :: s)
  | code {a b c d : Char} {n : Nat} {w s : List Char} (hcode : hexCode? [a, b, c, d] = some n)
      (hplain : ¬ (0xD800 ≤ n ∧ n ≤ 0xDFFF)) (h : Spells w s) :
      Spells ('\\' :: 'u' :: a :: b :: c :: d :: w) (Char.ofNat n :: s)
  | pair {a b c d a' b' c' d' : Char} {high low : Nat} {w s : List Char}
      (hhigh : hexCode? [a, b, c, d] = some high) (hhigh' : 0xD800 ≤ high ∧ high ≤ 0xDBFF)
      (hlow : hexCode? [a', b', c', d'] = some low) (hlow' : 0xDC00 ≤ low ∧ low ≤ 0xDFFF)
      (h : Spells w s) :
      Spells ('\\' :: 'u' :: a :: b :: c :: d :: '\\' :: 'u' :: a' :: b' :: c' :: d' :: w)
        (Char.ofNat (0x10000 + (high - 0xD800) * 0x400 + (low - 0xDC00)) :: s)

/-- A character that is not escaped has no byte that means anything else. -/
theorem utf8EncodeChar_unescaped {c : Char} (hquote : c ≠ '"') (hslash : c ≠ '\\')
    (hcontrol : ¬ c.toNat < 0x20) :
    ∀ b ∈ String.utf8EncodeChar c, b ≠ code '"' ∧ b ≠ code '\\' ∧ ¬ b < 0x20 := by
  intro b hb
  by_cases hascii : c.toNat < 128
  · rw [Text.utf8EncodeChar_ascii hascii, List.mem_singleton] at hb
    subst hb
    refine ⟨fun heq => hquote (Text.toUInt8_inj hascii (by decide) heq),
      fun heq => hslash (Text.toUInt8_inj hascii (by decide) heq), fun hlow => hcontrol ?_⟩
    rwa [UInt8.lt_iff_toNat_lt, Text.toNat_toUInt8 hascii] at hlow
  · have hhigh := Text.utf8EncodeChar_high (Nat.le_of_not_lt hascii) b hb
    refine ⟨?_, ?_, fun hlow => ?_⟩
    · rintro rfl
      exact absurd hhigh (by decide)
    · rintro rfl
      exact absurd hhigh (by decide)
    · have hlow : b.toNat < 0x20 := UInt8.lt_iff_toNat_lt.mp hlow
      omega

/-- The start of an escape of four digits. -/
theorem readStringBytes_backslash_u (w : List Char) :
    readStringBytes .text text (encoded ('\\' :: 'u' :: w) ++ rest) =
      readStringBytes (.hex 3 (some 0) none) text (encoded w ++ rest) := by
  have hu : StringState.escape.step (code 'u') = .ok (.hex 3 (some 0) none, []) := rfl
  rw [Text.encoded_cons_ascii (by decide), Text.encoded_cons_ascii (by decide)]
  change readStringBytes _ _ (code '\\' :: code 'u' :: (encoded w ++ rest)) = _
  rw [readStringBytes_backslash, readStringBytes_step (Or.inl (by simp)) hu, List.reverse_nil,
    List.nil_append]

/-- The start of the second escape of a surrogate pair. -/
theorem readStringBytes_pair_u (high : Nat) (w : List Char) :
    readStringBytes (.pair high) text (encoded ('\\' :: 'u' :: w) ++ rest) =
      readStringBytes (.hex 3 (some 0) (some high)) text (encoded w ++ rest) := by
  have hslash : (StringState.pair high).step (code '\\') = .ok (.pairEscape high, []) := rfl
  have hu : (StringState.pairEscape high).step (code 'u') =
      .ok (.hex 3 (some 0) (some high), []) := rfl
  rw [Text.encoded_cons_ascii (by decide), Text.encoded_cons_ascii (by decide)]
  change readStringBytes _ _ (code '\\' :: code 'u' :: (encoded w ++ rest)) = _
  rw [readStringBytes_step (Or.inl (by simp)) hslash, readStringBytes_step (Or.inl (by simp)) hu]
  rfl

/-- **What spells a text is read as the text.** -/
theorem readStringBytes_spelled {w s : List Char} (h : Spells w s) (text rest : List UInt8) :
    readStringBytes .text text (encoded w ++ rest) =
      readStringBytes .text ((encoded s).reverse ++ text) rest := by
  induction h generalizing text with
  | nil => rfl
  | plain hquote hslash hcontrol h ih =>
    rw [Text.encoded_cons, List.append_assoc,
      readStringBytes_plain (utf8EncodeChar_unescaped hquote hslash hcontrol), ih,
      Text.encoded_cons, List.reverse_append, List.append_assoc]
  | letter hletter h ih =>
    obtain ⟨hascii, hu, hplain, hchar⟩ := letterEscapes_back _ hletter
    rw [Text.encoded_cons_ascii (by decide), Text.encoded_cons_ascii hascii, Text.encoded_cons,
      hchar, List.reverse_append, List.append_assoc]
    exact (readStringBytes_escape hu hplain).trans (ih _)
  | code hcode hplain h ih =>
    rename_i n _ _
    have hclose : closeHex n none = .ok (.text, encodeCodePoint n) := by
      simp only [closeHex]
      rw [if_neg (by omega), if_neg (by omega)]
    rw [readStringBytes_backslash_u, readStringBytes_code hcode hclose, ih, Text.encoded_cons,
      List.reverse_append, List.append_assoc]
    rfl
  | pair hhigh hhigh' hlow hlow' h ih =>
    rename_i high low _ _
    have hfirst : closeHex high none = .ok (.pair high, []) := by
      simp only [closeHex]
      rw [if_neg (by omega), if_pos hhigh']
    have hsecond : closeHex low (some high) =
        .ok (.text, encodeCodePoint (0x10000 + (high - 0xD800) * 0x400 + (low - 0xDC00))) := by
      simp only [closeHex]
      rw [if_pos hlow']
    rw [readStringBytes_backslash_u, readStringBytes_code hhigh hfirst, readStringBytes_pair_u,
      readStringBytes_code hlow hsecond, ih, Text.encoded_cons, List.reverse_append,
      List.append_assoc]
    rfl

/-- **A string is read**, up to its closing quote, as the text that it spells. -/
theorem readString_spelled {w : List Char} {s : String} (h : Spells w s.toList)
    (rest : List UInt8) : readString (encoded w ++ code '"' :: rest) = .ok (s, rest) := by
  have hbytes : readStringBytes .text [] (encoded w ++ code '"' :: rest) =
      .ok (s.toUTF8.toList, rest) := by
    rw [readStringBytes_spelled h, readStringBytes, if_pos ⟨rfl, rfl⟩, List.append_nil,
      List.reverse_reverse, Text.toList_toUTF8]
  unfold readString
  rw [hbytes]
  simp only [bind, Except.bind, decodeText?, Text.fromUTF8?_bytes]

theorem Spells.append {w w' s s' : List Char} (h : Spells w s) (h' : Spells w' s') :
    Spells (w ++ w') (s ++ s') := by
  induction h with
  | nil => exact h'
  | plain hquote hslash hcontrol _ ih => exact .plain hquote hslash hcontrol ih
  | letter hletter _ ih => exact .letter hletter ih
  | code hcode hplain _ ih => exact .code hcode hplain ih
  | pair hhigh hhigh' hlow hlow' _ ih => exact .pair hhigh hhigh' hlow hlow' ih

/-- What is written for a character spells it. -/
theorem spells_escapedChar (c : Char) : Spells (escapedChar c) [c] := by
  unfold escapedChar
  split
  iterate 7 exact .letter (by decide) .nil
  rename_i hquote hslash _ _ _ _ _
  split
  · rename_i hcontrol
    have hcode : hexCode? ['0', '0', Text.hexDigit (c.toNat / 16), Text.hexDigit (c.toNat % 16)] =
        some c.toNat := by
      have hhigh := Text.hexValue?_hexDigit (show c.toNat / 16 < 16 by omega)
      have hlow := Text.hexValue?_hexDigit (show c.toNat % 16 < 16 by omega)
      have hzero : Text.hexValue? '0' = some 0 := rfl
      have hvalue :
          (((0 * 16 + 0) * 16 + 0) * 16 + c.toNat / 16) * 16 + c.toNat % 16 = c.toNat := by
        omega
      simp only [hexCode?, List.foldlM_cons, List.foldlM_nil, hzero, hhigh, hlow]
      exact congrArg some hvalue
    have hspells := Spells.code hcode (by omega) .nil
    rwa [Char.ofNat_toNat] at hspells
  · rename_i hcontrol
    exact .plain hquote hslash hcontrol .nil

/-- What is written for a text spells it. -/
theorem spells_escaped (s : List Char) : Spells (s.flatMap escapedChar) s := by
  induction s with
  | nil => exact .nil
  | cons c s ih => exact (spells_escapedChar c).append ih

/-! ### Numbers -/

/-- What follows a number does not go on with it. -/
def Stops : List UInt8 → Prop
  | [] => True
  | b :: _ => isDigitByte b = false ∧ b ≠ code '.' ∧ b ≠ code 'e' ∧ b ≠ code 'E'

theorem Stops.startsWithDigit (h : Stops rest) : startsWithDigit rest = false := by
  cases rest with
  | nil => rfl
  | cons b rest => exact h.1

theorem Stops.readNumberTail (h : Stops rest) (negative : Bool) (significand : Nat) :
    readNumberTail negative significand rest = .ok (integerNumber negative significand, rest) := by
  cases rest with
  | nil => rfl
  | cons b rest =>
    obtain ⟨-, hpoint, he, hE⟩ := h
    simp only [Json.readNumberTail]
    rw [if_neg hpoint, if_neg (not_or.mpr ⟨he, hE⟩)]

/-- The number that digits write behind another one. -/
def digitsValue (soFar : Nat) (digits : List UInt8) : Nat :=
  digits.foldl (fun total b => total * 10 + digitOf b) soFar

theorem le_digitsValue (soFar : Nat) (digits : List UInt8) : soFar ≤ digitsValue soFar digits := by
  induction digits generalizing soFar with
  | nil => exact Nat.le_refl _
  | cons b digits ih =>
    have hstep : soFar ≤ soFar * 10 + digitOf b := by omega
    exact Nat.le_trans hstep (ih _)

theorem digitsValue_concat (soFar : Nat) (digits : List UInt8) (b : UInt8) :
    digitsValue soFar (digits ++ [b]) = digitsValue soFar digits * 10 + digitOf b := by
  rw [digitsValue, List.foldl_append]
  rfl

/-- All digits are taken if their number fits. -/
theorem gatherDigits_all {digits : List UInt8} {soFar : Nat} (taken : Nat)
    (hdigits : ∀ b ∈ digits, isDigitByte b = true)
    (hfits : digitsValue soFar digits < significandLimit) (hrest : startsWithDigit rest = false) :
    ∃ count,
      gatherDigits soFar taken (digits ++ rest) = (digitsValue soFar digits, count, rest) := by
  induction digits generalizing soFar taken with
  | nil =>
    refine ⟨taken, ?_⟩
    cases rest with
    | nil => rfl
    | cons b rest =>
      change isDigitByte b = false at hrest
      simp [gatherDigits, hrest, digitsValue]
  | cons b digits ih =>
    have hsmall : soFar * 10 + digitOf b < significandLimit :=
      Nat.lt_of_le_of_lt (le_digitsValue _ digits) hfits
    have hstep := ih (taken + 1) (fun b' hb' => hdigits b' (List.mem_cons_of_mem _ hb')) hfits
    rw [List.cons_append, gatherDigits, if_pos ⟨hdigits b List.mem_cons_self, hsmall⟩]
    exact hstep

theorem digitChar_back : ∀ {n : Nat}, n < 10 → (Nat.digitChar n).toNat < 128 ∧
    isDigitByte (Nat.digitChar n).toUInt8 = true ∧ digitOf (Nat.digitChar n).toUInt8 = n ∧
    (n ≠ 0 → (Nat.digitChar n).toUInt8 ≠ code '0') := by
  decide

/-- The digits of a number are read as the number. -/
theorem toDigits_back (n : Nat) :
    (∀ b ∈ encoded (Nat.toDigits 10 n), isDigitByte b = true) ∧
      digitsValue 0 (encoded (Nat.toDigits 10 n)) = n ∧
      ∃ b digits, encoded (Nat.toDigits 10 n) = b :: digits ∧ (n ≠ 0 → b ≠ code '0') := by
  induction n using Nat.strongRecOn with
  | ind n ih =>
    by_cases hn : n < 10
    · obtain ⟨hascii, hdigit, hvalue, hzero⟩ := digitChar_back hn
      have hbytes : encoded (Nat.toDigits 10 n) = [(Nat.digitChar n).toUInt8] := by
        rw [Nat.toDigits_of_lt_base hn, Text.encoded_cons_ascii hascii, Text.encoded_nil]
      rw [hbytes]
      refine ⟨by simpa using hdigit, ?_, _, _, rfl, hzero⟩
      simp [digitsValue, hvalue]
    · have hlast : n % 10 < 10 := Nat.mod_lt n (by decide)
      obtain ⟨hascii, hdigit, hvalue, -⟩ := digitChar_back hlast
      obtain ⟨hdigits, hfront, b, digits, hsplit, hb⟩ := ih (n / 10) (by omega)
      have hbytes : encoded (Nat.toDigits 10 n) =
          encoded (Nat.toDigits 10 (n / 10)) ++ [(Nat.digitChar (n % 10)).toUInt8] := by
        rw [Nat.toDigits_of_base_le (by decide) (Nat.le_of_not_lt hn), Text.encoded_append,
          Text.encoded_cons_ascii hascii, Text.encoded_nil]
      rw [hbytes]
      refine ⟨fun b' hb' => ?_, ?_, b, _, by rw [hsplit]; rfl, fun _ => hb (by omega)⟩
      · rcases List.mem_append.mp hb' with hb' | hb'
        · exact hdigits b' hb'
        · rw [List.mem_singleton.mp hb']
          exact hdigit
      · rw [digitsValue_concat, hfront, hvalue]
        omega

/-- **A natural number of 64 bits is read back**, behind a minus sign as well. -/
theorem readNumber_back {n : Nat} (hn : n < UInt64.size) (negative : Bool) (hrest : Stops rest) :
    readNumber negative (encoded (Nat.toDigits 10 n) ++ rest) =
      .ok (integerNumber negative n, rest) := by
  obtain ⟨hdigits, hvalue, b, digits, hbytes, hfirst⟩ := toDigits_back n
  by_cases hzero : n = 0
  · subst hzero
    change readNumber negative (code '0' :: rest) = _
    simp only [readNumber, if_true, hrest.startsWithDigit]
    exact hrest.readNumberTail negative 0
  · have hb := hfirst hzero
    rw [hbytes] at hdigits hvalue ⊢
    have hdigit := hdigits b List.mem_cons_self
    have hfront : digitsValue (digitOf b) digits = n := by
      rw [← hvalue, digitsValue, digitsValue, List.foldl_cons, Nat.zero_mul, Nat.zero_add]
    obtain ⟨count, hgather⟩ := gatherDigits_all 0
      (fun b' hb' => hdigits b' (List.mem_cons_of_mem _ hb')) (by rw [hfront]; exact hn)
      hrest.startsWithDigit
    simp only [readNumber, List.cons_append, if_neg hb, hdigit, if_true, hgather, hfront,
      hrest.startsWithDigit]
    exact hrest.readNumberTail negative n

/-! ### Scalars -/

/-- Neither a list nor an object, and no number but a natural one of 64 bits. -/
def Value.IsScalar : Value → Prop
  | .null | .bool _ | .string _ => True
  | .number (.integer n) => 0 ≤ n ∧ n < UInt64.size
  | _ => False

theorem Value.IsScalar.compactChars {v : Value} (h : v.IsScalar) :
    v.compactChars = scalarChars v := by
  match v, h with
  | .null, _ | .bool _, _ | .string _, _ | .number (.integer _), _ => rfl

theorem Value.IsScalar.prettyChars {v : Value} (h : v.IsScalar) (level : Nat) :
    v.prettyChars level = scalarChars v := by
  match v, h with
  | .null, _ | .bool _, _ | .string _, _ | .number (.integer _), _ => rfl

/-- A byte with which a scalar begins: no blank, and nothing that opens a container. -/
structure BeginsScalar (b : UInt8) : Prop where
  noBlank : isBlankByte b = false
  noList : b ≠ code '['
  noObject : b ≠ code '\x7b'

/-- A digit is no other character. -/
theorem ne_of_isDigitByte (h : isDigitByte b = true) {c : Char} (hascii : c.toNat < 128)
    (hc : c.toNat < 48 ∨ 57 < c.toNat) : b ≠ code c := by
  simp only [isDigitByte, Bool.and_eq_true, decide_eq_true_eq, UInt8.le_iff_toNat_le] at h
  have hlow : 48 ≤ b.toNat := h.1
  have hhigh : b.toNat ≤ 57 := h.2
  rintro rfl
  rw [code, Text.toNat_toUInt8 hascii] at hlow hhigh
  omega

theorem beginsScalar_digit (h : isDigitByte b = true) : BeginsScalar b where
  noBlank := by
    have hne : ∀ c : Char, c.toNat < 48 → b ≠ code c := fun c hc =>
      ne_of_isDigitByte h (Nat.lt_trans hc (by decide)) (Or.inl hc)
    simp only [isBlankByte, Bool.or_eq_false_iff, beq_eq_false_iff_ne]
    exact ⟨⟨⟨hne ' ' (by decide), hne '\n' (by decide)⟩, hne '\t' (by decide)⟩,
      hne '\x0d' (by decide)⟩
  noList := ne_of_isDigitByte h (by decide) (by decide)
  noObject := ne_of_isDigitByte h (by decide) (by decide)

theorem numberChars_natural (n : Nat) : numberChars (.integer n) = Nat.toDigits 10 n := by
  change (String.ofList (Nat.toDigits 10 n)).toList = _
  rw [String.toList_ofList]

/-- The characters of a scalar, and the value that they denote. -/
inductive Denotes : List Char → Value → Prop
  | null : Denotes ['n', 'u', 'l', 'l'] .null
  | true : Denotes ['t', 'r', 'u', 'e'] (.bool .true)
  | false : Denotes ['f', 'a', 'l', 's', 'e'] (.bool .false)
  | string {w : List Char} {s : String} (h : Spells w s.toList) :
      Denotes ('"' :: (w ++ ['"'])) (.string s)
  | natural {n : Nat} (h : n < UInt64.size) : Denotes (Nat.toDigits 10 n) (.number (.integer n))

theorem encoded_quoted (w : List Char) :
    encoded ('"' :: (w ++ ['"'])) = code '"' :: (encoded w ++ [code '"']) := by
  rw [Text.encoded_cons_ascii (by decide), Text.encoded_append]
  rfl

/-- A string is read, from its quote on, as the text that it spells. -/
theorem readScalar_string {w : List Char} {s : String} (h : Spells w s.toList)
    (rest : List UInt8) :
    readScalar (code '"') ((encoded w ++ [code '"']) ++ rest) = .ok (.string s, rest) := by
  rw [readScalar, if_neg (by decide), if_neg (by decide), if_neg (by decide), if_pos rfl,
    List.append_assoc, List.singleton_append, readString_spelled h]
  rfl

/-- What begins with a digit is read as a number. -/
theorem readScalar_digit (hdigit : isDigitByte b = true) (rest : List UInt8) :
    readScalar b rest =
      (readNumber false (b :: rest)).map fun (n, rest) => (.number n, rest) := by
  have hne : ∀ c : Char, c.toNat < 128 ∧ (c.toNat < 48 ∨ 57 < c.toNat) → b ≠ code c :=
    fun c hc => ne_of_isDigitByte hdigit hc.1 hc.2
  rw [readScalar, if_neg (hne 'n' (by decide)), if_neg (hne 't' (by decide)),
    if_neg (hne 'f' (by decide)), if_neg (hne '"' (by decide)), if_neg (hne '-' (by decide)),
    if_pos hdigit]
  cases readNumber false (b :: rest) <;> rfl

/-- **A scalar is read**, from its first byte on, as the value that it denotes. -/
theorem readScalar_denoted {w : List Char} {v : Value} (h : Denotes w v) (hrest : Stops rest) :
    ∃ b tail, encoded w = b :: tail ∧ BeginsScalar b ∧
      readScalar b (tail ++ rest) = .ok (v, rest) := by
  cases h with
  | null =>
    exact ⟨code 'n', [code 'u', code 'l', code 'l'], rfl, ⟨rfl, by decide, by decide⟩, rfl⟩
  | true =>
    exact ⟨code 't', [code 'r', code 'u', code 'e'], rfl, ⟨rfl, by decide, by decide⟩, rfl⟩
  | false =>
    exact ⟨code 'f', [code 'a', code 'l', code 's', code 'e'], rfl,
      ⟨rfl, by decide, by decide⟩, rfl⟩
  | string h =>
    exact ⟨_, _, encoded_quoted _, ⟨rfl, by decide, by decide⟩, readScalar_string h rest⟩
  | @natural n hn =>
    have hback := readNumber_back hn false hrest
    obtain ⟨hdigits, -, b, tail, hbytes, -⟩ := toDigits_back n
    rw [hbytes] at hback hdigits
    have hdigit := hdigits b List.mem_cons_self
    refine ⟨b, tail, hbytes, beginsScalar_digit hdigit, ?_⟩
    rw [readScalar_digit hdigit, ← List.cons_append, hback]
    rfl

/-- What is written for a scalar denotes it. -/
theorem denotes_scalarChars {v : Value} (hv : v.IsScalar) : Denotes (scalarChars v) v := by
  match v, hv with
  | .null, _ => exact .null
  | .bool true, _ => exact .true
  | .bool false, _ => exact .false
  | .string s, _ => exact .string (spells_escaped s.toList)
  | .number (.integer n), hn =>
    obtain ⟨k, rfl⟩ := Int.eq_ofNat_of_zero_le hn.1
    rw [scalarChars, numberChars_natural]
    exact .natural (Int.ofNat_lt.mp hn.2)

end FileReceiver.Json
