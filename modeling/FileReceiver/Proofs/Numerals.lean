/-
# Numerals of any size

A numeral is an integer if it fits 64 bits. Of a longer one the digits are
gathered that fit, and each further digit only raises the exponent
(`readNumber_long`); what is gathered is then rounded and scaled. Rounding
keeps the order, so that a few closed products bound all of them: up to ten
to the 308th such a number is finite and not below the least that no longer
fits (`ofDecimal?_long`). Behind a minus sign, no numeral but zero is read as
a number that counts as zero or above (`minus_yields`).

Key definitions: `Magnitude.product?`, `Json.Number.IsBelowZero`.
Key theorems: `Json.gatherDigits_split`, `Json.readNumber_long`,
`Magnitude.ofDecimal?_long`, `Magnitude.ofDecimal?_pos`,
`Json.numeral_restores`, `Json.minus_yields`.
-/
import FileReceiver.Proofs.Objects
import FileReceiver.Proofs.Rounding

namespace FileReceiver
namespace Json

open Text (encoded)

/-! ### Digits that do not fit -/

theorem digitOf_le {b : UInt8} (h : isDigitByte b = true) : digitOf b ≤ 9 := by
  simp only [isDigitByte, Bool.and_eq_true, decide_eq_true_eq, UInt8.le_iff_toNat_le] at h
  have hhigh : b.toNat ≤ 57 := h.2
  have hzero : '0'.toNat = 48 := rfl
  unfold digitOf
  omega

theorem digitsValue_append (soFar : Nat) (front back : List UInt8) :
    digitsValue soFar (front ++ back) = digitsValue (digitsValue soFar front) back :=
  List.foldl_append

/-- Each further digit multiplies by ten, and adds less than that. -/
theorem mul_pow_le_digitsValue (soFar : Nat) (digits : List UInt8) :
    soFar * 10 ^ digits.length ≤ digitsValue soFar digits := by
  induction digits generalizing soFar with
  | nil => exact Nat.le_of_eq (Nat.mul_one soFar)
  | cons b digits ih =>
    calc soFar * 10 ^ (digits.length + 1)
        = soFar * 10 * 10 ^ digits.length := by rw [Nat.pow_succ']; ring
      _ ≤ (soFar * 10 + digitOf b) * 10 ^ digits.length :=
        Nat.mul_le_mul_right _ (Nat.le_add_right _ _)
      _ ≤ digitsValue soFar (b :: digits) := ih _

/-- **Digits are gathered as long as their number fits.** With the next one it would not. -/
theorem gatherDigits_split {digits : List UInt8} {soFar : Nat}
    (hdigits : ∀ b ∈ digits, isDigitByte b = true) (hfits : soFar < significandLimit) :
    ∃ front back, digits = front ++ back ∧ digitsValue soFar front < significandLimit ∧
      (∀ b tail, back = b :: tail →
        significandLimit ≤ digitsValue soFar front * 10 + digitOf b) ∧
      ∀ taken rest, startsWithDigit rest = false → ∃ count,
        gatherDigits soFar taken (digits ++ rest) =
          (digitsValue soFar front, count, back ++ rest) := by
  induction digits generalizing soFar with
  | nil =>
    refine ⟨[], [], rfl, hfits, nofun, fun taken rest hrest => ⟨taken, ?_⟩⟩
    cases rest with
    | nil => rfl
    | cons b rest =>
      change isDigitByte b = false at hrest
      simp [gatherDigits, hrest, digitsValue]
  | cons b digits ih =>
    have hdigit := hdigits b List.mem_cons_self
    by_cases hnext : soFar * 10 + digitOf b < significandLimit
    · obtain ⟨front, back, rfl, hfront, hback, hgather⟩ :=
        ih (fun b' hb' => hdigits b' (List.mem_cons_of_mem _ hb')) hnext
      refine ⟨b :: front, back, rfl, hfront, hback, fun taken rest hrest => ?_⟩
      obtain ⟨count, hcount⟩ := hgather (taken + 1) rest hrest
      refine ⟨count, ?_⟩
      rw [List.cons_append, gatherDigits, if_pos ⟨hdigit, hnext⟩]
      exact hcount
    · refine ⟨[], b :: digits, rfl, hfits, fun b' tail heq => ?_, fun taken rest _ => ⟨taken, ?_⟩⟩
      · rw [← (List.cons.inj heq).1]
        exact Nat.le_of_not_lt hnext
      · rw [List.cons_append, gatherDigits, if_neg fun hboth => hnext hboth.2]
        rfl

/-- The digits that no longer fit are counted. -/
theorem readLongNumber_back {back rest : List UInt8} (hback : ∀ b ∈ back, isDigitByte b = true)
    (hrest : Stops rest) (negative : Bool) (significand : Nat) :
    readLongNumber negative significand (back ++ rest) =
      scaledNumber negative significand back.length rest := by
  have htake : (back ++ rest).takeWhile isDigitByte = back := by
    rw [List.takeWhile_append_of_pos hback]
    cases rest with
    | nil => simp
    | cons b rest => simp [hrest.1]
  have hdrop : (back ++ rest).dropWhile isDigitByte = rest := by
    rw [List.dropWhile_append_of_pos hback]
    cases rest with
    | nil => rfl
    | cons b rest => simp [hrest.1]
  rw [readLongNumber, htake, hdrop]
  cases rest with
  | nil => rfl
  | cons b rest =>
    dsimp only
    rw [if_neg hrest.2.1, readScale]
    exact if_neg (not_or.mpr hrest.2.2)

/-- **A numeral that does not fit 64 bits** is read as a significand that fits, with the greatest
part of the digits, and a power of ten. -/
theorem readNumber_long {n : Nat} (hn : UInt64.size ≤ n) :
    ∃ significand places : Nat, UInt64.size ≤ significand * 10 + 9 ∧ significand < UInt64.size ∧
      0 < places ∧ significand * 10 ^ places ≤ n ∧
      ∀ negative rest, Stops rest → readNumber negative (encoded (Nat.toDigits 10 n) ++ rest) =
        scaledNumber negative significand places rest := by
  obtain ⟨hdigits, hvalue, b, digits, hbytes, hfirst⟩ := toDigits_back n
  have hb : b ≠ code '0' := hfirst (Nat.ne_of_gt (Nat.lt_of_lt_of_le (by decide) hn))
  rw [hbytes] at hdigits hvalue
  have hdigit := hdigits b List.mem_cons_self
  have hdigits' := fun b' hb' => hdigits b' (List.mem_cons_of_mem _ hb')
  have hsmall : digitOf b < significandLimit :=
    Nat.lt_of_le_of_lt (digitOf_le hdigit) (by decide)
  have hfront : digitsValue (digitOf b) digits = n := by
    rw [← hvalue, digitsValue, digitsValue, List.foldl_cons, Nat.zero_mul, Nat.zero_add]
  obtain ⟨front, back, rfl, hfits, hover, hgather⟩ := gatherDigits_split hdigits' hsmall
  obtain ⟨c, back, rfl⟩ : ∃ c tail, back = c :: tail := by
    refine List.exists_cons_of_ne_nil fun hnil => ?_
    rw [hnil, List.append_nil] at hfront
    rw [hfront] at hfits
    exact absurd hfits (Nat.not_lt.mpr hn)
  have hback : ∀ b' ∈ c :: back, isDigitByte b' = true :=
    fun b' hb' => hdigits' b' (List.mem_append_right _ hb')
  have hc := digitOf_le (hback c List.mem_cons_self)
  have hlimit := hover c back rfl
  refine ⟨digitsValue (digitOf b) front, (c :: back).length, ?_, hfits, Nat.succ_pos _, ?_, ?_⟩
  · exact Nat.le_trans hlimit (Nat.add_le_add_left hc _)
  · calc digitsValue (digitOf b) front * 10 ^ (c :: back).length
        ≤ digitsValue (digitsValue (digitOf b) front) (c :: back) := mul_pow_le_digitsValue _ _
      _ = n := by rw [← digitsValue_append, hfront]
  · intro negative rest hrest
    obtain ⟨count, hcount⟩ := hgather 0 rest hrest.startsWithDigit
    have hstarts : startsWithDigit (c :: back ++ rest) = true := hback c List.mem_cons_self
    rw [hbytes, List.cons_append, readNumber, if_neg hb, if_pos hdigit, hcount]
    dsimp only
    rw [hstarts, if_pos rfl, readLongNumber_back hback hrest]

end Json

/-! ### The magnitude of what is read -/

namespace Magnitude

/-- The product of two natural numbers, each rounded before. -/
def product? (a b : Nat) : Option Magnitude :=
  (ofNat? a).bind fun x => (ofNat? b).bind fun y => times? x y

variable {a a' b b' significand places n : Nat} {z : Magnitude}

theorem product?_mono (ha : a ≤ a') (hb : b ≤ b') (h : product? a' b' = some z) :
    ∃ least, product? a b = some least ∧ least.value ≤ z.value := by
  obtain ⟨x', hx', hrest⟩ := Option.bind_eq_some_iff.mp h
  obtain ⟨y', hy', hz⟩ := Option.bind_eq_some_iff.mp hrest
  obtain ⟨x, hx, hxle⟩ := ofNat?_mono ha hx'
  obtain ⟨y, hy, hyle⟩ := ofNat?_mono hb hy'
  obtain ⟨least, hleast, hle⟩ := times?_mono hxle hyle hz
  refine ⟨least, ?_, hle⟩
  rw [product?, hx, Option.bind_some, hy, Option.bind_some, hleast]

theorem ofDecimal?_eq (significand : Nat) (hplaces : places ≤ largestScale) :
    ofDecimal? significand (places : Int) = product? significand (10 ^ places) := by
  unfold ofDecimal? scaleUp? product?
  simp [hplaces]

theorem pow_ten_mono {i j : Nat} (h : i ≤ j) : 10 ^ i ≤ 10 ^ j :=
  Nat.pow_le_pow_right (by decide) h

/-- The closed products that bound the others. -/
theorem products_bound : ((product? 1844674407370955161 10).map fun z =>
      decide (UInt64.size ≤ z.truncate)) = some true ∧
    (product? UInt64.size (10 ^ 288)).isSome = true ∧
    (product? (10 ^ 19) (10 ^ 289)).isSome = true ∧
    ((product? 1 1).map fun z => decide (z.mantissa ≠ 0)) = some true := by
  decide +kernel

/-- **A long numeral below ten to the 308th is finite**, and rounding does not take it below what
no longer fits 64 bits. -/
theorem ofDecimal?_long (hlow : UInt64.size ≤ significand * 10 + 9)
    (hhigh : significand < UInt64.size) (hplaces : 0 < places)
    (hn : significand * 10 ^ places < 10 ^ 308) :
    ∃ z, ofDecimal? significand (places : Nat) = some z ∧ UInt64.size ≤ z.truncate := by
  have hleast : 1844674407370955161 ≤ significand := by
    have hsize : UInt64.size = 18446744073709551616 := rfl
    omega
  have hfew : places ≤ 289 := by
    refine Nat.le_of_not_lt fun hmany => absurd hn (Nat.not_lt.mpr ?_)
    calc 10 ^ 308 = 10 ^ 18 * 10 ^ 290 := pow_add 10 18 290
      _ ≤ significand * 10 ^ 290 := Nat.mul_le_mul_right _ (Nat.le_trans (by norm_num) hleast)
      _ ≤ significand * 10 ^ places :=
        Nat.mul_le_mul_left _ (pow_ten_mono hmany)
  obtain ⟨hten, hshort, hlong, -⟩ := products_bound
  have hfinite : ∃ z, product? significand (10 ^ places) = some z := by
    rcases Nat.lt_or_eq_of_le hfew with hlt | rfl
    · obtain ⟨top, htop⟩ := Option.isSome_iff_exists.mp hshort
      have hpow := pow_ten_mono (Nat.le_of_lt_succ hlt)
      obtain ⟨z, hz, -⟩ := product?_mono hhigh.le hpow htop
      exact ⟨z, hz⟩
    · obtain ⟨top, htop⟩ := Option.isSome_iff_exists.mp hlong
      have hsmall : significand ≤ 10 ^ 19 := by
        refine Nat.le_of_lt (Nat.lt_of_mul_lt_mul_right (a := 10 ^ 289) (hn.trans_eq ?_))
        rw [← pow_add]
      obtain ⟨z, hz, -⟩ := product?_mono hsmall (Nat.le_refl (10 ^ 289)) htop
      exact ⟨z, hz⟩
  obtain ⟨z, hz⟩ := hfinite
  obtain ⟨least, hproduct, htruncate⟩ := Option.map_eq_some_iff.mp hten
  have hpow := pow_ten_mono hplaces
  obtain ⟨least', hproduct', hle⟩ := product?_mono hleast hpow hz
  obtain rfl : least = least' := Option.some.inj (hproduct.symm.trans hproduct')
  refine ⟨z, ?_, le_truncate_iff.mpr (le_trans ?_ hle)⟩
  · rw [ofDecimal?_eq significand (Nat.le_trans hfew (by decide)), hz]
  · exact le_truncate_iff.mp (of_decide_eq_true htruncate)

/-- A natural number that is not zero is not rounded to zero. -/
theorem ofNat?_pos (hpos : 0 < n) (h : ofNat? n = some z) : z.mantissa ≠ 0 := by
  have hone : ((ofNat? 1).map fun z => decide (z.mantissa ≠ 0)) = some true := by decide
  obtain ⟨least, hnat, hleast⟩ := Option.map_eq_some_iff.mp hone
  obtain ⟨least', hnat', hle⟩ := ofNat?_mono hpos h
  obtain rfl : least = least' := Option.some.inj (hnat.symm.trans hnat')
  exact value_pos_iff.mp (lt_of_lt_of_le (value_pos_iff.mpr (of_decide_eq_true hleast)) hle)

/-- What is read of a numeral that is not zero is not rounded to zero. -/
theorem ofDecimal?_pos (hpos : 0 < significand)
    (h : ofDecimal? significand (places : Nat) = some z) : z.mantissa ≠ 0 := by
  obtain ⟨-, -, -, hone⟩ := products_bound
  obtain ⟨least, hproduct, hleast⟩ := Option.map_eq_some_iff.mp hone
  by_cases hplaces : places ≤ largestScale
  · rw [ofDecimal?_eq significand hplaces] at h
    obtain ⟨least', hproduct', hle⟩ :=
      product?_mono hpos (Nat.one_le_pow places 10 (by decide)) h
    obtain rfl : least = least' := Option.some.inj (hproduct.symm.trans hproduct')
    exact value_pos_iff.mp (lt_of_lt_of_le (value_pos_iff.mpr (of_decide_eq_true hleast)) hle)
  · obtain ⟨x, hx, hscale⟩ := Option.bind_eq_some_iff.mp h
    have hscaled : scaleUp? x places = some z := by
      rwa [if_pos (Int.natCast_nonneg places), Int.toNat_natCast] at hscale
    rw [scaleUp?, if_neg hplaces, if_neg (ofNat?_pos hpos hx)] at hscaled
    cases hscaled

end Magnitude

/-! ### Values -/

namespace Json

open Text (encoded)

variable {n : Nat}

/-- A number below zero, and not rounded to it. -/
def Number.IsBelowZero : Number → Prop
  | .integer i => i < 0 ∧ i.natAbs ≤ leastIntegerSize
  | .real x => x.isNonnegative = false

theorem isBelowZero_real {z : Magnitude} (h : z.mantissa ≠ 0) :
    (Number.real ⟨true, z⟩).IsBelowZero := by
  simpa [Number.IsBelowZero, Binary64.isNonnegative] using h

/-- A numeral of 64 bits behind a minus sign is below zero, unless it is zero itself. -/
theorem integerNumber_negative (hpos : 0 < n) (hn : n < UInt64.size) :
    (integerNumber true n).IsBelowZero := by
  have hsize : ((Magnitude.ofNat? UInt64.size).isSome) = true := by decide +kernel
  obtain ⟨top, htop⟩ := Option.isSome_iff_exists.mp hsize
  obtain ⟨z, hz, -⟩ := Magnitude.ofNat?_mono hn.le htop
  unfold integerNumber
  rw [if_neg (by decide)]
  split
  · rw [hz, Option.getD_some]
    exact isBelowZero_real (Magnitude.ofNat?_pos hpos hz)
  · rename_i hsmall
    rw [not_or, Nat.not_lt] at hsmall
    refine ⟨by omega, ?_⟩
    rw [Int.natAbs_neg, Int.natAbs_natCast]
    exact hsmall.2

/-- A numeral is read as a number, whatever the depth. -/
theorem readValue_numeral (n depth : Nat) (rest : List UInt8) :
    readValue depth (encoded (Nat.toDigits 10 n) ++ rest) =
      (readNumber false (encoded (Nat.toDigits 10 n) ++ rest)).map fun p => (.number p.1, p.2) := by
  obtain ⟨hdigits, -, b, tail, hbytes, -⟩ := toDigits_back n
  rw [hbytes] at hdigits ⊢
  have hdigit := hdigits b List.mem_cons_self
  rw [List.cons_append, readValue_scalar (beginsScalar_digit hdigit), readScalar_digit hdigit]

theorem readValue_minus (chars : List Char) (depth : Nat) (rest : List UInt8) :
    readValue depth (encoded ('-' :: chars) ++ rest) =
      (readNumber true (encoded chars ++ rest)).map fun p => (.number p.1, p.2) := by
  have hbegins : BeginsScalar (code '-') := ⟨rfl, by decide, by decide⟩
  rw [Text.encoded_cons_ascii (by decide)]
  change readValue depth (code '-' :: (encoded chars ++ rest)) = _
  rw [readValue_scalar hbegins, readScalar, if_neg (by decide), if_neg (by decide),
    if_neg (by decide), if_neg (by decide), if_pos rfl]
  cases readNumber true (encoded chars ++ rest) <;> rfl

/-- **A numeral below ten to the 308th is read** as the integer if that fits, else as a number that
does not fit either. -/
theorem numeral_restores (hn : n < 10 ^ 308) :
    ∃ x, (∀ depth, Restores (readValue depth) (Nat.toDigits 10 n) (.number x)) ∧
      (n < UInt64.size → x = .integer n) ∧
      (UInt64.size ≤ n → ∃ z, x = .real ⟨false, z⟩ ∧ UInt64.size ≤ z.truncate) := by
  rcases Nat.lt_or_ge n UInt64.size with hfits | hlong
  · refine ⟨.integer n, fun depth rest hrest => ?_, fun _ => rfl, fun h => absurd hfits (by omega)⟩
    rw [readValue_numeral, readNumber_back hfits false hrest]
    rfl
  · obtain ⟨significand, places, hlow, hhigh, hplaces, hle, hread⟩ := readNumber_long hlong
    obtain ⟨z, hz, htruncate⟩ :=
      Magnitude.ofDecimal?_long hlow hhigh hplaces (Nat.lt_of_le_of_lt hle hn)
    refine ⟨.real ⟨false, z⟩, fun depth rest hrest => ?_, fun h => absurd h (by omega),
      fun _ => ⟨z, rfl, htruncate⟩⟩
    rw [readValue_numeral, hread false rest hrest, scaledNumber, hz]
    rfl

/-- **A numeral behind a minus sign** is read as a number below zero, or it is out of range. -/
theorem minus_yields (hpos : 0 < n) :
    ∃ x : Option Number, (∀ depth, Yields (readValue depth) ('-' :: Nat.toDigits 10 n)
      (x.map .number)) ∧ ∀ y, x = some y → y.IsBelowZero := by
  rcases Nat.lt_or_ge n UInt64.size with hfits | hlong
  · refine ⟨some (integerNumber true n), fun depth rest hrest => ?_, fun y hy => ?_⟩
    · rw [readValue_minus, readNumber_back hfits true hrest]
      rfl
    · rw [← Option.some.inj hy]
      exact integerNumber_negative hpos hfits
  · obtain ⟨significand, places, hlow, -, -, -, hread⟩ := readNumber_long hlong
    refine ⟨(Magnitude.ofDecimal? significand (places : Nat)).map fun z => .real ⟨true, z⟩,
      fun depth rest hrest => ?_, fun y hy => ?_⟩
    · rw [readValue_minus, hread true rest hrest, scaledNumber]
      cases Magnitude.ofDecimal? significand (places : Nat) <;> rfl
    · obtain ⟨z, hz, rfl⟩ := Option.map_eq_some_iff.mp hy
      have hsignificand : 0 < significand := by
        have hsize : UInt64.size = 18446744073709551616 := rfl
        omega
      exact isBelowZero_real (Magnitude.ofDecimal?_pos hsignificand hz)

end Json

end FileReceiver
