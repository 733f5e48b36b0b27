/-
# Rounding keeps the order

A quotient is rounded to the nearest multiple of a unit, a power of two that
grows with the quotient. With one unit the rounding keeps the order
(`roundHalfEven_mono`); where the unit grows, a power of two stands between
the two quotients that neither rounding crosses. So rounding keeps the order
of all quotients, and what is below a number that can be rounded can be
rounded itself (`Magnitude.ofQuotient?_mono`). The same then holds of
products, and bounds on closed numbers become bounds on all numbers beside
them.

Key definitions: `Magnitude.value`, `Magnitude.unit`, `Magnitude.units`.
Key theorems: `roundHalfEven_mono`, `Magnitude.leadingExponent_spec`,
`Magnitude.ofQuotient?_mono`, `Magnitude.times?_mono`,
`Magnitude.le_truncate_iff`.
-/
import FileReceiver.Number.Binary64
import Mathlib.Algebra.Order.Field.Power
import Mathlib.Data.Rat.Cast.Order
import Mathlib.Tactic.Linarith
import Mathlib.Tactic.Positivity
import Mathlib.Tactic.Ring

namespace FileReceiver

/-! ### To the nearest natural number -/

theorem div_le_roundHalfEven (num den : Nat) : num / den ≤ roundHalfEven num den := by
  unfold roundHalfEven
  dsimp only
  split <;> omega

theorem roundHalfEven_le_div (num den : Nat) : roundHalfEven num den ≤ num / den + 1 := by
  unfold roundHalfEven
  dsimp only
  split <;> omega

theorem roundHalfEven_one (n : Nat) : roundHalfEven n 1 = n := by
  unfold roundHalfEven
  simp [Nat.mod_one]

/-- **Rounding keeps the order of quotients.** -/
theorem roundHalfEven_mono {a b c d : Nat} (hb : 0 < b) (hd : 0 < d) (h : a * d ≤ c * b) :
    roundHalfEven a b ≤ roundHalfEven c d := by
  have hquotient : a / b ≤ c / d := by
    rw [Nat.le_div_iff_mul_le hd]
    refine Nat.le_of_mul_le_mul_right (Nat.le_trans ?_ h) hb
    calc a / b * d * b = a / b * b * d := Nat.mul_right_comm _ _ _
      _ ≤ a * d := Nat.mul_le_mul_right d (Nat.div_mul_le_self a b)
  rcases Nat.lt_or_eq_of_le hquotient with hlt | heq
  · have hlow := roundHalfEven_le_div a b
    have hhigh := div_le_roundHalfEven c d
    omega
  -- the quotients have one whole part, so their remainders are compared
  have hrest : a % b * d ≤ c % d * b := by
    have ha : b * (a / b) + a % b = a := Nat.div_add_mod a b
    have hc : d * (c / d) + c % d = c := Nat.div_add_mod c d
    rw [← ha, ← hc, heq] at h
    nlinarith
  unfold roundHalfEven
  dsimp only
  rw [heq]
  split
  · rename_i hup
    have hup' : d < 2 * (c % d) ∨ 2 * (c % d) = d ∧ c / d % 2 = 1 := by
      rcases hup with hover | ⟨hhalf, hodd⟩
      · refine Or.inl (Nat.lt_of_mul_lt_mul_right (a := b) ?_)
        calc d * b = b * d := Nat.mul_comm d b
          _ < 2 * (a % b) * d := Nat.mul_lt_mul_of_pos_right hover hd
          _ ≤ 2 * (c % d) * b := by linarith
      · have hhalf' : d ≤ 2 * (c % d) := by
          refine Nat.le_of_mul_le_mul_right ?_ hb
          calc d * b = 2 * (a % b) * d := by rw [hhalf, Nat.mul_comm]
            _ ≤ 2 * (c % d) * b := by linarith
        exact (Nat.lt_or_eq_of_le hhalf').imp_right fun heq' => ⟨heq'.symm, hodd⟩
    rw [if_pos hup']
  · split <;> omega

/-- What a natural number is a bound of is rounded to no more. -/
theorem roundHalfEven_le {num den n : Nat} (hden : 0 < den) (h : num ≤ n * den) :
    roundHalfEven num den ≤ n := by
  have hmono := roundHalfEven_mono hden Nat.one_pos (by rwa [Nat.mul_one] : num * 1 ≤ n * den)
  rwa [roundHalfEven_one] at hmono

theorem le_roundHalfEven {num den n : Nat} (hden : 0 < den) (h : n * den ≤ num) :
    n ≤ roundHalfEven num den :=
  Nat.le_trans ((Nat.le_div_iff_mul_le hden).mpr h) (div_le_roundHalfEven num den)

namespace Magnitude

/-- The number that a magnitude is. -/
def value (x : Magnitude) : ℚ :=
  x.mantissa * 2 ^ x.exponent

/-! ### Powers of two -/

theorem zpow_eq_div (e : Int) : (2 : ℚ) ^ e = 2 ^ e.toNat / 2 ^ (-e).toNat := by
  rcases Int.le_total 0 e with h | h
  · obtain ⟨n, rfl⟩ := Int.eq_ofNat_of_zero_le h
    simp
  · obtain ⟨n, hn⟩ := Int.eq_ofNat_of_zero_le (Int.neg_nonneg_of_nonpos h)
    obtain rfl : e = -(n : Int) := by omega
    simp [zpow_neg]

/-- A power of two lies below a quotient, as the comparison of two natural numbers. -/
theorem zpow_mul_le_iff (e : Int) (m n num den : Nat) :
    m * (den * Nat.pow 2 e.toNat) ≤ n * (num * Nat.pow 2 (-e).toNat) ↔
      (m : ℚ) * (2 ^ e * den) ≤ n * num := by
  have hpos : (0 : ℚ) < 2 ^ (-e).toNat := by positivity
  rw [zpow_eq_div, ← Nat.cast_le (α := ℚ)]
  simp only [Nat.pow_eq, Nat.cast_mul, Nat.cast_pow, Nat.cast_ofNat]
  rw [div_mul_eq_mul_div, mul_div_assoc', div_le_iff₀ hpos]
  constructor <;> intro h <;> linarith

theorem le_zpow_mul_iff (e : Int) (m n num den : Nat) :
    n * (num * Nat.pow 2 (-e).toNat) ≤ m * (den * Nat.pow 2 e.toNat) ↔
      (n : ℚ) * num ≤ m * (2 ^ e * den) := by
  have hpos : (0 : ℚ) < 2 ^ (-e).toNat := by positivity
  rw [zpow_eq_div, ← Nat.cast_le (α := ℚ)]
  simp only [Nat.pow_eq, Nat.cast_mul, Nat.cast_pow, Nat.cast_ofNat]
  rw [div_mul_eq_mul_div, mul_div_assoc', le_div_iff₀ hpos]
  constructor <;> intro h <;> linarith

variable {num den a b c d : Nat}

/-- **The leading exponent** of a quotient: the power of two that is not above it, while the next
one is. -/
theorem leadingExponent_spec (hnum : 0 < num) (hden : 0 < den) :
    2 ^ leadingExponent num den * (den : ℚ) ≤ num ∧
      (num : ℚ) < 2 ^ (leadingExponent num den + 1) * den := by
  have hnumLow : ((2 : ℚ) ^ (num.log2 : Int)) ≤ num := by
    exact_mod_cast Nat.log2_self_le hnum.ne'
  have hnumHigh : (num : ℚ) < 2 ^ ((num.log2 : Int) + 1) := by
    exact_mod_cast Nat.lt_log2_self (n := num)
  have hdenLow : ((2 : ℚ) ^ (den.log2 : Int)) ≤ den := by
    exact_mod_cast Nat.log2_self_le hden.ne'
  have hdenHigh : (den : ℚ) < 2 ^ ((den.log2 : Int) + 1) := by
    exact_mod_cast Nat.lt_log2_self (n := den)
  have htwo : (2 : ℚ) ≠ 0 := two_ne_zero
  have hguess := zpow_mul_le_iff ((num.log2 : Int) - den.log2) 1 1 num den
  simp only [Nat.cast_one, one_mul] at hguess
  unfold leadingExponent
  dsimp only
  split
  · rename_i hle
    refine ⟨hguess.mp hle, lt_of_lt_of_le hnumHigh ?_⟩
    calc (2 : ℚ) ^ ((num.log2 : Int) + 1)
        = 2 ^ ((num.log2 : Int) - den.log2 + 1) * 2 ^ (den.log2 : Int) := by
          rw [← zpow_add₀ htwo]
          congr 1
          omega
      _ ≤ 2 ^ ((num.log2 : Int) - den.log2 + 1) * den := by gcongr
  · rename_i hnot
    refine ⟨le_trans ?_ hnumLow, ?_⟩
    · calc 2 ^ ((num.log2 : Int) - den.log2 - 1) * (den : ℚ)
          ≤ 2 ^ ((num.log2 : Int) - den.log2 - 1) * 2 ^ ((den.log2 : Int) + 1) := by gcongr
        _ = 2 ^ (num.log2 : Int) := by
          rw [← zpow_add₀ htwo]
          congr 1
          omega
    · rw [Int.sub_add_cancel]
      exact lt_of_not_ge fun hle => hnot (hguess.mpr hle)

/-! ### Rounding to a unit -/

/-- The exponent of the unit to whose multiples a quotient is rounded. -/
def unit (num den : Nat) : Int :=
  max (leadingExponent num den - 52) minExponent

/-- How many units a quotient is rounded to. -/
def units (num den : Nat) : Nat :=
  roundHalfEven (num * Nat.pow 2 (-unit num den).toNat) (den * Nat.pow 2 (unit num den).toNat)

/-- So many units as a magnitude. -/
def ofUnits (count : Nat) (exponent : Int) : Magnitude :=
  if count = 2 * leastNormal then ⟨leastNormal, exponent + 1⟩ else ⟨count, exponent⟩

theorem ofQuotient?_eq (hnum : num ≠ 0) : ofQuotient? num den =
    if maxExponent < (ofUnits (units num den) (unit num den)).exponent then none
    else some (ofUnits (units num den) (unit num den)) := by
  unfold ofQuotient?
  rw [if_neg hnum]
  rfl

theorem value_ofUnits (count : Nat) (exponent : Int) :
    (ofUnits count exponent).value = count * 2 ^ exponent := by
  unfold ofUnits
  split
  · rename_i hcount
    rw [value, hcount, zpow_add_one₀ two_ne_zero, Nat.cast_mul]
    push_cast
    ring
  · rfl

theorem exponent_ofUnits (count : Nat) (exponent : Int) :
    (ofUnits count exponent).exponent =
      if count = 2 * leastNormal then exponent + 1 else exponent := by
  unfold ofUnits
  split <;> rfl

/-- There are no more units than have 54 bits. -/
theorem units_le (hnum : 0 < num) (hden : 0 < den) : units num den ≤ 2 * leastNormal := by
  refine roundHalfEven_le (Nat.mul_pos hden (Nat.two_pow_pos _)) ?_
  have hscaled := le_zpow_mul_iff (unit num den) (2 * leastNormal) 1 num den
  rw [Nat.one_mul] at hscaled
  refine hscaled.mpr ?_
  have hlimit : ((2 * leastNormal : Nat) : ℚ) = 2 ^ (53 : Int) := by norm_num [leastNormal]
  have hunit : leadingExponent num den + 1 ≤ 53 + unit num den := by
    have hmax := le_max_left (leadingExponent num den - 52) minExponent
    unfold unit
    omega
  rw [hlimit, Nat.cast_one, one_mul, ← mul_assoc, ← zpow_add₀ two_ne_zero]
  refine le_trans (leadingExponent_spec hnum hden).2.le ?_
  gcongr
  exact one_le_two

/-- With a unit above the least one, the units have 53 bits. -/
theorem le_units (hnum : 0 < num) (hden : 0 < den) (hunit : minExponent < unit num den) :
    leastNormal ≤ units num den := by
  refine le_roundHalfEven (Nat.mul_pos hden (Nat.two_pow_pos _)) ?_
  have hscaled := zpow_mul_le_iff (unit num den) leastNormal 1 num den
  rw [Nat.one_mul] at hscaled
  refine hscaled.mpr ?_
  have hlimit : (leastNormal : ℚ) = 2 ^ (52 : Int) := by norm_num [leastNormal]
  have hlead : 52 + unit num den = leadingExponent num den := by
    have hmax : unit num den = leadingExponent num den - 52 := by
      unfold unit at hunit ⊢
      omega
    omega
  rw [hlimit, Nat.cast_one, one_mul, ← mul_assoc, ← zpow_add₀ two_ne_zero, hlead]
  exact (leadingExponent_spec hnum hden).1

theorem unit_mono (ha : 0 < a) (hb : 0 < b) (hc : 0 < c) (hd : 0 < d)
    (h : (a : ℚ) / b ≤ c / d) : unit a b ≤ unit c d := by
  have hlow : 2 ^ leadingExponent a b ≤ (a : ℚ) / b := by
    rw [le_div_iff₀ (Nat.cast_pos.mpr hb)]
    exact (leadingExponent_spec ha hb).1
  have hhigh : (c : ℚ) / d < 2 ^ (leadingExponent c d + 1) := by
    rw [div_lt_iff₀ (Nat.cast_pos.mpr hd)]
    exact (leadingExponent_spec hc hd).2
  have hlt := (zpow_lt_zpow_iff_right₀ (one_lt_two (α := ℚ))).mp
    (lt_of_le_of_lt hlow (lt_of_le_of_lt h hhigh))
  unfold unit
  omega

/-- With the same unit, a greater quotient has at least as many units. -/
theorem units_mono (hb : 0 < b) (hd : 0 < d) (hunit : unit a b = unit c d)
    (hcross : a * d ≤ c * b) : units a b ≤ units c d := by
  unfold units
  rw [hunit]
  refine roundHalfEven_mono (Nat.mul_pos hb (Nat.two_pow_pos _))
    (Nat.mul_pos hd (Nat.two_pow_pos _)) ?_
  calc a * Nat.pow 2 (-unit c d).toNat * (d * Nat.pow 2 (unit c d).toNat)
      = a * d * (Nat.pow 2 (-unit c d).toNat * Nat.pow 2 (unit c d).toNat) := by ring
    _ ≤ c * b * (Nat.pow 2 (-unit c d).toNat * Nat.pow 2 (unit c d).toNat) :=
      Nat.mul_le_mul_right _ hcross
    _ = c * Nat.pow 2 (-unit c d).toNat * (b * Nat.pow 2 (unit c d).toNat) := by ring

/-- With different units a power of two lies between: at most 2 ^ 53 of the smaller units, at least
2 ^ 52 of the larger ones. -/
theorem units_between (ha : 0 < a) (hb : 0 < b) (hc : 0 < c) (hd : 0 < d)
    (hunit : unit a b < unit c d) :
    (units a b : ℚ) * 2 ^ unit a b ≤ units c d * 2 ^ unit c d := by
  have hsmaller := units_le ha hb
  have hlarger := le_units hc hd (lt_of_le_of_lt (le_max_right _ _) hunit)
  calc (units a b : ℚ) * 2 ^ unit a b
      ≤ (2 * leastNormal : Nat) * 2 ^ unit a b := by gcongr
    _ = leastNormal * 2 ^ (unit a b + 1) := by
      rw [zpow_add_one₀ two_ne_zero, Nat.cast_mul]
      push_cast
      ring
    _ ≤ units c d * 2 ^ unit c d := by
      gcongr
      · exact one_le_two
      · exact hunit

/-! ### The order -/

/-- What quotients are rounded to, before it is looked at whether it is in range, keeps their
order. -/
theorem ofUnits_mono (ha : 0 < a) (hb : 0 < b) (hc : 0 < c) (hd : 0 < d)
    (h : (a : ℚ) / b ≤ c / d) :
    (ofUnits (units a b) (unit a b)).exponent ≤ (ofUnits (units c d) (unit c d)).exponent ∧
      (ofUnits (units a b) (unit a b)).value ≤ (ofUnits (units c d) (unit c d)).value := by
  have hcountA := units_le ha hb
  simp only [exponent_ofUnits, value_ofUnits]
  rcases (unit_mono ha hb hc hd h).lt_or_eq with hunit | hunit
  · have hcountC := le_units hc hd (lt_of_le_of_lt (le_max_right _ _) hunit)
    exact ⟨by split <;> split <;> omega, units_between ha hb hc hd hunit⟩
  · have hcross : a * d ≤ c * b := by
      rw [div_le_div_iff₀ (Nat.cast_pos.mpr hb) (Nat.cast_pos.mpr hd)] at h
      exact_mod_cast h
    have hcounts := units_mono hb hd hunit hcross
    have hcountC := units_le hc hd
    rw [hunit]
    refine ⟨by split <;> split <;> omega, ?_⟩
    gcongr

/-- **Rounding keeps the order**, and what is below a number that can be rounded can be rounded. -/
theorem ofQuotient?_mono (hb : 0 < b) (hd : 0 < d) (h : (a : ℚ) / b ≤ c / d) {y : Magnitude}
    (hy : ofQuotient? c d = some y) : ∃ x, ofQuotient? a b = some x ∧ x.value ≤ y.value := by
  rcases Nat.eq_zero_or_pos a with rfl | ha
  · refine ⟨zero, by simp [ofQuotient?], ?_⟩
    have hnonneg : 0 ≤ y.value := by unfold value; positivity
    simpa [value, zero] using hnonneg
  have hc : 0 < c := by
    refine Nat.pos_of_ne_zero fun hzero => ?_
    rw [hzero, Nat.cast_zero, zero_div] at h
    exact absurd h (not_le.mpr (div_pos (Nat.cast_pos.mpr ha) (Nat.cast_pos.mpr hb)))
  rw [ofQuotient?_eq hc.ne'] at hy
  rw [ofQuotient?_eq ha.ne']
  split at hy
  · cases hy
  rename_i hfits
  obtain rfl := Option.some.inj hy
  obtain ⟨hexponent, hvalue⟩ := ofUnits_mono ha hb hc hd h
  exact ⟨_, if_neg fun hover => hfits (lt_of_lt_of_le hover hexponent), hvalue⟩

/-! ### Naturals, products and whole parts -/

variable {m n : Nat} {x x' y y' z : Magnitude}

theorem value_eq_div (x : Magnitude) : x.value = (x.numerator : ℚ) / x.denominator := by
  rw [value, numerator, denominator, zpow_eq_div]
  simp only [Nat.pow_eq, Nat.cast_mul, Nat.cast_pow, Nat.cast_ofNat]
  rw [mul_div_assoc]

theorem denominator_pos (x : Magnitude) : 0 < x.denominator := Nat.two_pow_pos _

theorem value_pos_iff : 0 < x.value ↔ x.mantissa ≠ 0 := by
  have hpos : (0 : ℚ) < 2 ^ x.exponent := by positivity
  rw [value, mul_pos_iff_of_pos_right hpos, Nat.cast_pos, Nat.pos_iff_ne_zero]

theorem le_truncate_iff : n ≤ x.truncate ↔ (n : ℚ) ≤ x.value := by
  rw [truncate, Nat.le_div_iff_mul_le x.denominator_pos, value_eq_div,
    le_div_iff₀ (Nat.cast_pos.mpr x.denominator_pos)]
  exact_mod_cast Iff.rfl

theorem ofNat?_mono (h : m ≤ n) (hy : ofNat? n = some y) :
    ∃ x, ofNat? m = some x ∧ x.value ≤ y.value :=
  ofQuotient?_mono Nat.one_pos Nat.one_pos (by gcongr) hy

theorem value_product (x y : Magnitude) :
    ((x.numerator * y.numerator : Nat) : ℚ) / (x.denominator * y.denominator : Nat) =
      x.value * y.value := by
  rw [value_eq_div, value_eq_div, Nat.cast_mul, Nat.cast_mul, div_mul_div_comm]

/-- **Products keep the order.** -/
theorem times?_mono (hx : x.value ≤ x'.value) (hy : y.value ≤ y'.value) {z' : Magnitude}
    (hz : times? x' y' = some z') : ∃ z, times? x y = some z ∧ z.value ≤ z'.value := by
  refine ofQuotient?_mono (Nat.mul_pos x.denominator_pos y.denominator_pos)
    (Nat.mul_pos x'.denominator_pos y'.denominator_pos) ?_ hz
  rw [value_product, value_product]
  have hnonneg : 0 ≤ y.value := by unfold value; positivity
  have hnonneg' : 0 ≤ x'.value := by unfold value; positivity
  exact mul_le_mul hx hy hnonneg hnonneg'

end Magnitude

end FileReceiver
