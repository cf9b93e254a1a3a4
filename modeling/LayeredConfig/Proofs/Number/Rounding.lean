import LayeredConfig.Bag.Views
import Mathlib.Algebra.Order.Field.Power
import Mathlib.Tactic.Linarith
import Mathlib.Tactic.NormNum
import Mathlib.Tactic.Positivity
import Mathlib.Tactic.Ring

/-!
# What rounding to binary64 gives

The absolute value of a number is taken as a rational.  A quotient is rounded to a natural multiple
of a power of two, which its own size decides, and the result is that multiple unless it is too
large.

## Key results

- `fitsAt_roundingExponent`: the power of two in which a quotient is rounded
- `value_ofRatio`: the value of a rounded quotient
- `le_value_ofRatio`: rounding does not go below a number of 53 bits
- `value_ofInt`: integers of exactly 64 bits are rounded to multiples of 2048
- `int?_float_eq_none`: values beyond 64 signed bits have no integer view
-/

namespace LayeredConfig.Binary64

/-- The absolute value of a finite number; for infinity, the power of two behind the last one. -/
def value (x : Binary64) : ℚ := x.significand * 2 ^ x.exponent

variable {x : Binary64} {sign : Bool} {num den : Nat} {e : Int}

/-! ## Powers of two -/

/-- A significand is shifted in one direction, and the other shift is by nothing. -/
theorem scaled_eq (m : Nat) (e : Int) : scaled m e = (m * 2 ^ e.toNat, 2 ^ (-e).toNat) := by
  unfold scaled
  split
  · have hzero : (-e).toNat = 0 := by omega
    simp only [Nat.shiftLeft_eq, hzero, Nat.pow_zero]
  · have hzero : e.toNat = 0 := by omega
    simp only [Nat.shiftLeft_eq, hzero, Nat.pow_zero, Nat.one_mul, Nat.mul_one]

/-- So it is with the terms of a quotient. -/
theorem shifted_eq (num den : Nat) (e : Int) :
    shifted num den e = (num * 2 ^ (-e).toNat, den * 2 ^ e.toNat) := by
  unfold shifted
  split
  · have hzero : (-e).toNat = 0 := by omega
    simp only [Nat.shiftLeft_eq, hzero, Nat.pow_zero, Nat.mul_one]
  · have hzero : e.toNat = 0 := by omega
    simp only [Nat.shiftLeft_eq, hzero, Nat.pow_zero, Nat.mul_one]

/-- A power of two times what its fraction is divided by. -/
theorem two_zpow_mul (e : Int) : (2 : ℚ) ^ e * 2 ^ (-e).toNat = 2 ^ e.toNat := by
  rw [← zpow_natCast, ← zpow_natCast, ← zpow_add₀ two_ne_zero]
  congr 1
  omega

/-- The denominator of a fraction is not zero. -/
theorem fraction_pos (x : Binary64) : 0 < x.fraction.2 := by
  rw [fraction, scaled_eq]
  positivity

/-- The fraction of a number is its value. -/
theorem fraction_eq (x : Binary64) : (x.fraction.1 : ℚ) = x.value * x.fraction.2 := by
  rw [fraction, scaled_eq, value]
  push_cast
  rw [mul_assoc, two_zpow_mul]

/-! ## Encodings -/

/-- A magnitude that is encoded with a sign is found again. -/
theorem magnitude_ofMagnitude {m : Nat} (h : m < signBit) :
    (ofMagnitude sign m).magnitude = m := by
  unfold signBit at h
  unfold magnitude ofMagnitude signBit
  rw [UInt64.toNat_ofNat']
  split <;> omega

/-- A sign that is encoded with a magnitude is found again. -/
theorem negative_ofMagnitude (m : Nat) : (ofMagnitude sign m).negative = sign := by
  unfold negative ofMagnitude signBit
  rw [UInt64.toNat_ofNat']
  cases sign <;> simp <;> omega

/-- The value depends on the magnitude only. -/
theorem value_eq_of_magnitude_eq {y : Binary64} (h : x.magnitude = y.magnitude) :
    x.value = y.value := by
  unfold value significand exponent
  rw [h]

/-- Numbers of opposite signs have the same value. -/
theorem value_neg (x : Binary64) : x.neg.value = x.value :=
  value_eq_of_magnitude_eq (magnitude_ofMagnitude (Nat.mod_lt _ (by decide)))

/-- The opposite number has the opposite sign. -/
theorem negative_neg (x : Binary64) : x.neg.negative = !x.negative := negative_ofMagnitude _

/-- A zero of either sign has the value zero. -/
theorem value_eq_zero (h : x.isZero = true) : x.value = 0 := by
  have hmagnitude : x.magnitude = 0 := eq_of_beq h
  unfold value significand
  rw [hmagnitude]
  simp [leadingBit]

/-- The encoding of `r · 2 ^ e`.  The leading bit of `r` belongs to the exponent already, and where
`r` is a power of two too large it carries into the exponent. -/
theorem value_ofMagnitude {r k : Nat} (hr : r ≤ 2 * leadingBit) (hnormal : k = 0 ∨ leadingBit ≤ r)
    (hfinite : k * leadingBit + r ≤ infinityBits) :
    (ofMagnitude sign (k * leadingBit + r)).value = r * 2 ^ ((k : Int) - 1074) := by
  unfold leadingBit at hr hnormal hfinite ⊢
  unfold infinityBits at hfinite
  unfold value significand exponent leadingBit
  rw [magnitude_ofMagnitude (by unfold signBit; omega)]
  -- Below the leading bit the exponent is the least one, and `r` is all of the significand.
  by_cases hsmall : k * 0x10000000000000 + r < 0x10000000000000
  · have hk : k = 0 := by omega
    subst hk
    rw [Nat.zero_mul, Nat.zero_add] at hsmall ⊢
    rw [if_pos hsmall, if_pos hsmall]
    rfl
  · rw [if_neg hsmall, if_neg hsmall]
    -- A carry leaves the significand without further bits, under the next exponent.
    by_cases hcarry : r = 2 * 0x10000000000000
    · have hmod : (k * 0x10000000000000 + r) % 0x10000000000000 + 0x10000000000000 =
          0x10000000000000 := by omega
      have hdiv : (k * 0x10000000000000 + r) / 0x10000000000000 = k + 2 := by omega
      have hexp : ((k + 2 : Nat) : Int) - 1075 = (k : Int) - 1074 + 1 := by omega
      rw [hmod, hdiv, hexp, zpow_add_one₀ two_ne_zero, hcarry]
      push_cast
      ring
    · have hmod : (k * 0x10000000000000 + r) % 0x10000000000000 + 0x10000000000000 = r := by
        omega
      have hdiv : (k * 0x10000000000000 + r) / 0x10000000000000 = k + 1 := by omega
      have hexp : ((k + 1 : Nat) : Int) - 1075 = (k : Int) - 1074 := by omega
      rw [hmod, hdiv, hexp]

/-! ## The power of two of a quotient -/

/-- A quotient has 53 bits before the point when counted in `2 ^ e`, or fewer if `e` is the least
exponent. -/
structure FitsAt (q : ℚ) (e : Int) : Prop where
  least : -1074 ≤ e
  below : q < 2 * leadingBit * 2 ^ e
  above : e = -1074 ∨ leadingBit * 2 ^ e ≤ q

/-- Whole multiples of `2 ^ e` in a quotient. -/
theorem le_shifted_div_iff (num : Nat) (hden : 0 < den) (t : Nat) :
    t ≤ (shifted num den e).1 / (shifted num den e).2 ↔ (t : ℚ) * 2 ^ e ≤ num / den := by
  have hdown : (0 : ℚ) < 2 ^ (-e).toNat := by positivity
  have hden' : (0 : ℚ) < den := by exact_mod_cast hden
  have hcross : (t : ℚ) * (den * 2 ^ e.toNat) = t * 2 ^ e * den * 2 ^ (-e).toNat := by
    rw [← two_zpow_mul]
    ring
  rw [shifted_eq, Nat.le_div_iff_mul_le (by positivity), le_div_iff₀ hden',
    ← mul_le_mul_iff_of_pos_right hdown, ← hcross]
  norm_cast

/-- Up to a factor of two, the bit lengths of its terms give the size of a quotient. -/
theorem quotient_bounds (hnum : 0 < num) (hden : 0 < den) :
    (2 : ℚ) ^ ((num.log2 : Int) - den.log2 - 1) < num / den ∧
      (num : ℚ) / den < 2 ^ ((num.log2 : Int) - den.log2 + 1) := by
  have hden' : (0 : ℚ) < den := by exact_mod_cast hden
  have hnumLow : (2 : ℚ) ^ num.log2 ≤ num := by exact_mod_cast Nat.log2_self_le hnum.ne'
  have hnumHigh : (num : ℚ) < 2 ^ (num.log2 + 1) := by exact_mod_cast Nat.lt_log2_self
  have hdenLow : (2 : ℚ) ^ den.log2 ≤ den := by exact_mod_cast Nat.log2_self_le hden.ne'
  have hdenHigh : (den : ℚ) < 2 ^ (den.log2 + 1) := by exact_mod_cast Nat.lt_log2_self
  rw [lt_div_iff₀ hden', div_lt_iff₀ hden']
  -- The binary logarithms bound both numbers, and so they bound the quotient.
  constructor
  · have hexp : (num.log2 : Int) - den.log2 - 1 = num.log2 - (den.log2 + 1 : Nat) := by omega
    calc (2 : ℚ) ^ ((num.log2 : Int) - den.log2 - 1) * den
        < 2 ^ ((num.log2 : Int) - den.log2 - 1) * 2 ^ (den.log2 + 1) := by gcongr
      _ = 2 ^ num.log2 := by
        rw [hexp, zpow_sub₀ two_ne_zero, zpow_natCast, zpow_natCast]
        exact div_mul_cancel₀ _ (by positivity)
      _ ≤ num := hnumLow
  · have hexp : (num.log2 : Int) - den.log2 + 1 = (num.log2 + 1 : Nat) - den.log2 := by omega
    calc (num : ℚ) < 2 ^ (num.log2 + 1) := hnumHigh
      _ = 2 ^ ((num.log2 : Int) - den.log2 + 1) * 2 ^ den.log2 := by
        rw [hexp, zpow_sub₀ two_ne_zero, zpow_natCast, zpow_natCast]
        exact (div_mul_cancel₀ _ (by positivity)).symm
      _ ≤ 2 ^ ((num.log2 : Int) - den.log2 + 1) * den := by gcongr

/-- The leading bit is a power of two itself. -/
theorem leadingBit_mul_zpow (e : Int) : (leadingBit : ℚ) * 2 ^ e = 2 ^ (e + 52) := by
  have hbit : (leadingBit : ℚ) = 2 ^ (52 : Int) := by norm_num [leadingBit]
  rw [hbit, ← zpow_add₀ two_ne_zero, add_comm]

/-- A quotient has 53 bits before the point when it is counted in the unit that it is rounded to. -/
theorem fitsAt_roundingExponent (hnum : 0 < num) (hden : 0 < den) :
    FitsAt (num / den) (roundingExponent num den) := by
  obtain ⟨hlow, hhigh⟩ := quotient_bounds hnum hden
  have hdouble (e : Int) : (2 * leadingBit * 2 ^ e : ℚ) = 2 ^ (e + 53) := by
    have hexp : e + 53 = e + 52 + 1 := by omega
    rw [hexp, zpow_add_one₀ two_ne_zero, ← leadingBit_mul_zpow]
    ring
  unfold roundingExponent
  -- The bit lengths leave two exponents to choose from, of which the lesser one comes first.
  generalize hfirst : max (-1074) ((num.log2 : Int) - den.log2 - 53) = first
  have hiff := le_shifted_div_iff (e := first) num hden (2 * leadingBit)
  push_cast at hiff
  simp only [hiff]
  split
  · next hlong =>
    -- The first exponent leaves 54 bits, so the next one leaves 53.
    refine ⟨by omega, ?_, .inr ?_⟩
    · rw [hdouble]
      exact hhigh.trans_le (zpow_le_zpow_right₀ one_le_two (by omega))
    · rw [zpow_add_one₀ two_ne_zero]
      linarith
  · next hshort =>
    refine ⟨by omega, not_le.mp hshort, ?_⟩
    by_cases hleast : first = -1074
    · exact .inl hleast
    · have hexp : first + 52 = (num.log2 : Int) - den.log2 - 1 := by omega
      rw [leadingBit_mul_zpow, hexp]
      exact .inr hlow.le

/-! ## Rounded quotients -/

/-- The nearest natural is one of the two around the fraction, and the even one at a tie. -/
theorem roundEven_cases (num den : Nat) :
    (roundEven num den = num / den ∧ 2 * (num % den) ≤ den ∧
        (2 * (num % den) = den → num / den % 2 = 0)) ∨
      (roundEven num den = num / den + 1 ∧ den ≤ 2 * (num % den) ∧
        (2 * (num % den) = den → num / den % 2 = 1)) := by
  unfold roundEven
  dsimp only
  split
  · next hlt =>
    rw [Nat.compare_eq_lt] at hlt
    exact .inl ⟨rfl, by omega, by omega⟩
  · next heq =>
    rw [Nat.compare_eq_eq] at heq
    split
    · exact .inl ⟨rfl, by omega, by omega⟩
    · exact .inr ⟨rfl, by omega, by omega⟩
  · next hgt =>
    rw [Nat.compare_eq_gt] at hgt
    exact .inr ⟨rfl, by omega, by omega⟩

/-- The multiple of its power of two to which a quotient is rounded. -/
def multiple (num den : Nat) : Nat :=
  roundEven (shifted num den (roundingExponent num den)).1
    (shifted num den (roundingExponent num den)).2

/-- The multiple has 53 bits, or is the next power of two. -/
theorem multiple_le (hnum : 0 < num) (hden : 0 < den) : multiple num den ≤ 2 * leadingBit := by
  have hbelow := (fitsAt_roundingExponent hnum hden).below
  have hquot := (le_shifted_div_iff (e := roundingExponent num den) num hden
    (2 * leadingBit)).not
  push_cast at hquot
  -- The whole part has 53 bits at most, and rounding adds one at most.
  have hlt := not_le.mp (hquot.mpr (not_le.mpr hbelow))
  have hcases := roundEven_cases (shifted num den (roundingExponent num den)).1
    (shifted num den (roundingExponent num den)).2
  unfold multiple
  omega

/-- A whole number of its powers of two that is no more than the quotient is no more than the
multiple. -/
theorem le_multiple (hden : 0 < den) {t : Nat}
    (h : (t : ℚ) * 2 ^ roundingExponent num den ≤ num / den) : t ≤ multiple num den := by
  have hquot := (le_shifted_div_iff num hden t).mpr h
  have hcases := roundEven_cases (shifted num den (roundingExponent num den)).1
    (shifted num den (roundingExponent num den)).2
  unfold multiple
  omega

/-- Above the least exponent the multiple has its leading bit. -/
theorem leadingBit_le_multiple (hnum : 0 < num) (hden : 0 < den)
    (h : roundingExponent num den ≠ -1074) : leadingBit ≤ multiple num den :=
  le_multiple hden ((fitsAt_roundingExponent hnum hden).above.resolve_left h)

/-- The largest power of two, in the units of the last exponents. -/
theorem two_pow_1024 : (2 : ℚ) ^ 1024 = leadingBit * 2 ^ (972 : Int) := by
  rw [leadingBit_mul_zpow]
  exact (zpow_natCast 2 1024).symm

/-- The encoding of infinity follows on the last finite one. -/
theorem value_infinity : (ofMagnitude sign infinityBits).value = 2 ^ 1024 := by
  have hbits : 2046 * leadingBit + leadingBit = infinityBits := by decide
  have h : (ofMagnitude sign (2046 * leadingBit + leadingBit)).value = _ :=
    value_ofMagnitude (by decide) (.inr le_rfl) (by decide)
  rw [hbits] at h
  exact h.trans two_pow_1024.symm

/-- Encodings up to that of infinity stand for at most the value of infinity. -/
theorem mul_zpow_le_two_pow_1024 {k m : Nat} (hm : m ≤ 2 * leadingBit)
    (hnormal : k = 0 ∨ leadingBit ≤ m) (h : k * leadingBit + m ≤ infinityBits) :
    (m : ℚ) * 2 ^ ((k : Int) - 1074) ≤ 2 ^ 1024 := by
  -- Only the last exponent comes close to the bound, and it leaves room for the least significand
  -- alone.
  have hcases : k = 2046 ∧ m ≤ leadingBit ∨ k ≤ 2045 := by
    unfold leadingBit infinityBits at *
    omega
  rw [two_pow_1024]
  obtain ⟨rfl, hm⟩ | hk := hcases
  · have hexp : ((2046 : Nat) : Int) - 1074 = 972 := rfl
    rw [hexp]
    gcongr
  · have hlast : (972 : Int) = 971 + 1 := rfl
    calc (m : ℚ) * 2 ^ ((k : Int) - 1074) ≤ (2 * leadingBit : Nat) * 2 ^ (971 : Int) := by
          gcongr
          · exact one_le_two
          · omega
      _ = leadingBit * 2 ^ (972 : Int) := by
          rw [hlast, zpow_add_one₀ two_ne_zero]
          generalize (2 : ℚ) ^ (971 : Int) = p
          push_cast
          ring

/-- Encodings beyond that of infinity would stand for more. -/
theorem two_pow_1024_le_mul_zpow {k m : Nat} (hm : m ≤ 2 * leadingBit)
    (hnormal : k = 0 ∨ leadingBit ≤ m) (h : infinityBits < k * leadingBit + m) :
    (2 : ℚ) ^ 1024 ≤ m * 2 ^ ((k : Int) - 1074) := by
  have hcases : leadingBit ≤ m ∧ 2046 ≤ k := by
    unfold leadingBit infinityBits at *
    omega
  rw [two_pow_1024]
  gcongr
  · exact hcases.1
  · exact one_le_two
  · omega

/-- What a quotient is rounded to, unless that is infinite. -/
theorem value_ofRatio (hnum : 0 < num) (hden : 0 < den) :
    (ofRatio sign num den).value =
      min (2 ^ 1024) ((multiple num den : ℚ) * 2 ^ roundingExponent num den) := by
  have hle := multiple_le hnum hden
  have hnormal := leadingBit_le_multiple hnum hden
  have hleast := (fitsAt_roundingExponent hnum hden).least
  have hratio : ofRatio sign num den = ofMagnitude sign (min infinityBits
      ((roundingExponent num den + 1074).toNat * leadingBit + multiple num den)) :=
    if_neg hnum.ne'
  rw [hratio]
  generalize multiple num den = m at hle hnormal
  generalize roundingExponent num den = e at hnormal hleast
  obtain ⟨k, rfl⟩ : ∃ k : Nat, e = k - 1074 := ⟨(e + 1074).toNat, by omega⟩
  have hk : ((k : Int) - 1074 + 1074).toNat = k := by omega
  have hnormal : k = 0 ∨ leadingBit ≤ m := by
    by_cases hzero : k = 0
    · exact .inl hzero
    · exact .inr (hnormal (by omega))
  rw [hk]
  -- The encoding is cut off at that of infinity just where the multiple passes the value of
  -- infinity.
  by_cases hfinite : k * leadingBit + m ≤ infinityBits
  · rw [Nat.min_eq_right hfinite, value_ofMagnitude hle hnormal hfinite,
      min_eq_right (mul_zpow_le_two_pow_1024 hle hnormal hfinite)]
  · have hbeyond := not_le.mp hfinite
    rw [Nat.min_eq_left hbeyond.le, value_infinity,
      min_eq_left (two_pow_1024_le_mul_zpow hle hnormal hbeyond)]

/-- A quotient keeps its sign when it is rounded. -/
theorem negative_ofRatio (num den : Nat) : (ofRatio sign num den).negative = sign := by
  unfold ofRatio
  split
  · exact negative_ofMagnitude _
  · exact negative_ofMagnitude _

/-- Rounding does not go below a number of 53 bits. -/
theorem le_value_ofRatio (hnum : 0 < num) (hden : 0 < den) {m k : Nat} (hm : m < 2 * leadingBit)
    (hk : k ≤ 971) (h : (m : ℚ) * 2 ^ k ≤ num / den) :
    (m : ℚ) * 2 ^ k ≤ (ofRatio sign num den).value := by
  have hm' : (m : ℚ) ≤ 2 * leadingBit := by exact_mod_cast hm.le
  rw [value_ofRatio hnum hden, le_min_iff]
  constructor
  · have hsum : 1024 = 53 + 971 := rfl
    have hbit : (2 * leadingBit : ℚ) = 2 ^ 53 := by norm_num [leadingBit]
    rw [hbit] at hm'
    rw [hsum, pow_add]
    gcongr
    exact one_le_two
  · rw [← zpow_natCast] at h ⊢
    by_cases hexp : roundingExponent num den ≤ k
    · -- The number is a whole multiple of the power of two, too.
      obtain ⟨i, hi⟩ : ∃ i : Nat, (k : Int) = i + roundingExponent num den :=
        ⟨(k - roundingExponent num den).toNat, by omega⟩
      have hwhole : (m : ℚ) * 2 ^ (k : Int) = (m * 2 ^ i : Nat) * 2 ^ roundingExponent num den := by
        rw [hi, zpow_add₀ two_ne_zero, zpow_natCast]
        push_cast
        ring
      rw [hwhole] at h ⊢
      gcongr
      exact le_multiple hden h
    -- The unit is greater than that of the number, so even the least multiple of 53 bits is.
    · have hnormal := leadingBit_le_multiple hnum hden (by omega)
      calc (m : ℚ) * 2 ^ (k : Int) ≤ 2 * leadingBit * 2 ^ (k : Int) := by gcongr
        _ = leadingBit * 2 ^ ((k : Int) + 1) := by
          rw [zpow_add_one₀ two_ne_zero]
          ring
        _ ≤ multiple num den * 2 ^ roundingExponent num den := by
          gcongr
          · exact one_le_two
          · omega

/-- Rounding a product does not go below a number of 53 bits either. -/
theorem le_value_mul {x y : Binary64} {m k : Nat} (hm : 0 < m) (hfew : m < 2 * leadingBit)
    (hk : k ≤ 971) (h : (m : ℚ) * 2 ^ k ≤ x.value * y.value) :
    (m : ℚ) * 2 ^ k ≤ (x.mul y).value := by
  have hx : (0 : ℚ) < x.fraction.2 := by exact_mod_cast x.fraction_pos
  have hy : (0 : ℚ) < y.fraction.2 := by exact_mod_cast y.fraction_pos
  have hfraction : ((x.fraction.1 * y.fraction.1 : Nat) : ℚ) / (x.fraction.2 * y.fraction.2 : Nat) =
      x.value * y.value := by
    push_cast
    rw [fraction_eq, fraction_eq, div_eq_iff (by positivity)]
    ring
  -- A product that is not below a positive number is not zero.
  have hpos : (0 : ℚ) < m * 2 ^ k := by positivity
  have hnum : 0 < x.fraction.1 * y.fraction.1 := by
    rw [Nat.pos_iff_ne_zero]
    intro hzero
    rw [hzero, Nat.cast_zero, zero_div] at hfraction
    linarith
  refine le_value_ofRatio hnum (Nat.mul_pos x.fraction_pos y.fraction_pos) hfew hk ?_
  rw [hfraction]
  exact h

/-! ## Integers -/

/-- An integer that is not below zero has no minus sign. -/
theorem negative_ofInt {n : Int} (h : 0 ≤ n) : (ofInt n).negative = false := by
  rw [ofInt, negative_ofRatio, decide_eq_false (by omega)]

theorem value_ofInt_zero : (ofInt 0).value = 0 := value_eq_zero (by decide)

/-- Rounding an integer does not go below a number of 53 bits. -/
theorem le_value_ofInt {n : Int} {m k : Nat} (hm : 0 < m) (hfew : m < 2 * leadingBit)
    (hk : k ≤ 971) (h : m * 2 ^ k ≤ n.natAbs) : (m : ℚ) * 2 ^ k ≤ (ofInt n).value := by
  have hpos : 0 < m * 2 ^ k := by positivity
  refine le_value_ofRatio (by omega) Nat.one_pos hfew hk ?_
  rw [Nat.cast_one, div_one]
  exact_mod_cast h

/-- Integers of 64 bits, the highest one set, are counted in units of 2048. -/
theorem roundingExponent_of_log2 {n : Nat} (h : n.log2 = 63) : roundingExponent n 1 = 11 := by
  have hne : n ≠ 0 := by
    rintro rfl
    exact absurd h (by decide)
  have hlow := Nat.log2_self_le hne
  rw [h] at hlow
  have hfirst : max (-1074) ((n.log2 : Int) - (Nat.log2 1 : Nat) - 53) = 10 := by
    rw [h]
    rfl
  have hlong : 2 * leadingBit ≤ n / 1024 := by
    unfold leadingBit
    omega
  unfold roundingExponent
  rw [hfirst]
  exact if_pos hlong

/-- Integers of exactly 64 bits are rounded to multiples of 2048. -/
theorem value_ofInt {n : Int} (hlow : 2 ^ 63 ≤ n.natAbs) (hhigh : n.natAbs < 2 ^ 64) :
    (ofInt n).value = roundEven n.natAbs 2048 * 2048 := by
  have hlog : n.natAbs.log2 = 63 := (Nat.log2_eq_iff (by omega)).mpr ⟨hlow, hhigh⟩
  have hexp := roundingExponent_of_log2 hlog
  have hmultiple : multiple n.natAbs 1 = roundEven n.natAbs 2048 := by
    rw [multiple, hexp]
    rfl
  have hunit : (2 : ℚ) ^ (11 : Int) = 2048 := by norm_num
  have hcases := roundEven_cases n.natAbs 2048
  have hle : roundEven n.natAbs 2048 ≤ 2 ^ 53 := by omega
  -- They are far from infinite.
  have hsmall : (roundEven n.natAbs 2048 : ℚ) * 2048 ≤ 2 ^ 1024 := by
    calc (roundEven n.natAbs 2048 : ℚ) * 2048 ≤ (2 ^ 53 : Nat) * 2048 := by gcongr
      _ = 2 ^ 64 := by norm_num
      _ ≤ 2 ^ 1024 := pow_le_pow_right₀ one_le_two (by omega)
  rw [ofInt, value_ofRatio (by omega) Nat.one_pos, hexp, hmultiple, hunit, min_eq_right hsmall]

/-- A tie goes to the power of two. -/
theorem value_ofInt_near {n : Int} (hlow : 2 ^ 63 ≤ n.natAbs) (hhigh : n.natAbs ≤ 2 ^ 63 + 1024) :
    (ofInt n).value = 2 ^ 63 := by
  have hcases := roundEven_cases n.natAbs 2048
  have hround : roundEven n.natAbs 2048 = 2 ^ 52 := by omega
  rw [value_ofInt hlow (by omega), hround]
  norm_num

/-- Beyond the tie integers are rounded to more than the power of two. -/
theorem lt_value_ofInt {n : Int} (hlow : 2 ^ 63 + 1024 < n.natAbs) (hhigh : n.natAbs < 2 ^ 64) :
    2 ^ 63 < (ofInt n).value := by
  have hcases := roundEven_cases n.natAbs 2048
  have hround : 2 ^ 52 < roundEven n.natAbs 2048 := by omega
  have hround' : (2 : ℚ) ^ 52 < roundEven n.natAbs 2048 := by exact_mod_cast hround
  rw [value_ofInt (by omega) hhigh]
  linarith

/-! ## Integer views -/

/-- The integer that a number equals is its fraction, and not below zero without a minus sign. -/
theorem fraction_of_toInt? {i : Int} (h : x.toInt? = some i) :
    i.natAbs * x.fraction.2 = x.fraction.1 ∧ (x.negative = false → 0 ≤ i) := by
  unfold toInt? at h
  dsimp only at h
  split at h
  · split at h
    · next hwhole =>
      have hmul := Nat.div_mul_cancel (Nat.dvd_of_mod_eq_zero hwhole)
      generalize x.fraction.1 / x.fraction.2 = q at h hmul
      have hi : i.natAbs = q ∧ (x.negative = false → 0 ≤ i) := by
        cases h
        split <;> simp_all
      rw [hi.1]
      exact ⟨hmul, hi.2⟩
    · exact nomatch h
  · exact nomatch h

/-- The integer that a number equals has the value of the number. -/
theorem natAbs_of_toInt? {i : Int} (h : x.toInt? = some i) : (i.natAbs : ℚ) = x.value := by
  have hpos : (0 : ℚ) < x.fraction.2 := by exact_mod_cast x.fraction_pos
  have hmul : (i.natAbs : ℚ) * x.fraction.2 = x.value * x.fraction.2 := by
    rw [← fraction_eq]
    exact_mod_cast (fraction_of_toInt? h).1
  exact mul_right_cancel₀ hpos.ne' hmul

/-- A finite number of integral value equals an integer. -/
theorem toInt?_of_value {n : Nat} (hfinite : x.isFinite = true) (h : x.value = n) :
    x.toInt? = some (if x.negative then -(n : Int) else n) := by
  have hmul : x.fraction.1 = n * x.fraction.2 := by
    have hcast := x.fraction_eq
    rw [h] at hcast
    exact_mod_cast hcast
  unfold toInt?
  dsimp only
  rw [if_pos hfinite, hmul, Nat.mul_mod_left, if_pos rfl, Nat.mul_div_cancel _ x.fraction_pos]

end LayeredConfig.Binary64

namespace LayeredConfig.Value

variable {x : Binary64}

/-- Beyond `2 ^ 63`, or at it without a minus sign, a float has no integer view. -/
theorem int?_float_eq_none (h : 2 ^ 63 < x.value ∨ x.negative = false ∧ 2 ^ 63 ≤ x.value) :
    (Value.float x).int? = none := by
  rw [int?]
  cases hi : x.toInt? with
  | none => rfl
  | some i =>
    have habs := Binary64.natAbs_of_toInt? hi
    rw [← habs] at h
    -- The float is an integer, but one out of range.
    have hout : ¬(-9223372036854775808 ≤ i ∧ i < 9223372036854775808) := by
      rcases h with hlt | ⟨hsign, hle⟩
      · have hlt : 2 ^ 63 < i.natAbs := by exact_mod_cast hlt
        omega
      · have hle : 2 ^ 63 ≤ i.natAbs := by exact_mod_cast hle
        have hnonneg := (Binary64.fraction_of_toInt? hi).2 hsign
        omega
    exact if_neg hout

/-- A float of integral value within 64 signed bits is that integer. -/
theorem int?_float_of_value {n : Nat} (hfinite : x.isFinite = true) (h : x.value = n) :
    (Value.float x).int? = Int64.ofInt? (if x.negative then -(n : Int) else n) := by
  rw [int?, Binary64.toInt?_of_value hfinite h]
  rfl

end LayeredConfig.Value
