import LayeredConfig.Proofs.Number.Rounding

/-!
# Binary64 numbers as integers

The number that 64 bits stand for is read off their fields: a sign, a biased exponent and a
fraction.  A float is turned into an integer by a test and a cast.  The test asks whether anything
stands behind the point, and compares with the floats nearest to the ends of the integers; the cast
drops what stands behind the point and keeps within the ends.

## Key results

- `Binary64.toRat?_eq`: the number that the fields stand for
- `Binary64.toInt?_eq_some_iff`: the integers are found exactly
- `Binary64.atMost_iff` and `Binary64.below_iff`: encodings compare as their numbers do
- `Binary64.castInt?_eq`: behind the test, the cast changes nothing
-/

namespace LayeredConfig.Binary64

variable {x y : Binary64} {i : Int}

/-! ## Numbers -/

/-- The sign in the highest bit. -/
def signField (x : Binary64) : Nat := x.bits.toNat / 2 ^ 63

/-- The eleven bits of the biased exponent. -/
def exponentField (x : Binary64) : Nat := x.bits.toNat / 2 ^ 52 % 2 ^ 11

/-- The 52 bits of the fraction. -/
def fractionField (x : Binary64) : Nat := x.bits.toNat % 2 ^ 52

/-- The number that the fields stand for.  The greatest exponent is that of infinities and NaNs, and
the least one that of the numbers whose significand has no leading one. -/
def toRat? (x : Binary64) : Option ℚ :=
  if x.exponentField = 2047 then none
  else if x.exponentField = 0 then
    some ((-1) ^ x.signField * ((x.fractionField : ℚ) / 2 ^ 52 * 2 ^ (-1022 : Int)))
  else some ((-1) ^ x.signField * ((1 + (x.fractionField : ℚ) / 2 ^ 52) *
    2 ^ ((x.exponentField : Int) - 1023)))

/-- The exponent counts how often the leading bit is in the magnitude. -/
theorem exponentField_eq (x : Binary64) : x.exponentField = x.magnitude / leadingBit := by
  unfold exponentField magnitude signBit leadingBit
  omega

/-- The fraction is what the leading bits leave of the magnitude. -/
theorem fractionField_eq (x : Binary64) : x.fractionField = x.magnitude % leadingBit := by
  unfold fractionField magnitude signBit leadingBit
  omega

/-- An encoding is finite unless its exponent is the greatest one. -/
theorem isFinite_iff : x.isFinite = true ↔ x.exponentField ≠ 2047 := by
  have hlt : x.magnitude < signBit := Nat.mod_lt _ (by decide)
  rw [exponentField_eq, isFinite, decide_eq_true_iff]
  unfold infinityBits leadingBit
  unfold signBit at hlt
  omega

/-- The value with its sign. -/
def signed (x : Binary64) : ℚ := if x.negative then -x.value else x.value

theorem value_nonneg (x : Binary64) : 0 ≤ x.value := by
  unfold value
  positivity

/-- Values are the absolute values of numbers. -/
theorem abs_signed (x : Binary64) : |x.signed| = x.value := by
  rw [signed]
  split
  · rw [abs_neg, abs_of_nonneg x.value_nonneg]
  · exact abs_of_nonneg x.value_nonneg

/-- The highest bit says whether there is a minus sign. -/
theorem neg_one_pow_signField (x : Binary64) (q : ℚ) :
    (-1) ^ x.signField * q = if x.negative then -q else q := by
  have hlt := x.bits.toNat_lt
  unfold negative signBit
  by_cases h : 0x8000000000000000 ≤ x.bits.toNat
  · have hone : x.signField = 1 := by
      unfold signField
      omega
    simp [hone, h]
  · have hzero : x.signField = 0 := by
      unfold signField
      omega
    simp [hzero, h]

/-- The value of a finite encoding, from its fields. -/
theorem value_eq_of_fields (x : Binary64) :
    x.value = if x.exponentField = 0 then (x.fractionField : ℚ) / 2 ^ 52 * 2 ^ (-1022 : Int)
      else (1 + (x.fractionField : ℚ) / 2 ^ 52) * 2 ^ ((x.exponentField : Int) - 1023) := by
  have hbit : (leadingBit : ℚ) = 2 ^ 52 := by norm_num [leadingBit]
  rw [fractionField_eq, exponentField_eq, value, significand, exponent]
  by_cases hsmall : x.magnitude < leadingBit
  -- Without a leading one the fraction is the significand, counted in the least unit.
  · have hexp : (-1022 : Int) = -1074 + 52 := rfl
    rw [if_pos hsmall, if_pos hsmall, if_pos (Nat.div_eq_of_lt hsmall), Nat.mod_eq_of_lt hsmall,
      hexp, ← leadingBit_mul_zpow, hbit]
    generalize (2 : ℚ) ^ (-1074 : Int) = unit
    ring
  -- With one the significand is the fraction and the leading bit.
  · have hne : x.magnitude / leadingBit ≠ 0 := by
      unfold leadingBit at hsmall ⊢
      omega
    have hexp : ((x.magnitude / leadingBit : Nat) : Int) - 1023 =
        (x.magnitude / leadingBit : Nat) - 1075 + 52 := by omega
    rw [if_neg hsmall, if_neg hsmall, if_neg hne, hexp, ← leadingBit_mul_zpow, Nat.cast_add, hbit]
    ring

/-- The fields of a finite encoding stand for its value with its sign. -/
theorem toRat?_eq (x : Binary64) : x.toRat? = if x.isFinite then some x.signed else none := by
  simp only [toRat?, isFinite_iff, ite_not, neg_one_pow_signField, signed, value_eq_of_fields]
  congr 1
  split <;> rfl

/-! ## Integers -/

/-- Whether a number is finite and nothing stands behind its point. -/
def isWhole (x : Binary64) : Bool := x.isFinite && x.fraction.1 % x.fraction.2 == 0

/-- What stands before the point. -/
def truncated (x : Binary64) : Int :=
  if x.negative then -((x.fraction.1 / x.fraction.2 : Nat) : Int)
  else (x.fraction.1 / x.fraction.2 : Nat)

/-- A number is whole if it is finite and the division leaves no rest. -/
theorem isWhole_iff :
    x.isWhole = true ↔ x.isFinite = true ∧ x.fraction.1 % x.fraction.2 = 0 := by
  rw [isWhole, Bool.and_eq_true, beq_iff_eq]

/-- What is taken for an integer is what stands before the point of a whole number. -/
theorem toInt?_eq (x : Binary64) : x.toInt? = if x.isWhole then some x.truncated else none := by
  simp only [isWhole_iff, ite_and]
  rfl

/-- A whole number is what stands before its point. -/
theorem signed_of_isWhole (h : x.isWhole = true) : x.signed = x.truncated := by
  have hpos : (0 : ℚ) < x.fraction.2 := by exact_mod_cast x.fraction_pos
  have hmul := Nat.div_mul_cancel (Nat.dvd_of_mod_eq_zero (isWhole_iff.mp h).2)
  have hvalue : x.value = (x.fraction.1 / x.fraction.2 : Nat) := by
    refine mul_right_cancel₀ hpos.ne' ?_
    rw [← fraction_eq]
    exact_mod_cast hmul.symm
  rw [signed, truncated, hvalue]
  generalize x.fraction.1 / x.fraction.2 = n
  split <;> simp

/-- A finite number that equals an integer is whole. -/
theorem isWhole_of_signed (hfinite : x.isFinite = true) (h : x.signed = i) : x.isWhole = true := by
  have habs : x.value = i.natAbs := by
    rw [← abs_signed, h, Nat.cast_natAbs, Int.cast_abs]
  have hmul : x.fraction.1 = i.natAbs * x.fraction.2 := by
    have hfraction := x.fraction_eq
    rw [habs] at hfraction
    exact_mod_cast hfraction
  rw [isWhole_iff, hmul, Nat.mul_mod_left]
  exact ⟨hfinite, rfl⟩

/-- A number is taken for an integer just if its fields stand for that integer. -/
theorem toInt?_eq_some_iff : x.toInt? = some i ↔ x.toRat? = some (i : ℚ) := by
  rw [toInt?_eq, toRat?_eq]
  constructor
  · intro h
    split at h
    · next hwhole =>
      rw [if_pos (isWhole_iff.mp hwhole).1, signed_of_isWhole hwhole, Option.some.inj h]
    · exact nomatch h
  · intro h
    split at h
    · next hfinite =>
      have hsigned : x.signed = i := Option.some.inj h
      have hwhole := isWhole_of_signed hfinite hsigned
      rw [signed_of_isWhole hwhole] at hsigned
      rw [if_pos hwhole, Int.cast_inj.mp hsigned]
    · exact nomatch h

/-- Both zeros are the integer zero. -/
theorem toInt?_of_isZero (h : x.isZero = true) : x.toInt? = some 0 := by
  have hmagnitude : x.magnitude = 0 := eq_of_beq h
  have hfinite : x.isFinite = true := by
    rw [isFinite, hmagnitude]
    rfl
  have hsigned : x.signed = 0 := by
    rw [signed, value_eq_zero h, neg_zero, ite_self]
  rw [toInt?_eq_some_iff, toRat?_eq, if_pos hfinite, hsigned, Int.cast_zero]

/-- Infinities and NaNs are no integers. -/
theorem toInt?_of_not_isFinite (h : x.isFinite = false) : x.toInt? = none := by
  rw [toInt?, h]
  rfl

/-! ## Order -/

/-- Where the number of an encoding stands in the order of all of them.  Both zeros share a
place. -/
def rank (x : Binary64) : Int := if x.negative then -x.magnitude else x.magnitude

/-- Comparison of numbers.  A NaN compares with nothing. -/
def atMost (x y : Binary64) : Bool := !x.isNaN && !y.isNaN && decide (x.rank ≤ y.rank)

/-- Strict comparison of numbers. -/
def below (x y : Binary64) : Bool := !x.isNaN && !y.isNaN && decide (x.rank < y.rank)

/-- The exponent counts how often the leading bit is passed, and the significand goes on from
there. -/
theorem magnitude_eq (x : Binary64) : ∃ k : Nat, x.exponent = k - 1074 ∧
    x.magnitude = k * leadingBit + x.significand ∧ x.significand < 2 * leadingBit ∧
      (k = 0 ∨ leadingBit ≤ x.significand) := by
  unfold exponent significand leadingBit
  by_cases hsmall : x.magnitude < 0x10000000000000
  · rw [if_pos hsmall, if_pos hsmall]
    exact ⟨0, rfl, by omega, by omega, .inl rfl⟩
  · rw [if_neg hsmall, if_neg hsmall]
    exact ⟨x.magnitude / 0x10000000000000 - 1, by omega, by omega, by omega, .inr (by omega)⟩

/-- A greater magnitude encodes a greater value. -/
theorem value_lt_value (h : x.magnitude < y.magnitude) : x.value < y.value := by
  obtain ⟨k, hk, hx, hxlt, hxlead⟩ := x.magnitude_eq
  obtain ⟨l, hl, hy, hylt, hylead⟩ := y.magnitude_eq
  have hkl : k = l ∧ x.significand < y.significand ∨ k < l ∧ leadingBit ≤ y.significand := by
    unfold leadingBit at *
    omega
  rw [value, value, hk, hl]
  -- Of two exponents the greater one wins, since its significand has the leading bit.
  rcases hkl with ⟨rfl, hlt⟩ | ⟨hlt, hlead⟩
  · gcongr
  · calc (x.significand : ℚ) * 2 ^ ((k : Int) - 1074)
        < (2 * leadingBit : Nat) * 2 ^ ((k : Int) - 1074) := by gcongr
      _ = leadingBit * 2 ^ ((k : Int) - 1074 + 1) := by
          rw [zpow_add_one₀ two_ne_zero]
          push_cast
          ring
      _ ≤ y.significand * 2 ^ ((l : Int) - 1074) := by
          gcongr
          · exact one_le_two
          · omega

/-- Values are in the order of magnitudes. -/
theorem value_le_value_iff : x.value ≤ y.value ↔ x.magnitude ≤ y.magnitude := by
  constructor
  · intro h
    by_contra hlt
    exact absurd h (not_le.mpr (value_lt_value (not_le.mp hlt)))
  · intro h
    rcases h.lt_or_eq with hlt | heq
    · exact (value_lt_value hlt).le
    · exact (value_eq_of_magnitude_eq heq).le

/-- With their signs, numbers are in the order of their encodings. -/
theorem signed_le_signed_iff : x.signed ≤ y.signed ↔ x.rank ≤ y.rank := by
  have hx := value_le_value_iff (x := x) (y := zero)
  have hy := value_le_value_iff (x := y) (y := zero)
  have hzero : zero.value = 0 := value_eq_zero rfl
  have hmagnitude : zero.magnitude = 0 := rfl
  rw [hzero, hmagnitude] at hx hy
  unfold signed rank
  -- Between equal signs the magnitudes decide, and else only zeros can be out of the order of
  -- signs.
  cases x.negative <;> cases y.negative <;>
    simp only [Bool.false_eq_true, if_false, if_true, neg_le_neg_iff]
  · exact_mod_cast value_le_value_iff
  · -- At most a number with a minus sign: both are zero.
    have hvx := x.value_nonneg
    have hvy := y.value_nonneg
    constructor
    · intro h
      have := hx.mp (by linarith)
      have := hy.mp (by linarith)
      omega
    · intro h
      have := hx.mpr (by omega)
      have := hy.mpr (by omega)
      linarith
  · have hvx := x.value_nonneg
    have hvy := y.value_nonneg
    constructor
    · omega
    · intro h
      linarith
  · exact_mod_cast value_le_value_iff

/-- A finite encoding is no NaN. -/
theorem isNaN_of_isFinite (h : x.isFinite = true) : x.isNaN = false := by
  unfold isFinite at h
  unfold isNaN
  rw [decide_eq_true_iff] at h
  rw [decide_eq_false_iff_not]
  omega

/-- Finite encodings compare as their numbers do. -/
theorem atMost_iff (hx : x.isFinite = true) (hy : y.isFinite = true) :
    x.atMost y = true ↔ x.signed ≤ y.signed := by
  rw [atMost, isNaN_of_isFinite hx, isNaN_of_isFinite hy, signed_le_signed_iff]
  simp

/-- So it is with strict comparison. -/
theorem below_iff (hx : x.isFinite = true) (hy : y.isFinite = true) :
    x.below y = true ↔ x.signed < y.signed := by
  rw [below, isNaN_of_isFinite hx, isNaN_of_isFinite hy,
    lt_iff_lt_of_le_iff_le signed_le_signed_iff]
  simp

/-! ## Casting -/

/-- The integer of 64 bits nearest to what stands before the point; zero for a NaN. -/
def toInt64 (x : Binary64) : Int64 :=
  if x.isNaN then 0
  else .ofInt (max (-9223372036854775808) (min 9223372036854775807 x.truncated))

/-- Test whether a number is an integer of 64 bits, and cast it.  The ends of the integers are
floats here, and the upper one is rounded up to the first number that is out of range. -/
def castInt? (x : Binary64) : Option Int64 :=
  if x.isWhole && (ofInt Int64.minValue.toInt).atMost x && x.below (ofInt Int64.maxValue.toInt) then
    some x.toInt64
  else none

/-- The least integer is a float. -/
theorem signed_minValue : (ofInt Int64.minValue.toInt).signed = -2 ^ 63 := by
  have hvalue := value_ofInt_near (n := Int64.minValue.toInt) (by decide) (by decide)
  rw [signed, hvalue]
  exact if_pos rfl

/-- The greatest integer is rounded up to the first number beyond it. -/
theorem signed_maxValue : (ofInt Int64.maxValue.toInt).signed = 2 ^ 63 := by
  have hround : ofInt Int64.maxValue.toInt = ofInt (2 ^ 63) := by decide
  have hvalue := value_ofInt_near (n := 2 ^ 63) (by decide) (by decide)
  rw [hround, signed, hvalue]
  exact if_neg (by decide)

/-- A number that passes the test is cast to the integer that it is. -/
theorem castInt?_eq (x : Binary64) : x.castInt? = x.toInt?.bind Int64.ofInt? := by
  rw [toInt?_eq]
  cases hwhole : x.isWhole with
  | false =>
    rw [castInt?, hwhole]
    rfl
  | true =>
    -- A whole number is compared with the ends as an integer.
    have hfinite := (isWhole_iff.mp hwhole).1
    have hsigned := signed_of_isWhole hwhole
    have hlow : (ofInt Int64.minValue.toInt).atMost x = true ↔ -9223372036854775808 ≤ x.truncated := by
      rw [atMost_iff (by decide) hfinite, signed_minValue, hsigned]
      norm_cast
    have hhigh : x.below (ofInt Int64.maxValue.toInt) = true ↔ x.truncated < 9223372036854775808 := by
      rw [below_iff hfinite (by decide), signed_maxValue, hsigned]
      norm_cast
    simp only [castInt?, hwhole, Bool.true_and, Bool.and_eq_true, hlow, hhigh, if_true,
      Option.bind_some, Int64.ofInt?]
    split
    -- Within the ends the cast has nothing to cut off.
    · next hin =>
      rw [toInt64, isNaN_of_isFinite hfinite, min_eq_right (by omega), max_eq_right (by omega)]
      rfl
    · rfl

end LayeredConfig.Binary64
