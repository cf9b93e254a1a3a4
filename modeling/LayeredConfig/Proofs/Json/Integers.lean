import LayeredConfig.Bag.Json
import LayeredConfig.Json.Number
import LayeredConfig.Proofs.Number.Rounding

/-!
# The integer view of an integer literal

Digits are kept as a significand of 64 bits and counted beyond it.  An integer of 64 bits, signed or
not, stays one; any other integer becomes a float, and the integer view asks whether the float is an
integer of 64 signed bits.

## Key results

- `NumberState.Tallies.next`: what a state holds of the digits read
- `int?_whole`: the view of an integer of 64 bits, with or without a minus sign
- `lt_value_scaled`: integers that are longer stay out of range when they are rounded
- `int?_finish`: the view of the number that ends after some digits
-/

namespace LayeredConfig

namespace Json

/-- The integer view of the literal of `n`.  The integers just below `-2 ^ 63` are rounded to it,
and all others that do not fit 64 signed bits have no view. -/
def literalView (n : Int) : Option Int :=
  if -9223372036854775808 ≤ n ∧ n < 9223372036854775808 then some n
  else if -9223372036854776832 ≤ n ∧ n < -9223372036854775808 then some (-9223372036854775808)
  else none

namespace NumberState

variable {negative : Bool} {s m d : Nat} {e : Int} {c : Char} {st st' : NumberState} {n : Number}
  {x : Binary64}

/-! ## Digits -/

/-- The state after the digits of `m`. -/
inductive Tallies : Nat → NumberState → Prop
  | zero : Tallies 0 .zero
  | integer {s : Nat} : 0 < s → s < 2 ^ 64 → Tallies s (.integer s)
  | long {m s : Nat} {e : Int} : s < 2 ^ 64 → 2 ^ 64 ≤ s * 10 + 9 → 1 ≤ e → 2 ^ 64 ≤ m →
      Tallies m (.long s e)

/-- A digit is less than ten. -/
theorem digit?_lt (h : digit? c = some d) : d < 10 := by
  unfold digit? at h
  split at h
  · next hrange =>
    rw [Bool.and_eq_true, decide_eq_true_eq, decide_eq_true_eq, Char.le_def, Char.le_def] at hrange
    have hhigh := UInt32.le_iff_toNat_le.mp hrange.2
    cases h
    have hnine : '9'.val.toNat = 57 := rfl
    rw [hnine] at hhigh
    unfold Char.toNat
    omega
  · exact nomatch h

/-- A digit is put behind others if 64 bits hold the result. -/
theorem append?_eq_some {t : Nat} (h : append? s d = some t) : t = s * 10 + d ∧ t < 2 ^ 64 := by
  unfold append? at h
  split at h
  · cases h
    exact ⟨rfl, by omega⟩
  · exact nomatch h

/-- A digit is not put behind others if 64 bits do not hold the result. -/
theorem append?_eq_none (h : append? s d = none) : 2 ^ 64 ≤ s * 10 + d := by
  unfold append? at h
  split at h
  · exact nomatch h
  · omega

/-- One more digit.  None may follow a leading zero. -/
theorem Tallies.next (h : Tallies m st) (hd : digit? c = some d)
    (hnext : st.next c = .ok (some st')) : Tallies (m * 10 + d) st' := by
  have hlt := digit?_lt hd
  -- Digits are kept as long as 64 bits hold them, and only counted afterwards.
  cases h with
  | zero =>
    simp only [NumberState.next, hd] at hnext
    exact nomatch hnext
  | integer hpos hs =>
    simp only [NumberState.next, hd] at hnext
    split at hnext
    · next t ht =>
      cases hnext
      obtain ⟨rfl, ht⟩ := append?_eq_some ht
      exact .integer (by omega) ht
    · next hnone =>
      cases hnext
      have hbeyond := append?_eq_none hnone
      exact .long hs (by omega) le_rfl hbeyond
  | long hs hlong he hm =>
    simp only [NumberState.next, hd] at hnext
    cases hnext
    exact .long hs hlong (by omega) (by omega)

/-- Digits do not end a number. -/
theorem Tallies.next_ne_none (h : Tallies m st) (hd : digit? c = some d) :
    st.next c ≠ .ok none := by
  cases h with
  | zero => simp [NumberState.next, hd]
  | integer => simp [NumberState.next, hd]
  | long => simp [NumberState.next, hd]

/-! ## Numbers -/

/-- The float of a magnitude, with its sign. -/
theorem real_eq_ok (h : real negative x = .ok n) (hx : x.negative = false) :
    ∃ y finite, n = .real y finite ∧ y.value = x.value ∧ y.negative = negative := by
  have hy : (if negative then x.neg else x).value = x.value ∧
      (if negative then x.neg else x).negative = negative := by
    cases negative with
    | false => exact ⟨rfl, hx⟩
    | true => exact ⟨Binary64.value_neg x, by rw [if_pos rfl, Binary64.negative_neg, hx]; rfl⟩
  unfold real at h
  dsimp only at h
  generalize (if negative then x.neg else x) = y at h hy
  split at h
  · next finite =>
    cases h
    exact ⟨y, finite, rfl, hy⟩
  · exact nomatch h

/-- The literal of an integer of 64 bits. -/
theorem int?_integer {i : Int} (range : -9223372036854775808 ≤ i ∧ i < 18446744073709551616) :
    (Value.ofNumber (.integer i range)).int?.map Int64.toInt = literalView i := by
  rw [Value.ofNumber, literalView]
  cases hi : Int64.ofInt? i with
  -- Within 64 signed bits the integer is kept.
  | some w =>
    have hw := Int64.ofInt?_eq_some_iff.mp hi
    have hlow := w.le_toInt
    have hhigh := w.toInt_lt
    rw [if_pos (by omega)]
    exact congrArg some hw
  -- Beyond them it is at least `2 ^ 63`, and so is the float that it becomes.
  | none =>
    have hlow : 9223372036854775808 ≤ i := by
      unfold Int64.ofInt? at hi
      split at hi
      · exact nomatch hi
      · omega
    have hsign : (Binary64.ofInt i).negative = false := Binary64.negative_ofInt (by omega)
    have hvalue : ((1 : Nat) : ℚ) * 2 ^ 63 ≤ (Binary64.ofInt i).value :=
      Binary64.le_value_ofInt (by decide) (by decide) (by decide) (by omega)
    rw [Nat.cast_one, one_mul] at hvalue
    rw [if_neg (by omega), if_neg (by omega)]
    exact congrArg _ (Value.int?_float_eq_none (.inr ⟨hsign, hvalue⟩))

/-- The literal of zero or of an integer below `-2 ^ 63`, with a minus sign. -/
theorem int?_negative (hs : s < 2 ^ 64) (hout : s = 0 ∨ 2 ^ 63 < s)
    (h : real true (.ofInt s) = .ok n) :
    (Value.ofNumber n).int?.map Int64.toInt = literalView (-(s : Int)) := by
  have hsign : (Binary64.ofInt s).negative = false :=
    Binary64.negative_ofInt (Int.natCast_nonneg s)
  obtain ⟨y, finite, rfl, hvalue, hy⟩ := real_eq_ok h hsign
  rw [Value.ofNumber]
  rcases hout with rfl | hlow
  -- The zero with a minus sign is a float, and its integer view is zero.
  · have hzero : y.value = (0 : Nat) := by
      rw [hvalue, Nat.cast_zero]
      exact Binary64.value_ofInt_zero
    rw [Value.int?_float_of_value finite hzero, hy]
    rfl
  by_cases hnear : s ≤ 2 ^ 63 + 1024
  · -- A tie goes to the even significand, which is that of the power of two.
    have hround : y.value = (2 ^ 63 : Nat) := by
      rw [hvalue, Binary64.value_ofInt_near (by omega) (by omega)]
      norm_num
    rw [Value.int?_float_of_value finite hround, hy, if_pos rfl, literalView, if_neg (by omega),
      if_pos (by omega)]
    rfl
  · have hfar : 2 ^ 63 < y.value := by
      rw [hvalue]
      exact Binary64.lt_value_ofInt (by omega) (by omega)
    rw [Value.int?_float_eq_none (.inl hfar), literalView, if_neg (by omega), if_neg (by omega)]
    rfl

/-- The view of an integer of 64 bits, with or without a minus sign. -/
theorem int?_whole (hs : s < 2 ^ 64) (h : whole negative s = .ok n) :
    (Value.ofNumber n).int?.map Int64.toInt = literalView (if negative then -(s : Int) else s) := by
  by_cases hin : (-9223372036854775808 ≤ (if negative then -(s : Int) else s) ∧
      (if negative then -(s : Int) else s) < 18446744073709551616) ∧ ¬(negative = true ∧ s = 0)
  · have hwhole : whole negative s = .ok (.integer _ hin.1) := dif_pos hin
    rw [hwhole] at h
    cases h
    exact int?_integer _
  -- Only a minus sign can lead out of range here, or turn zero into a float.
  · have hreal : whole negative s = real negative (.ofInt s) := dif_neg hin
    rw [hreal] at h
    cases negative with
    | false =>
      rw [if_neg Bool.false_ne_true] at hin
      exact absurd ⟨⟨by omega, by omega⟩, by simp⟩ hin
    | true =>
      rw [if_pos rfl] at hin ⊢
      have hout : s = 0 ∨ 2 ^ 63 < s := by
        by_contra hcontra
        exact hin ⟨⟨by omega, by omega⟩, by omega⟩
      exact int?_negative hs hout h

/-! ## Too many digits -/

/-- The power of ten of at least one digit. -/
theorem le_value_powerOfTen (hpos : 1 ≤ d) :
    ((1 : Nat) : ℚ) * 2 ^ 3 ≤ (powerOfTen d).value := by
  have hten : 10 ^ 1 ≤ 10 ^ d := Nat.pow_le_pow_right (by decide) hpos
  have hten' : (10 : ℚ) ≤ (10 ^ d : Nat) := by exact_mod_cast hten
  refine Binary64.le_value_ofRatio (Nat.pow_pos (by decide)) Nat.one_pos (by decide) (by decide) ?_
  rw [Nat.cast_one, div_one, one_mul]
  exact le_trans (by norm_num) hten'

/-- The float of digits beyond the significand is beyond 64 signed bits: the significand is short of
`2 ^ 64` by one digit, and rounding does not go below three quarters of that. -/
theorem lt_value_scaled (hlong : 2 ^ 64 ≤ s * 10 + 9) (he : 1 ≤ e) :
    2 ^ 63 < (scaled s e).value := by
  have hx : ((3 : Nat) : ℚ) * 2 ^ 59 ≤ (Binary64.ofInt s).value :=
    Binary64.le_value_ofInt (by decide) (by decide) (by decide) (by omega)
  push_cast at hx
  unfold scaled
  dsimp only
  split
  · split
    · next hzero =>
      have hvalue := Binary64.value_eq_zero hzero
      linarith
    · rw [Binary64.infinity, Binary64.value_infinity]
      exact pow_lt_pow_right₀ one_lt_two (by decide)
  -- Three quarters of the significand are `3 * 2 ^ 59`, and the power of ten is more than eight.
  · have hp := le_value_powerOfTen (d := e.toNat) (by omega)
    push_cast at hp
    have hmul : ((3 : Nat) : ℚ) * 2 ^ 62 ≤
        ((Binary64.ofInt s).mul (powerOfTen e.toNat)).value := by
      refine Binary64.le_value_mul (by decide) (by decide) (by decide) ?_
      calc ((3 : Nat) : ℚ) * 2 ^ 62 = 3 * 2 ^ 59 * (1 * 2 ^ 3) := by norm_num
        _ ≤ _ := by gcongr
    rw [if_pos (by omega)]
    push_cast at hmul
    linarith

/-- The float of digits beyond the significand has no minus sign of its own. -/
theorem negative_scaled (he : 1 ≤ e) : (scaled s e).negative = false := by
  have hx : (Binary64.ofInt s).negative = false :=
    Binary64.negative_ofInt (Int.natCast_nonneg s)
  unfold scaled
  dsimp only
  split
  · split
    · exact hx
    · exact Binary64.negative_ofMagnitude _
  · have hp : (powerOfTen e.toNat).negative = false := Binary64.negative_ofRatio _ _
    rw [if_pos (by omega), Binary64.mul, Binary64.negative_ofRatio, hx, hp]
    rfl

/-- The number that ends after the digits of `m`. -/
theorem int?_finish (h : Tallies m st) (hfinish : st.finish negative = .ok n) :
    (Value.ofNumber n).int?.map Int64.toInt = literalView (if negative then -(m : Int) else m) := by
  cases h with
  | zero => exact int?_whole (by decide) hfinish
  | integer _ hs => exact int?_whole hs hfinish
  -- Digits beyond 64 bits are out of range, as integers and as floats.
  | long _ hlong he hm =>
    obtain ⟨y, finite, rfl, hvalue, -⟩ := real_eq_ok hfinish (negative_scaled he)
    have hfar : 2 ^ 63 < y.value := by
      rw [hvalue]
      exact lt_value_scaled hlong he
    have hout : ¬-9223372036854776832 ≤ (if negative then -(m : Int) else m) ∨
        9223372036854775808 ≤ (if negative then -(m : Int) else m) := by
      split <;> omega
    rw [Value.ofNumber, Value.int?_float_eq_none (.inl hfar), literalView, if_neg (by omega),
      if_neg (by omega)]
    rfl

end NumberState
end Json
end LayeredConfig
