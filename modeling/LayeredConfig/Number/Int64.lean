/-! # Integers of 64 bits

* `Int64.ofInt?`   the 64-bit integer with a given value, if it is in range -/

namespace Int64

/-- The 64-bit integer with value `i`; none outside `-2 ^ 63 ≤ i < 2 ^ 63`. -/
def ofInt? (i : Int) : Option Int64 :=
  if -9223372036854775808 ≤ i ∧ i < 9223372036854775808 then some (Int64.ofInt i) else none

theorem ofInt?_eq_some_iff {i : Int} {w : Int64} : ofInt? i = some w ↔ w.toInt = i := by
  unfold ofInt?
  constructor
  · intro h
    split at h
    · rename_i hr
      cases h
      rw [Int64.toInt_ofInt_of_le (by omega) (by omega)]
    · cases h
  · intro h
    have h1 := w.le_toInt
    have h2 := w.toInt_lt
    subst h
    rw [if_pos (by omega), Int64.ofInt_toInt]

end Int64
