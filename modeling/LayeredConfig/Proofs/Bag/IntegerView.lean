import LayeredConfig.Proofs.Number.Casting
import LayeredConfig.Proofs.Text.Trimming
import Mathlib.Data.Nat.Digits.Defs

/-!
# The integer view of a value

Which integers values denote: an integer itself, a float the number that its bits stand for, and a
string the integer of a decimal numeral with blanks around.  The view is that integer if it has 64
bits and nothing otherwise, however many digits there are.

## Key results

- `Numeral.int?_eq_some_iff`: the numerals of an integer
- `Value.int?_exact`: the view of a value is the integer that it denotes
-/

namespace LayeredConfig

namespace Numeral

/-- The number that decimal digits stand for. -/
def magnitude (digits : List Char) : Nat :=
  Nat.ofDigits 10 (digits.reverse.map fun c => c.toNat - '0'.toNat)

/-- A text is the numeral of an integer: digits, at least one, with a sign or without. -/
def Writes (s : List Char) (i : Int) : Prop :=
  ∃ sign digits, s = sign ++ digits ∧ digits ≠ [] ∧ (∀ c ∈ digits, c.isDigit = true) ∧
    ((sign = [] ∨ sign = ['+']) ∧ i = magnitude digits ∨ sign = ['-'] ∧ i = -magnitude digits)

/-- The digits of numerals are the decimal digits. -/
theorem isDigit_eq (c : Char) : isDigit c = c.isDigit := rfl

/-- Digits are worth what they stand for in the decimal system. -/
theorem ofDigits_eq (digits : List Char) : ofDigits digits = magnitude digits := by
  -- The last digit counts once, and all before it ten times.
  induction digits using List.reverseRecOn with
  | nil => rfl
  | append_singleton ds c ih =>
    rw [ofDigits] at ih ⊢
    rw [List.foldl_append, ih]
    simp [magnitude, Nat.ofDigits_cons]
    omega

/-- What is read off the digits behind a sign. -/
theorem int?_eq_some_iff_takeSign {s : List Char} {i : Int} :
    int? s = some i ↔ (takeSign s).2 ≠ [] ∧ (∀ c ∈ (takeSign s).2, c.isDigit = true) ∧
      i = if (takeSign s).1 then -(magnitude (takeSign s).2 : Int) else magnitude (takeSign s).2 := by
  unfold int?
  generalize takeSign s = parts
  obtain ⟨negative, digits⟩ := parts
  simp only [ofDigits_eq, Option.ite_none_left_eq_some, Bool.or_eq_true, List.isEmpty_iff, not_or,
    Bool.not_eq_true', Bool.not_eq_false, List.all_eq_true, isDigit_eq, Option.some_inj, and_assoc,
    eq_comm (b := i), ne_eq]

/-- Before a digit there is no sign. -/
theorem takeSign_of_isDigit {c : Char} (h : c.isDigit = true) (rest : List Char) :
    takeSign (c :: rest) = (false, c :: rest) := by
  unfold takeSign
  split
  · next heq =>
    cases heq
    exact absurd h (by decide)
  · next heq =>
    cases heq
    exact absurd h (by decide)
  · rfl

/-- The numerals of an integer are read as that integer, and nothing else is. -/
theorem int?_eq_some_iff {s : List Char} {i : Int} : int? s = some i ↔ Writes s i := by
  rw [int?_eq_some_iff_takeSign]
  constructor
  · intro h
    -- A sign is split off first, and what is left has to be digits.
    unfold takeSign at h
    split at h
    · exact ⟨['-'], _, rfl, h.1, h.2.1, .inr ⟨rfl, h.2.2⟩⟩
    · exact ⟨['+'], _, rfl, h.1, h.2.1, .inl ⟨.inr rfl, h.2.2⟩⟩
    · exact ⟨[], _, rfl, h.1, h.2.1, .inl ⟨.inl rfl, h.2.2⟩⟩
  · rintro ⟨sign, digits, rfl, hne, hdigits, ⟨rfl | rfl, hi⟩ | ⟨rfl, hi⟩⟩
    · obtain ⟨c, rest, rfl⟩ := List.exists_cons_of_ne_nil hne
      rw [List.nil_append, takeSign_of_isDigit (hdigits c List.mem_cons_self)]
      exact ⟨hne, hdigits, hi⟩
    · exact ⟨hne, hdigits, hi⟩
    · exact ⟨hne, hdigits, hi⟩

/-- A digit is no blank. -/
theorem isBlank_of_isDigit {c : Char} (h : c.isDigit = true) : Text.isBlank c = false := by
  have hrange : 48 ≤ c.toNat ∧ c.toNat ≤ 57 := by
    simpa [Char.isDigit, UInt32.le_iff_toNat_le] using h
  simp only [Text.isBlank, Bool.or_eq_false_iff, Bool.and_eq_false_iff, decide_eq_false_iff_not,
    beq_eq_false_iff_ne]
  omega

/-- No character of a numeral is a blank. -/
theorem Writes.isBlank_eq_false {s : List Char} {i : Int} (h : Writes s i) :
    ∀ c ∈ s, Text.isBlank c = false := by
  obtain ⟨sign, digits, rfl, -, hdigits, hsign⟩ := h
  intro c hc
  rcases List.mem_append.mp hc with hc | hc
  · rcases hsign with ⟨rfl | rfl, -⟩ | ⟨rfl, -⟩
    · exact absurd hc List.not_mem_nil
    · rw [List.mem_singleton.mp hc]
      rfl
    · rw [List.mem_singleton.mp hc]
      rfl
  · exact isBlank_of_isDigit (hdigits c hc)

end Numeral

namespace Text

/-- The text of an integer is one of its numerals with blanks around. -/
def HoldsInteger (s : List Char) (i : Int) : Prop :=
  ∃ before numeral after, s = before ++ (numeral ++ after) ∧
    (∀ c ∈ before, isBlank c = true) ∧ (∀ c ∈ after, isBlank c = true) ∧ Numeral.Writes numeral i

/-- Trimmed text is read as an integer just if it is a numeral with blanks around. -/
theorem int?_trim_eq_some_iff {s : List Char} {i : Int} :
    Numeral.int? (trim s) = some i ↔ HoldsInteger s i := by
  rw [Numeral.int?_eq_some_iff]
  constructor
  · intro h
    -- What was trimmed are the blanks around.
    obtain ⟨before, after, hbefore, hafter, hs⟩ := exists_blanks_trim s
    exact ⟨before, trim s, after, hs, hbefore, hafter, h⟩
  · rintro ⟨before, numeral, after, rfl, hbefore, hafter, h⟩
    rwa [trim_blanks_append hbefore, trim_append_blanks _ hafter, trim_eq_self h.isBlank_eq_false]

end Text

namespace Value

/-- The integer that a value denotes: an integer itself, a float the number that its bits stand for,
and a string the integer of its numeral.  Other values denote none. -/
def DenotesInt : Value → Int → Prop
  | .int w, i => w.toInt = i
  | .float x, i => x.toRat? = some (i : ℚ)
  | .string s, i => Text.HoldsInteger s.toList i
  | _, _ => False

/-- An integer is kept if it has 64 bits. -/
theorem map_toInt_bind_ofInt?_eq_some_iff {j : Option Int} {i : Int} :
    (j.bind Int64.ofInt?).map Int64.toInt = some i ↔ j = some i ∧ -2 ^ 63 ≤ i ∧ i < 2 ^ 63 := by
  simp only [Option.map_eq_some_iff, Option.bind_eq_some_iff, Int64.ofInt?_eq_some_iff]
  constructor
  · rintro ⟨w, ⟨_, rfl, rfl⟩, rfl⟩
    exact ⟨rfl, w.le_toInt, w.toInt_lt⟩
  · rintro ⟨rfl, hlow, hhigh⟩
    -- Within these bounds wrapping does nothing.
    have hw : (Int64.ofInt i).toInt = i := Int64.toInt_ofInt_of_le (by omega) (by omega)
    exact ⟨Int64.ofInt i, ⟨i, rfl, hw⟩, hw⟩

/-- The integer view of a value is the integer that it denotes, if that has 64 bits, and no other.
For floats it is a test and a cast; zeros have a view, infinities and NaNs have none. -/
theorem int?_exact (v : Value) :
    (∀ i : Int, v.int?.map Int64.toInt = some i ↔ v.DenotesInt i ∧ -2 ^ 63 ≤ i ∧ i < 2 ^ 63) ∧
      ∀ x : Binary64, (float x).int? = x.castInt? ∧
        (x.isZero = true → (float x).int? = some 0) ∧
        (x.isFinite = false → (float x).int? = none) := by
  refine ⟨fun i => ?_, fun x => ⟨(Binary64.castInt?_eq x).symm, fun hzero => ?_, fun hfinite => ?_⟩⟩
  -- For each kind, the number that is denoted and then the bounds of 64 bits.
  · cases v with
    | int w =>
      have hview := map_toInt_bind_ofInt?_eq_some_iff (j := some w.toInt) (i := i)
      rw [Option.bind_some, Int64.ofInt?_eq_some_iff.mpr rfl, Option.some_inj] at hview
      exact hview
    | float x =>
      rw [int?, map_toInt_bind_ofInt?_eq_some_iff, Binary64.toInt?_eq_some_iff, DenotesInt]
    | string s =>
      rw [int?, map_toInt_bind_ofInt?_eq_some_iff, Text.int?_trim_eq_some_iff, DenotesInt]
    | _ => simp [int?, DenotesInt]
  · rw [int?, Binary64.toInt?_of_isZero hzero]
    rfl
  · rw [int?, Binary64.toInt?_of_not_isFinite hfinite]
    rfl

/-- The least integer with leading zeros and blanks around, and floats without and with an
integer. -/
theorem int?_exact_least :
    (Value.string " -009223372036854775808\t").int?.map Int64.toInt = some (-2 ^ 63) ∧
      (Binary64.infinity true).isFinite = false ∧ (float (.infinity true)).int? = none ∧
      (Binary64.ofMagnitude true 0).isZero = true ∧ (float (.ofMagnitude true 0)).int? = some 0 := by
  obtain ⟨hview, hfloats⟩ := int?_exact (.string " -009223372036854775808\t")
  have hdenotes : DenotesInt (.string " -009223372036854775808\t") (-2 ^ 63) :=
    ⟨[' '], "-009223372036854775808".toList, ['\t'], by decide, List.all_eq_true.mp (by decide),
      List.all_eq_true.mp (by decide), ['-'], "009223372036854775808".toList, by decide, by decide,
      List.all_eq_true.mp (by decide), .inr ⟨rfl, by decide⟩⟩
  exact ⟨(hview _).mpr ⟨hdenotes, by decide, by decide⟩, by decide, (hfloats _).2.2 (by decide),
    by decide, (hfloats _).2.1 (by decide)⟩

end Value
end LayeredConfig
