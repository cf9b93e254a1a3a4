import LayeredConfig.Proofs.Yaml.Plain
import LayeredConfig.Yaml.Scalar
import Mathlib.Tactic.IntervalCases

/-!
# What plain scalars mean

The digits of an integer may stand without quotes and mean the integer; a text that is not ambiguous
means itself.

## Key results

- `Scalar.ofPlain_ofInt`: the digits of an integer
- `Scalar.ofPlain_of_isAmbiguous`: texts that are not ambiguous
- `isPlainText_ofInt`: integers may stand without quotes
-/

namespace LayeredConfig.Yaml

variable {c : Char} {s : List Char} {n : Nat}

/-! ## Digits -/

/-- A number is written in digits. -/
theorem digitChar_of_mem_ofNat (h : c ∈ Numeral.ofNat n) : ∃ d : Fin 10, c = Nat.digitChar d := by
  rw [Numeral.ofNat] at h
  -- On the number, whose last digit stands behind those of a tenth of it.
  induction n using Nat.strongRecOn with
  | ind n ih =>
    by_cases hlt : n < 10
    · rw [Nat.toDigits_of_lt_base hlt, List.mem_singleton] at h
      exact ⟨⟨n, hlt⟩, h⟩
    · rw [Nat.toDigits_of_base_le (by decide) (by omega), List.mem_append, List.mem_singleton] at h
      rcases h with h | rfl
      · exact ih (n / 10) (by omega) h
      · exact ⟨⟨n % 10, Nat.mod_lt n (by decide)⟩, rfl⟩

/-- A number that is not zero starts with a digit that is not zero. -/
theorem ofNat_eq_cons (hpos : 0 < n) :
    ∃ d t, 0 < d ∧ d < 10 ∧ Numeral.ofNat n = Nat.digitChar d :: t := by
  rw [Numeral.ofNat]
  induction n using Nat.strongRecOn with
  | ind n ih =>
    by_cases hlt : n < 10
    · exact ⟨n, [], hpos, hlt, Nat.toDigits_of_lt_base hlt⟩
    · obtain ⟨d, t, hd, hd', htext⟩ := ih (n / 10) (by omega) (by omega)
      refine ⟨d, t ++ [Nat.digitChar (n % 10)], hd, hd', ?_⟩
      rw [Nat.toDigits_of_base_le (by decide) (by omega), htext]
      rfl

/-- The digits of a number are read back. -/
theorem digits?_ofNat (n : Nat) : digits? 10 (Numeral.ofNat n) = some n := by
  have hdigit : ∀ d : Fin 10, hexDigit? (Nat.digitChar d) = some d.val := by decide
  have hfold : (Numeral.ofNat n).foldlM (fun n c => (hexDigit? c).bind fun d =>
      if d < 10 then some (n * 10 + d) else none) 0 = some n := by
    rw [Numeral.ofNat]
    induction n using Nat.strongRecOn with
    | ind n ih =>
      by_cases hlt : n < 10
      · rw [Nat.toDigits_of_lt_base hlt]
        simp [hdigit ⟨n, hlt⟩, hlt]
      · have hmod : n % 10 < 10 := Nat.mod_lt n (by decide)
        rw [Nat.toDigits_of_base_le (by decide) (by omega), List.foldlM_append,
          ih (n / 10) (by omega)]
        simp [hdigit ⟨n % 10, hmod⟩, hmod, Nat.div_add_mod']
  have hne : (Numeral.ofNat n).isEmpty = false := by
    rw [List.isEmpty_eq_false_iff, Numeral.ofNat]
    exact List.length_pos_iff.mp Nat.length_toDigits_pos
  rw [digits?, hne]
  exact hfold

/-! ## Integers -/

/-- Only a leading zero can tell another base. -/
theorem radix?_cons (h : c ≠ '0') : radix? (c :: s) = none := by
  unfold radix?
  split <;> first | rfl | simp_all

/-- Only a leading zero can make a number a padded one. -/
theorem isPaddedInteger_cons (hzero : c ≠ '0') (hminus : c ≠ '-') (hplus : c ≠ '+') :
    isPaddedInteger (c :: s) = false := by
  unfold isPaddedInteger
  split <;> simp_all

/-- So it is behind a minus sign. -/
theorem isPaddedInteger_neg (hzero : c ≠ '0') : isPaddedInteger ('-' :: c :: s) = false := by
  unfold isPaddedInteger
  simp [hzero]

/-- A digit that is not zero is no sign either. -/
theorem digitChar_ne {d : Nat} (hpos : 0 < d) (hd : d < 10) :
    Nat.digitChar d ≠ '0' ∧ Nat.digitChar d ≠ '-' ∧ Nat.digitChar d ≠ '+' := by
  interval_cases d <;> decide

/-- A number without a plus sign is read in its base or in decimal digits. -/
theorem natural?_cons (hplus : c ≠ '+') : natural? (c :: s) =
    ((radix? (c :: s)).or (if isPaddedInteger (c :: s) then none else digits? 10 (c :: s))).filter
      (· < 340282366920938463463374607431768211456) := by
  simp only [natural?]
  split
  · next heq => exact absurd (List.cons.inj heq).1 hplus
  · rfl

/-- A number of at most 128 bits is read back. -/
theorem natural?_ofNat (h : n < 2 ^ 128) : natural? (Numeral.ofNat n) = some n := by
  -- Zero is the one number that begins with a zero.
  rcases Nat.eq_zero_or_pos n with rfl | hpos
  · rfl
  · obtain ⟨d, t, hd, hd', htext⟩ := ofNat_eq_cons hpos
    obtain ⟨hzero, hminus, hplus⟩ := digitChar_ne hd hd'
    have hvalue := digits?_ofNat n
    rw [htext] at hvalue ⊢
    rw [natural?_cons hplus, radix?_cons hzero, isPaddedInteger_cons hzero hminus hplus, hvalue]
    exact Option.filter_some_pos (by simpa using h)

theorem natural?_neg (s : List Char) : natural? ('-' :: s) = none := by
  have hdigits : digits? 10 ('-' :: s) = none := rfl
  rw [natural?_cons (by decide), radix?_cons (by decide), hdigits, ite_self]
  rfl

/-- A number behind a minus sign is read as a negative one. -/
theorem negative?_ofNat (hpos : 0 < n) (h : n ≤ 2 ^ 127) :
    negative? ('-' :: Numeral.ofNat n) = some n := by
  obtain ⟨d, t, hd, hd', htext⟩ := ofNat_eq_cons hpos
  obtain ⟨hzero, hminus, hplus⟩ := digitChar_ne hd hd'
  have hvalue := digits?_ofNat n
  rw [htext] at hvalue ⊢
  simp only [negative?, radix?_cons hzero, isPaddedInteger_neg hzero, hvalue, Option.none_or,
    Bool.false_eq_true, if_false]
  exact Option.filter_some_pos (by simpa using h)

/-- The digits of an integer are read back. -/
theorem integer?_ofInt {i : Int} (hlow : -9223372036854775808 ≤ i)
    (hhigh : i < 18446744073709551616) :
    integer? (Numeral.ofInt i) = some i := by
  by_cases hneg : i < 0
  · have htext : Numeral.ofInt i = '-' :: Numeral.ofNat i.natAbs := if_pos hneg
    rw [htext, integer?, natural?_neg, negative?_ofNat (by omega) (by omega)]
    exact congrArg some (show -(i.natAbs : Int) = i by omega)
  · have htext : Numeral.ofInt i = Numeral.ofNat i.natAbs := if_neg hneg
    rw [htext, integer?, natural?_ofNat (by omega)]
    exact congrArg some (show (i.natAbs : Int) = i by omega)

/-- An integer is written in digits, maybe behind a minus sign. -/
theorem ofInt_eq (i : Int) : ∃ d t, (∀ c ∈ Nat.digitChar d :: t, ∃ d : Fin 10, c = Nat.digitChar d) ∧
    (Numeral.ofInt i = Nat.digitChar d :: t ∨ Numeral.ofInt i = '-' :: Nat.digitChar d :: t) := by
  obtain ⟨c, t, htext⟩ := List.exists_cons_of_ne_nil
    (List.length_pos_iff.mp (Nat.length_toDigits_pos (b := 10) (n := i.natAbs)))
  have hmem : ∀ c' ∈ c :: t, ∃ d : Fin 10, c' = Nat.digitChar d := fun c' hc' =>
    digitChar_of_mem_ofNat (n := i.natAbs) (by rw [Numeral.ofNat, htext]; exact hc')
  obtain ⟨d, rfl⟩ := hmem c List.mem_cons_self
  refine ⟨d, t, hmem, ?_⟩
  rw [Numeral.ofInt, Numeral.ofNat, htext]
  split
  · exact .inr rfl
  · exact .inl rfl

/-! ## Words -/

/-- Texts that are the same begin with the same character. -/
theorem head?_toList_of_ofList_eq {w : String} (h : String.ofList (c :: s) = w) :
    w.toList.head? = some c := by
  rw [← h, String.toList_ofList]
  rfl

/-- The words for null begin with one of three characters. -/
theorem isNullWord_cons (h : c ∉ ['n', 'N', '~']) : isNullWord (c :: s) = false := by
  unfold isNullWord
  split
  case h_5 => rfl
  all_goals
    next heq =>
    have hhead := Option.some.inj (head?_toList_of_ofList_eq heq)
    exact absurd (hhead ▸ by decide) h

/-- The words for booleans begin with one of four characters. -/
theorem bool?_cons (h : c ∉ ['t', 'T', 'f', 'F']) : bool? (c :: s) = none := by
  unfold bool?
  split
  case h_7 => rfl
  all_goals
    next heq =>
    have hhead := Option.some.inj (head?_toList_of_ofList_eq heq)
    exact absurd (hhead ▸ by decide) h

/-! ## Meanings -/

theorem Scalar.ofPlain_null : Scalar.ofPlain "null".toList = .null := rfl

theorem Scalar.ofPlain_boolText (b : Bool) : Scalar.ofPlain (Json.boolText b) = .bool b := by
  cases b <;> rfl

/-- The digits of an integer mean the integer. -/
theorem Scalar.ofPlain_ofInt {i : Int} (hlow : -9223372036854775808 ≤ i)
    (hhigh : i < 18446744073709551616) : Scalar.ofPlain (Numeral.ofInt i) = .integer i := by
  have hvalue := integer?_ofInt hlow hhigh
  have hdigit : ∀ d : Fin 10, Nat.digitChar d ∉ ['n', 'N', '~'] ∧
      Nat.digitChar d ∉ ['t', 'T', 'f', 'F'] := by decide
  -- A digit or a minus sign begins no word.
  have hclass : ∃ c t, Numeral.ofInt i = c :: t ∧ c ∉ ['n', 'N', '~'] ∧ c ∉ ['t', 'T', 'f', 'F'] := by
    obtain ⟨d, t, hdigits, htext | htext⟩ := ofInt_eq i
    · obtain ⟨d', hd'⟩ := hdigits _ List.mem_cons_self
      exact ⟨_, t, htext, hd' ▸ hdigit d'⟩
    · exact ⟨'-', _, htext, by decide, by decide⟩
  obtain ⟨c, t, htext, hnull, hbool⟩ := hclass
  rw [htext] at hvalue ⊢
  simp [Scalar.ofPlain, isNullWord_cons hnull, bool?_cons hbool, hvalue]

/-- A text that is not ambiguous means itself. -/
theorem Scalar.ofPlain_of_isAmbiguous (h : isAmbiguous s = false) :
    Scalar.ofPlain s = .string s := by
  -- What is taken for a string is taken as it is.
  have hself : ∀ s', Scalar.ofPlain s = .string s' → s' = s := by
    intro s' hs'
    unfold Scalar.ofPlain at hs'
    split at hs'
    · cases hs'
    split at hs'
    · cases hs'
    split at hs'
    · cases hs'
    split at hs'
    · exact (Scalar.string.inj hs').symm
    split at hs'
    · cases hs'
    · exact (Scalar.string.inj hs').symm
  unfold isAmbiguous at h
  split at h
  · next s' hs' => rw [hs', hself s' hs']
  · cases h

/-! ## What may stand without quotes -/

/-- The words for null and for booleans may stand without quotes. -/
theorem isPlainText_null : IsPlainText "null".toList := .of_traits (by decide) (by decide)

theorem isPlainText_boolText (b : Bool) : IsPlainText (Json.boolText b) := by
  cases b <;> exact .of_traits (by decide) (by decide)

/-- A digit has no meaning of its own, whatever stands around it. -/
theorem isIndicator_digitChar (before after : Option Char) (d : Fin 10) :
    isIndicator before (Nat.digitChar d) after = false := by
  have hdigit : ∀ d : Fin 10, "#,[]\x7b\x7d&*!|>'\"%@`".toList.contains (Nat.digitChar d) = false ∧
      (Nat.digitChar d == '?') = false ∧ (Nat.digitChar d == ':') = false ∧
      (Nat.digitChar d == '-') = false ∧ (Nat.digitChar d == '#') = false := by decide
  obtain ⟨hlist, hquestion, hcolon, hminus, hhash⟩ := hdigit d
  cases before <;> simp only [isIndicator, hlist, hquestion, hcolon, hminus, hhash, Bool.or_self,
    Bool.false_and]

/-- So digits may stand anywhere. -/
theorem isPlain_digits (before : Option Char) (hs : ∀ c ∈ s, ∃ d : Fin 10, c = Nat.digitChar d) :
    IsPlain before s := by
  have hdigit : ∀ d : Fin 10, isPrintable (Nat.digitChar d) = true ∧
      isBreak (Nat.digitChar d) = false := by decide
  refine ⟨fun c hc => ?_, fun c hc => ?_, ?_⟩
  · obtain ⟨d, rfl⟩ := hs c hc
    exact (hdigit d).1
  · obtain ⟨d, rfl⟩ := hs c hc
    exact (hdigit d).2
  · induction s generalizing before with
    | nil => rfl
    | cons c s ih =>
      obtain ⟨⟨d, rfl⟩, hrest⟩ := List.forall_mem_cons.mp hs
      rw [anyTriple, isIndicator_digitChar, ih _ hrest]
      rfl

/-- Integers may stand without quotes. -/
theorem isPlainText_ofInt (i : Int) : IsPlainText (Numeral.ofInt i) := by
  have hdigit : ∀ d : Fin 10, isPrintable (Nat.digitChar d) = true ∧
      isBreak (Nat.digitChar d) = false ∧ Nat.digitChar d ≠ ' ' ∧ Nat.digitChar d ≠ '-' ∧
      Nat.digitChar d ≠ '.' ∧ isGap (some (Nat.digitChar d)) = false := by decide
  obtain ⟨d, t, hdigits, htext⟩ := ofInt_eq i
  obtain ⟨d', hd'⟩ := hdigits _ List.mem_cons_self
  have hspace : ∀ c ∈ Nat.digitChar d :: t, c ≠ ' ' := fun c hc => by
    obtain ⟨d, rfl⟩ := hdigits c hc
    exact (hdigit d).2.2.1
  have hlast : (Nat.digitChar d :: t).getLast? ≠ some ' ' := fun h =>
    hspace ' ' (List.mem_of_getLast? h) rfl
  obtain ⟨-, -, -, hminus, hdot, hgap⟩ := hd' ▸ hdigit d'
  have hrest := isPlain_digits (some '-') hdigits
  -- Behind a minus sign comes a digit and no gap, so it is no mark of an entry.
  rcases htext with htext | htext <;> rw [htext]
  · exact {
      isPlain_digits none hdigits with
      ne_nil := List.cons_ne_nil _ t
      first := fun h => hspace ' ' (Option.some.inj h ▸ List.mem_cons_self) rfl
      last := hlast
      dashes := by simp [List.isPrefixOf, Ne.symm hminus]
      dots := by simp [List.isPrefixOf, Ne.symm hdot] }
  · exact {
      isPrintable := List.forall_mem_cons.mpr ⟨rfl, hrest.isPrintable⟩
      noBreak := List.forall_mem_cons.mpr ⟨rfl, hrest.noBreak⟩
      noIndicator := by
        rw [anyTriple, hrest.noIndicator]
        simp [isIndicator, hgap]
      ne_nil := List.cons_ne_nil _ _
      first := by simp
      last := hlast
      dashes := by simp [List.isPrefixOf, Ne.symm hminus]
      dots := by simp [List.isPrefixOf] }

end LayeredConfig.Yaml
