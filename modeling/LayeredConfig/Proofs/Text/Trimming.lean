import LayeredConfig.Text.Blank
import Mathlib.Data.List.DropRight

/-!
# Trimming

A text is what trimming leaves of it, with blanks around.  Blanks around a text do not count, and a
character that is no blank keeps what stands between it and another one.

## Key results

- `Text.exists_blanks_trim`: a text is its trimmed form with blanks around
- `Text.trim_blanks_append` and `Text.trim_append_blanks`: blanks around a text do not count
- `Text.trim_between`: between two characters that are no blanks nothing is taken
- `Text.trim_eq_nil_iff`: the texts of which nothing is left
- `Text.trim_trim`: a trimmed text stays as it is
-/

namespace LayeredConfig.Text

variable {s t blanks : List Char} {c d : Char}

/-! ## The end -/

/-- Trimming the end stops at a character that is no blank. -/
theorem trimEnd_append_cons (s : List Char) (h : isBlank c = false) (t : List Char) :
    trimEnd (s ++ c :: t) = s ++ c :: trimEnd t := by
  have hcons : trimEnd (c :: t) = c :: trimEnd t := by
    rw [trimEnd]
    cases trimEnd t <;> simp [h]
  induction s with
  | nil => exact hcons
  | cons d s ih => simp [trimEnd, ih]

/-- A character that is no blank stays at the end of a text. -/
theorem trimEnd_append_of_not_isBlank (s : List Char) (h : isBlank c = false) :
    trimEnd (s ++ [c]) = s ++ [c] := trimEnd_append_cons s h []

/-- A blank does not stay at the end of a text. -/
theorem trimEnd_append_blank (s : List Char) (h : isBlank c = true) :
    trimEnd (s ++ [c]) = trimEnd s := by
  induction s with
  | nil => simp [trimEnd, h]
  | cons d s ih => simp [trimEnd, ih]

/-- Trimming the end is dropping blanks from the right. -/
theorem trimEnd_eq_rdropWhile (s : List Char) : trimEnd s = s.rdropWhile isBlank := by
  -- From the right, where both begin.
  induction s using List.reverseRecOn with
  | nil => rfl
  | append_singleton s c ih =>
    cases hc : isBlank c with
    | true => rw [trimEnd_append_blank s hc, List.rdropWhile_concat_pos _ _ _ hc, ih]
    | false =>
      rw [trimEnd_append_of_not_isBlank s hc, List.rdropWhile_concat_neg _ _ _ (by simp [hc])]

/-- Blanks behind a text do not count for its end. -/
theorem trimEnd_append_blanks (s : List Char) (h : ∀ c ∈ blanks, isBlank c = true) :
    trimEnd (s ++ blanks) = trimEnd s := by
  have hblanks : blanks.reverse.dropWhile isBlank = [] := by simpa using h
  simp [trimEnd_eq_rdropWhile, List.rdropWhile, List.dropWhile_append, hblanks]

theorem trimEnd_trimEnd (s : List Char) : trimEnd (trimEnd s) = trimEnd s := by
  simp only [trimEnd_eq_rdropWhile, List.rdropWhile_idempotent]

/-! ## Both ends -/

/-- Blanks in front of a text do not count. -/
theorem trim_blanks_append (h : ∀ c ∈ blanks, isBlank c = true) (s : List Char) :
    trim (blanks ++ s) = trim s := by
  rw [trim, trimStart, List.dropWhile_append_of_pos h]
  rfl

/-- Blanks behind a text do not count. -/
theorem trim_append_blanks (s : List Char) (h : ∀ c ∈ blanks, isBlank c = true) :
    trim (s ++ blanks) = trim s := by
  rw [trim, trim, trimStart, trimStart, List.dropWhile_append]
  split
  · -- All of the text is blank, and so is what stands behind it.
    next hs =>
    have hblanks : blanks.dropWhile isBlank = [] := List.dropWhile_eq_nil_iff.mpr h
    rw [List.isEmpty_iff.mp hs, hblanks]
  · exact trimEnd_append_blanks _ h

/-- A text that begins with no blank is trimmed at its end only. -/
theorem trim_cons (h : isBlank c = false) (s : List Char) : trim (c :: s) = c :: trimEnd s := by
  have hstart : trimStart (c :: s) = c :: s := by simp [trimStart, h]
  rw [trim, hstart]
  exact trimEnd_append_cons [] h s

/-- Between two characters that are no blanks nothing is taken. -/
theorem trim_between (hc : isBlank c = false) (hd : isBlank d = false) (s t : List Char) :
    trim (c :: (s ++ d :: t)) = c :: (s ++ d :: trimEnd t) := by
  rw [trim_cons hc, trimEnd_append_cons s hd]

/-- A text is what trimming leaves of it, with blanks around. -/
theorem exists_blanks_trim (s : List Char) : ∃ before after,
    (∀ c ∈ before, isBlank c = true) ∧ (∀ c ∈ after, isBlank c = true) ∧
      s = before ++ (trim s ++ after) := by
  refine ⟨s.takeWhile isBlank, (trimStart s).rtakeWhile isBlank, ?_, ?_, ?_⟩
  · intro c hc
    exact List.mem_takeWhile_imp hc
  · intro c hc
    exact List.mem_rtakeWhile_imp hc
  · rw [trim, trimEnd_eq_rdropWhile, List.rdropWhile_append_rtakeWhile, trimStart,
      List.takeWhile_append_dropWhile]

/-- A trimmed text stays as it is. -/
theorem trim_trim (s : List Char) : trim (trim s) = trim s := by
  obtain ⟨before, after, hbefore, hafter, hs⟩ := exists_blanks_trim s
  conv_rhs => rw [hs, trim_blanks_append hbefore, trim_append_blanks _ hafter]

/-- A text whose end was trimmed already is trimmed to the same. -/
theorem trim_trimEnd (s : List Char) : trim (trimEnd s) = trim s := by
  have hs : s = trimEnd s ++ s.rtakeWhile isBlank := by
    rw [trimEnd_eq_rdropWhile, List.rdropWhile_append_rtakeWhile]
  conv_rhs => rw [hs, trim_append_blanks _ fun c hc => List.mem_rtakeWhile_imp hc]

/-- Of a trimmed text nothing is taken at the end either. -/
theorem trimEnd_eq_self (h : trim s = s) : trimEnd s = s := by
  rw [← h, trim, trimEnd_trimEnd]

/-- Trimming brings in no characters. -/
theorem mem_of_mem_trim (h : c ∈ trim s) : c ∈ s := by
  obtain ⟨before, after, -, -, hs⟩ := exists_blanks_trim s
  rw [hs]
  simp [h]

/-- Nothing is left of blanks, and of nothing else. -/
theorem trim_eq_nil_iff : trim s = [] ↔ ∀ c ∈ s, isBlank c = true := by
  constructor
  · intro h
    obtain ⟨before, after, hbefore, hafter, hs⟩ := exists_blanks_trim s
    rw [hs, h, List.nil_append]
    exact fun c hc => (List.mem_append.mp hc).elim (hbefore c) (hafter c)
  · intro h
    exact trim_append_blanks [] h

/-- Nothing is taken of a text without blanks. -/
theorem trim_eq_self (h : ∀ c ∈ s, isBlank c = false) : trim s = s := by
  obtain ⟨before, after, hbefore, hafter, hs⟩ := exists_blanks_trim s
  -- What stands around the trimmed text is blank and part of a text without blanks.
  have hnil {around : List Char} (hsub : ∀ c ∈ around, c ∈ s)
      (hblank : ∀ c ∈ around, isBlank c = true) : around = [] :=
    List.eq_nil_iff_forall_not_mem.mpr fun c hc =>
      Bool.false_ne_true ((h c (hsub c hc)).symm.trans (hblank c hc))
  have hbefore : before = [] := hnil (fun c hc => by rw [hs]; simp [hc]) hbefore
  have hafter : after = [] := hnil (fun c hc => by rw [hs]; simp [hc]) hafter
  rw [hbefore, hafter, List.append_nil, List.nil_append] at hs
  exact hs.symm

/-- A trimmed text does not begin with a blank. -/
theorem isBlank_of_trim_cons (h : trim (c :: s) = c :: s) : isBlank c = false := by
  by_contra hc
  rw [Bool.not_eq_false] at hc
  -- Without the blank there are too few characters to leave all of the text.
  obtain ⟨before, after, -, -, hs⟩ := exists_blanks_trim s
  have hlength := congrArg List.length hs
  have hblank : ∀ d ∈ [c], isBlank d = true := by simpa using hc
  have hskip : trim (c :: s) = trim s := trim_blanks_append hblank s
  rw [← hskip, h] at hlength
  simp at hlength
  omega

end LayeredConfig.Text
