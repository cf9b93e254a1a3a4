import LayeredConfig.Text.Split
import Mathlib.Data.List.Infix

/-!
# Splitting at separators

The pieces of a text that is put together are the pieces of its parts, and empty pieces tell of
separators at the ends or in a row.

## Key results

- `Text.splitOn_append`: the pieces of both parts of a text
- `Text.splitOn_of_not_mem`: a text without separators is one piece
- `Text.splitOn_eq_iff`: the pieces of a text are those that hold no separator and make it up
- `Text.nil_mem_splitOn` and `Text.nil_mem_tail_splitOn`: where pieces are empty
-/

namespace LayeredConfig.Text

/-- There is a piece at least. -/
theorem splitOn_ne_nil (separator : Char) (a : List Char) : splitOn separator a ≠ [] := by
  cases a with
  | nil => exact List.cons_ne_nil _ _
  | cons c rest =>
    rw [splitOn]
    split
    · exact List.cons_ne_nil _ _
    · cases splitOn separator rest <;> exact List.cons_ne_nil _ _

/-- A character is put before the first of all pieces. -/
theorem consFirst_append (c : Char) {a : List (List Char)} (ha : a ≠ []) (b : List (List Char)) :
    consFirst c (a ++ b) = consFirst c a ++ b := by
  obtain ⟨piece, pieces, rfl⟩ := List.exists_cons_of_ne_nil ha
  rfl

/-- A text that goes on behind a separator is split into the pieces of both parts. -/
theorem splitOn_append (separator : Char) (a b : List Char) :
    splitOn separator (a ++ separator :: b) = splitOn separator a ++ splitOn separator b := by
  induction a with
  | nil => exact if_pos rfl
  | cons c rest ih =>
    rw [List.cons_append, splitOn, splitOn, ih]
    -- A separator begins a piece, and anything else is put before the first piece, which is not
    -- that of `b`.
    by_cases hc : c = separator
    · rw [if_pos hc, if_pos hc, List.cons_append]
    · rw [if_neg hc, if_neg hc, consFirst_append c (splitOn_ne_nil separator rest)]

/-- A text without separators is one piece. -/
theorem splitOn_of_not_mem {separator : Char} {a : List Char} (h : separator ∉ a) :
    splitOn separator a = [a] := by
  induction a with
  | nil => rfl
  | cons c rest ih =>
    have hc : c ≠ separator := fun hc => h (hc ▸ List.mem_cons_self)
    have hrest : separator ∉ rest := fun hmem => h (List.mem_cons_of_mem _ hmem)
    rw [splitOn, if_neg hc, ih hrest, consFirst]

/-! ## Joining the pieces -/

/-- Splitting at a character is splitting at an item of a list. -/
theorem splitOn_eq (separator : Char) (a : List Char) :
    splitOn separator a = a.splitOn separator := by
  induction a with
  | nil => rfl
  | cons c rest ih =>
    obtain ⟨piece, pieces, hpieces⟩ := List.exists_cons_of_ne_nil (splitOn_ne_nil separator rest)
    rw [splitOn, List.splitOn_cons_eq_if_modifyHead, ← ih, hpieces]
    by_cases hc : c = separator <;> simp [hc, consFirst]

/-- No piece holds a separator. -/
theorem not_mem_of_mem_splitOn {separator : Char} {a piece : List Char}
    (h : piece ∈ splitOn separator a) : separator ∉ piece := by
  induction a generalizing piece with
  | nil =>
    rw [splitOn, List.mem_singleton] at h
    exact h ▸ List.not_mem_nil
  | cons c rest ih =>
    obtain ⟨first, pieces, hpieces⟩ := List.exists_cons_of_ne_nil (splitOn_ne_nil separator rest)
    rw [hpieces] at ih
    rw [splitOn, hpieces] at h
    split at h
    · rcases List.mem_cons.mp h with rfl | hmem
      · exact List.not_mem_nil
      · exact ih hmem
    -- The character is put before the first piece, and it is no separator.
    · next hc =>
      rcases List.mem_cons.mp h with rfl | hmem
      · rw [List.mem_cons, not_or]
        exact ⟨Ne.symm hc, ih List.mem_cons_self⟩
      · exact ih (List.mem_cons_of_mem _ hmem)

/-- Splitting and joining are inverse to each other on pieces that hold no separator. -/
theorem splitOn_eq_iff {separator : Char} {a : List Char} {pieces : List (List Char)} :
    splitOn separator a = pieces ↔
      pieces ≠ [] ∧ (∀ piece ∈ pieces, separator ∉ piece) ∧ [separator].intercalate pieces = a := by
  constructor
  · rintro rfl
    refine ⟨splitOn_ne_nil separator a, fun _ => not_mem_of_mem_splitOn, ?_⟩
    rw [splitOn_eq, List.intercalate_splitOn]
  -- Without a piece there would be nothing to join, and the empty text has one.
  · rintro ⟨hne, hpieces, rfl⟩
    rw [splitOn_eq, List.splitOn_intercalate separator hpieces hne]

/-! ## Empty pieces -/

/-- The first piece is empty if the text is, or begins with a separator. -/
theorem nil_mem_splitOn {separator : Char} (a : List Char) :
    [] ∈ splitOn separator a ↔
      a = [] ∨ a.head? = some separator ∨ [] ∈ (splitOn separator a).tail := by
  cases a with
  | nil => simp [splitOn]
  | cons c rest =>
    obtain ⟨piece, pieces, hpieces⟩ := List.exists_cons_of_ne_nil (splitOn_ne_nil separator rest)
    by_cases hc : c = separator <;> simp [splitOn, consFirst, hc, hpieces]

/-- A later piece is empty if the text ends with a separator or holds two in a row. -/
theorem nil_mem_tail_splitOn {separator : Char} (a : List Char) :
    [] ∈ (splitOn separator a).tail ↔
      a.getLast? = some separator ∨ [separator, separator] <:+: a := by
  induction a with
  | nil => simp [splitOn]
  | cons c rest ih =>
    obtain ⟨piece, pieces, hpieces⟩ := List.exists_cons_of_ne_nil (splitOn_ne_nil separator rest)
    have htail : (splitOn separator (c :: rest)).tail =
        if c = separator then splitOn separator rest else (splitOn separator rest).tail := by
      rw [splitOn, hpieces]
      split <;> rfl
    rw [htail]
    by_cases hc : c = separator
    · -- The piece behind the separator is the first of the rest.
      subst hc
      rw [if_pos rfl, nil_mem_splitOn, ih]
      cases rest with
      | nil => simp
      | cons d rest => simp [List.infix_cons_iff, eq_comm, or_left_comm]
    · rw [if_neg hc, ih]
      cases rest with
      | nil => simp [List.infix_cons_iff, hc]
      | cons d rest => simp [List.infix_cons_iff, Ne.symm hc]

end LayeredConfig.Text
