import LayeredConfig.Proofs.Text.Trimming
import LayeredConfig.Text.Lines

/-!
# Texts made of lines

How the lines of a text follow from the lines and line ends that it is made of, and what a line end
changes that is put behind a text.

## Key results

- `Text.lines_line`: the first line of a text is found again
- `Text.lines_append_lineEnd`: a line end completes the last line of a text or adds an empty one
- `Text.trim_strip`: what a line end takes of a line is a blank
-/

namespace LayeredConfig.Text

variable {s line : List Char}

/-- What ends a line: a line feed, maybe with a carriage return before it. -/
inductive LineEnd
  | feed
  | returnFeed

namespace LineEnd

def text : LineEnd → List Char
  | feed => ['\n']
  | returnFeed => ['\r', '\n']

/-- What is read of a line with this end: a carriage return at the end of the line itself is taken
for a part of the line end. -/
def strip : LineEnd → List Char → List Char
  | feed, line => dropReturn line
  | returnFeed, line => line

end LineEnd

/-! ## Carriage returns -/

/-- A carriage return at the end is dropped. -/
theorem dropReturn_append_return (s : List Char) : dropReturn (s ++ ['\r']) = s := by
  induction s with
  | nil => rfl
  | cons c s ih =>
    -- The last character is not the first one, so the first one stays.
    rw [List.cons_append, dropReturn, ih]
    simp

/-- Nothing but a carriage return at the end is ever dropped. -/
theorem dropReturn_cases (s : List Char) : dropReturn s = s ∨ s = dropReturn s ++ ['\r'] := by
  induction s using dropReturn.induct with
  | case1 => exact .inl rfl
  | case2 => exact .inr rfl
  | case3 c s h ih =>
    have hcons : dropReturn (c :: s) = c :: dropReturn s := by
      rw [dropReturn]
      exact h
    rw [hcons]
    rcases ih with ih | ih
    · exact .inl (by rw [ih])
    · exact .inr (by rw [List.cons_append, ← ih])

/-- A carriage return is blank, so trimming takes it anyway. -/
theorem trim_dropReturn (s : List Char) : trim (dropReturn s) = trim s := by
  rcases dropReturn_cases s with h | h
  · rw [h]
  · have hblank : ∀ c ∈ ['\r'], isBlank c = true := List.forall_mem_singleton.mpr rfl
    conv_rhs => rw [h, trim_append_blanks _ hblank]

/-- What a line end takes of a line is a blank. -/
theorem trim_strip (e : LineEnd) (s : List Char) : trim (e.strip s) = trim s := by
  cases e with
  | feed => exact trim_dropReturn s
  | returnFeed => rfl

/-! ## Lines -/

/-- A text without line feeds is read into the current line. -/
theorem linesFrom_append_of_not_mem (h : '\n' ∉ s) (line rest : List Char) :
    linesFrom line (s ++ rest) = linesFrom (s.reverse ++ line) rest := by
  induction s generalizing line with
  | nil => rfl
  | cons c s ih =>
    rw [List.mem_cons, not_or] at h
    obtain ⟨hc, hs⟩ := h
    simp [linesFrom, Ne.symm hc, ih hs]

/-- The first line of a text is found again, and the others are those of the rest. -/
theorem lines_line (h : '\n' ∉ line) (e : LineEnd) (rest : List Char) :
    lines (line ++ (e.text ++ rest)) = e.strip line :: lines rest := by
  rw [lines, linesFrom_append_of_not_mem h]
  cases e with
  | feed => simp [LineEnd.text, LineEnd.strip, linesFrom, lines]
  | returnFeed => simp [LineEnd.text, LineEnd.strip, linesFrom, lines, dropReturn_append_return]

/-- A text without line feeds is a line, unless it is empty. -/
theorem lines_of_not_mem (h : '\n' ∉ s) : lines s = if s = [] then [] else [s] := by
  have hs := linesFrom_append_of_not_mem h [] []
  rw [List.append_nil, List.append_nil] at hs
  rw [lines, hs, linesFrom]
  simp

/-- Behind a line end the lines are those of the rest. -/
theorem lines_append_text (s : List Char) (e : LineEnd) (rest : List Char) :
    lines (s ++ (e.text ++ rest)) = lines (s ++ e.text) ++ lines rest := by
  cases e with
  | feed => exact lines_append s rest
  | returnFeed => simpa [LineEnd.text] using lines_append (s ++ ['\r']) rest

/-- A line end behind a text completes the last line, or makes an empty one where the lines are
complete. -/
theorem lines_append_lineEnd (s : List Char) (e : LineEnd) :
    lines (s ++ e.text) = lines s ++ [[]] ∨
      ∃ before last, lines s = before ++ [last] ∧ lines (s ++ e.text) = before ++ [e.strip last] := by
  -- For any line that was begun before the text, since reading on begins one with each character.
  suffices ∀ line, linesFrom line (s ++ e.text) = linesFrom line s ++ [[]] ∨
      ∃ before last, linesFrom line s = before ++ [last] ∧
        linesFrom line (s ++ e.text) = before ++ [e.strip last] from this []
  induction s with
  | nil =>
    intro line
    -- What was read of the last line is the line, if it is not empty.
    have hend : linesFrom line e.text = [e.strip line.reverse] := by
      cases e with
      | feed => rfl
      | returnFeed => simp [LineEnd.text, LineEnd.strip, linesFrom, dropReturn_append_return]
    cases line with
    | nil => exact .inl (by cases e <;> rfl)
    | cons c line => exact .inr ⟨[], (c :: line).reverse, rfl, hend⟩
  | cons c s ih =>
    intro line
    -- A line feed completes the line, and the rest begins a new one.
    by_cases hc : c = '\n'
    · simp only [List.cons_append, linesFrom, if_pos hc]
      rcases ih [] with h | ⟨before, last, hs, h⟩
      · exact .inl (by rw [h])
      · exact .inr ⟨dropReturn line.reverse :: before, last, by rw [hs]; rfl, by rw [h]; rfl⟩
    · simp only [List.cons_append, linesFrom, if_neg hc]
      exact ih (c :: line)

end LayeredConfig.Text
