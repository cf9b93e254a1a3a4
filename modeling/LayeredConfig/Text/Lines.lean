/-! # Lines

A line ends at a line feed, and a carriage return just before it belongs to the line end.

* `lines`          the lines of a text, without their ends
* `lines_append`   a text that ends a line can be split off -/

namespace LayeredConfig.Text

/-- The text without one carriage return at its end. -/
def dropReturn : List Char → List Char
  | [] => []
  | ['\r'] => []
  | c :: rest => c :: dropReturn rest

/-- The lines of a text, without their ends.  The text after the last line feed is a line if it is
not empty, and there a final carriage return is kept. -/
def linesFrom (line : List Char) : List Char → List (List Char)
  | [] => if line.isEmpty then [] else [line.reverse]
  | c :: rest =>
    if c = '\n' then dropReturn line.reverse :: linesFrom [] rest else linesFrom (c :: line) rest

/-- The lines of a text. -/
def lines (s : List Char) : List (List Char) := linesFrom [] s

theorem linesFrom_append (line s rest : List Char) :
    linesFrom line (s ++ '\n' :: rest) = linesFrom line (s ++ ['\n']) ++ lines rest := by
  induction s generalizing line with
  | nil => simp [linesFrom, lines]
  | cons c s ih => by_cases h : c = '\n' <;> simp [linesFrom, h, ih]

/-- A text that ends a line can be split off. -/
theorem lines_append (s rest : List Char) :
    lines (s ++ '\n' :: rest) = lines (s ++ ['\n']) ++ lines rest := linesFrom_append [] s rest

end LayeredConfig.Text
