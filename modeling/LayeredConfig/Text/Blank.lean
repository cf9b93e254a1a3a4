/-! # Blank characters

The `White_Space` property of Unicode and trimming by it.

* `isBlank`  membership in `White_Space`
* `trim`     drop blanks at both ends -/

namespace LayeredConfig.Text

/-- The 25 characters with the Unicode property `White_Space`. -/
def isBlank (c : Char) : Bool :=
  let n := c.toNat
  (0x09 ≤ n && n ≤ 0x0d) || n == 0x20 || n == 0x85 || n == 0xa0 || n == 0x1680 ||
    (0x2000 ≤ n && n ≤ 0x200a) || n == 0x2028 || n == 0x2029 || n == 0x202f || n == 0x205f ||
    n == 0x3000

/-- Drop the blanks at the start. -/
def trimStart (s : List Char) : List Char := s.dropWhile isBlank

/-- Drop the blanks at the end. -/
def trimEnd : List Char → List Char
  | [] => []
  | c :: rest =>
    match trimEnd rest with
    | [] => if isBlank c then [] else [c]
    | kept => c :: kept

/-- Drop the blanks at both ends. -/
def trim (s : List Char) : List Char := trimEnd (trimStart s)

end LayeredConfig.Text

namespace String

/-- The text without blanks at its end. -/
def trimBlanksEnd (s : String) : String := .ofList (LayeredConfig.Text.trimEnd s.toList)

end String
