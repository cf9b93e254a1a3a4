import LayeredConfig.Text.Raw

/-! # Cursors into YAML text

The text that is left with the place it starts at, and the character classes that structure it.

* `Cursor`           the rest of a text and its place
* `Cursor.skip`      one character on
* `Cursor.readLine`  over a line break -/

namespace LayeredConfig.Yaml

/-- Whether a character may appear in a document as itself. -/
def isAllowed (c : Char) : Bool :=
  let n := c.toNat
  n == 0x09 || n == 0x0a || n == 0x0d || (0x20 ≤ n && n ≤ 0x7e) || n == 0x85 ||
    (0xa0 ≤ n && n ≤ 0xfffd) || 0x10000 ≤ n

/-- The characters that end a line. -/
def isBreak (c : Char) : Bool :=
  c == '\n' || c == '\r' || c == '\x85' || c == '\u2028' || c == '\u2029'

/-- Spaces and tabs. -/
def isBlank (c : Char) : Bool := c == ' ' || c == '\t'

/-- Letters, digits, the underscore and the hyphen of ASCII. -/
def isWord (c : Char) : Bool := c.isAlphanum || c == '_' || c == '-'

def isDigit (c : Char) : Bool := '0' ≤ c && c ≤ '9'

/-- The value of a hexadecimal digit. -/
def hexDigit? (c : Char) : Option Nat :=
  if '0' ≤ c && c ≤ '9' then some (c.toNat - 48)
  else if 'a' ≤ c && c ≤ 'f' then some (c.toNat - 87)
  else if 'A' ≤ c && c ≤ 'F' then some (c.toNat - 55)
  else none

/-- The bytes that characters take. -/
def byteCount : List Char → Nat
  | [] => 0
  | c :: rest => c.utf8Size + byteCount rest

/-- The characters that are left and the place of the first, counted from zero. -/
structure Cursor where
  rest : List Char
  /-- The bytes before it. -/
  index : Nat
  line : Nat
  column : Nat
deriving Repr

namespace Cursor

/-- The character `n` places ahead, or the null character behind the end. -/
def ahead (c : Cursor) (n : Nat) : Char := c.rest.getD n '\x00'

/-- The character at the cursor, or the null character at the end. -/
def head (c : Cursor) : Char := c.ahead 0

def atEnd (c : Cursor) : Bool := c.rest.isEmpty

/-- Whether the character `n` places ahead is a blank, a break or the end. -/
def blankAhead (c : Cursor) (n : Nat) : Bool :=
  isBlank (c.ahead n) || isBreak (c.ahead n) || c.ahead n == '\x00'

/-- Whether the cursor is at a break or the end. -/
def atLineEnd (c : Cursor) : Bool := isBreak c.head || c.atEnd

/-- `n` characters on, none of them a break. -/
def skip (c : Cursor) (n : Nat) : Cursor :=
  { c with
    rest := c.rest.drop n
    index := c.index + byteCount (c.rest.take n)
    column := c.column + n }

/-- Over the characters that satisfy `p`, none of which is a break. -/
def skipWhile (c : Cursor) (p : Char → Bool) : Cursor := c.skip (c.rest.takeWhile p).length

/-- The break at the cursor, as a line feed unless it is a separator of its own, and the cursor
behind it. -/
def readLine (c : Cursor) : List Char × Cursor :=
  match c.rest with
  | '\r' :: '\n' :: rest => (['\n'], ⟨rest, c.index + 2, c.line + 1, 0⟩)
  | x :: rest =>
    if isBreak x then
      ([if x == '\u2028' || x == '\u2029' then x else '\n'], ⟨rest, c.index + x.utf8Size, c.line + 1, 0⟩)
    else ([], c)
  | [] => ([], c)

/-- Behind the break at the cursor. -/
def skipLine (c : Cursor) : Cursor := c.readLine.2

/-- Over blanks, and a comment if one follows. -/
def skipComment (c : Cursor) : Cursor :=
  let c := c.skipWhile isBlank
  if c.head = '#' then c.skipWhile fun x => !isBreak x else c

/-- Whether a line starts here with three times `x` and nothing attached. -/
def atMarker (c : Cursor) (x : Char) : Bool :=
  c.column == 0 && c.ahead 0 == x && c.ahead 1 == x && c.ahead 2 == x && c.blankAhead 3

/-- Whether a document ends or starts here. -/
def atDocumentMarker (c : Cursor) : Bool := c.atMarker '-' || c.atMarker '.'

end Cursor
end LayeredConfig.Yaml
