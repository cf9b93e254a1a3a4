import LayeredConfig.Json.Basic
import LayeredConfig.Number.Layout

/-! # JSON text

Documents as text, in one line or indented by two spaces a level.

* `Json.quote`     strings and keys between quotes
* `Json.compact`   no white space
* `Json.pretty`    one item or member a line -/

namespace LayeredConfig.Json

/-- Floating-point numbers are positional from `0.00001` to below `10 ^ 16`, and positive exponents
carry a plus sign. -/
def layout : Layout := ⟨-5, 15, true⟩

/-- A hexadecimal digit in lower case. -/
def hexDigit (n : Nat) : Char := Nat.digitChar (n % 16)

/-- One character of a quoted string: quotes, backslashes and the controls of ASCII are escaped. -/
def escape (c : Char) : List Char :=
  if c = '"' then ['\\', '"']
  else if c = '\\' then ['\\', '\\']
  else if c = '\n' then ['\\', 'n']
  else if c = '\r' then ['\\', 'r']
  else if c = '\t' then ['\\', 't']
  else if c = '\x08' then ['\\', 'b']
  else if c = '\x0c' then ['\\', 'f']
  else if c.toNat < 0x20 then ['\\', 'u', '0', '0', hexDigit (c.toNat / 16), hexDigit c.toNat]
  else [c]

/-- A string between quotes. -/
def quote (s : String) : List Char := '"' :: (s.toList.flatMap escape ++ ['"'])

/-- The text of a number. -/
def Number.text : Number → List Char
  | .integer i _ => Numeral.ofInt i
  | .real x _ => (layout.write x).toList

/-- The text of a truth value. -/
def boolText (b : Bool) : List Char := if b then "true".toList else "false".toList

/-! ## One line -/

mutual

/-- The characters of a document without white space. -/
def compactChars : Json → List Char
  | .null => "null".toList
  | .bool b => boolText b
  | .number n => n.text
  | .string s => quote s
  | .array items => '[' :: compactItems true items
  | .object members => '\x7b' :: compactMembers true members

/-- The items that remain, and the closing bracket; `first` tells that none was written yet. -/
def compactItems (first : Bool) : List Json → List Char
  | [] => [']']
  | item :: rest =>
    (if first then [] else [',']) ++ compactChars item ++ compactItems false rest

/-- The members that remain, and the closing brace. -/
def compactMembers (first : Bool) {lo : Option String} : Entries String Json lo → List Char
  | .nil => ['\x7d']
  | .cons k v _ rest =>
    (if first then [] else [',']) ++ quote k ++ ':' :: compactChars v ++ compactMembers false rest

end

/-- The document in one line, without white space. -/
def compact (j : Json) : String := .ofList j.compactChars

/-! ## Indented -/

/-- A line end and the indentation of a level. -/
def newline (level : Nat) : List Char := '\n' :: List.replicate (2 * level) ' '

mutual

/-- The characters of an indented document whose first line stands at `level`.  Empty arrays and
objects stay on their line. -/
def prettyChars (level : Nat) : Json → List Char
  | .null => "null".toList
  | .bool b => boolText b
  | .number n => n.text
  | .string s => quote s
  | .array [] => "[]".toList
  | .array (item :: rest) =>
    '[' :: newline (level + 1) ++ prettyChars (level + 1) item ++ prettyItems level rest
  | .object .nil => ['\x7b', '\x7d']
  | .object (.cons k v _ rest) =>
    '\x7b' :: newline (level + 1) ++ quote k ++ ": ".toList ++ prettyChars (level + 1) v ++
      prettyMembers level rest

/-- The items after the first, and the closing bracket on a line of its own. -/
def prettyItems (level : Nat) : List Json → List Char
  | [] => newline level ++ [']']
  | item :: rest =>
    ',' :: newline (level + 1) ++ prettyChars (level + 1) item ++ prettyItems level rest

/-- The members after the first, and the closing brace on a line of its own. -/
def prettyMembers (level : Nat) {lo : Option String} : Entries String Json lo → List Char
  | .nil => newline level ++ ['\x7d']
  | .cons k v _ rest =>
    ',' :: newline (level + 1) ++ quote k ++ ": ".toList ++ prettyChars (level + 1) v ++
      prettyMembers level rest

end

/-- The document indented by two spaces a level, without a line end after it. -/
def pretty (j : Json) : String := .ofList (prettyChars 0 j)

end LayeredConfig.Json
