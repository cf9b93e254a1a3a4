import LayeredConfig.Text.Printable

/-! # Quoted diagnostic text

How identifiers appear inside diagnostics: between double quotes, with the quote, the backslash and
the usual controls escaped by a letter and every other character that is not printable escaped by
its code point.

* `quoted`  the quoted form of a text -/

namespace LayeredConfig.Text

/-- The digits of `n` in base sixteen, in lower case and without leading zeros. -/
def hexDigits (n : Nat) : List Char := Nat.toDigits 16 n

/-- One character of a quoted text. -/
def escapeQuoted (c : Char) : List Char :=
  if c = '"' then ['\\', '"']
  else if c = '\\' then ['\\', '\\']
  else if c = '\n' then ['\\', 'n']
  else if c = '\r' then ['\\', 'r']
  else if c = '\t' then ['\\', 't']
  else if c = '\x00' then ['\\', '0']
  else if isPrintable c then [c]
  else '\\' :: 'u' :: '\x7b' :: (hexDigits c.toNat ++ ['\x7d'])

/-- A text between double quotes, escaped so that the quotes can be found again. -/
def quoted (s : String) : String :=
  .ofList ('"' :: (s.toList.flatMap escapeQuoted ++ ['"']))

end LayeredConfig.Text
