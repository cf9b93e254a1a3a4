import LayeredConfig.Number.Binary64

/-! # Numerals

Decimal numerals in plain text, as configuration files and environment variables hold them.

* `Numeral.ofNat`    the digits of a natural number
* `Numeral.ofInt`    the digits of an integer, with a minus sign if it is negative
* `Numeral.int?`     an optional sign and decimal digits
* `Numeral.float?`   a decimal numeral with optional fraction and exponent, or a special value -/

namespace LayeredConfig.Numeral

/-- The digits of a natural number, without leading zeros. -/
def ofNat (n : Nat) : List Char := Nat.toDigits 10 n

/-- The digits of an integer, after a minus sign if it is negative. -/
def ofInt (i : Int) : List Char := if i < 0 then '-' :: ofNat i.natAbs else ofNat i.natAbs

/-- The ten ASCII digits. -/
def isDigit (c : Char) : Bool := '0' ≤ c && c ≤ '9'

/-- The natural number that a list of decimal digits denotes. -/
def ofDigits (ds : List Char) : Nat := ds.foldl (fun n c => 10 * n + (c.toNat - 48)) 0

/-- Split off a sign; the first part is true of a minus sign. -/
def takeSign : List Char → Bool × List Char
  | '-' :: rest => (true, rest)
  | '+' :: rest => (false, rest)
  | rest => (false, rest)

/-- The integer denoted by an optional sign and at least one decimal digit. -/
def int? (s : List Char) : Option Int :=
  let (negative, ds) := takeSign s
  if ds.isEmpty || !ds.all isDigit then none
  else some (if negative then -(ofDigits ds : Int) else ofDigits ds)

/-- The decimal exponent after the digits: nothing, or `e` with an optional sign and digits. -/
def exponent? : List Char → Option Int
  | [] => some 0
  | c :: rest => if c = 'e' || c = 'E' then int? rest else none

/-- The number denoted by a special name, in any case. -/
def special? (negative : Bool) (s : List Char) : Option Binary64 :=
  match String.ofList (s.map Char.toLower) with
  | "inf" => some (.infinity negative)
  | "infinity" => some (.infinity negative)
  | "nan" => some (.nan negative)
  | _ => none

/-- The number nearest to an unsigned decimal numeral, in which digits may be missing on one side of
the point. -/
def decimal? (negative : Bool) (s : List Char) : Option Binary64 :=
  let whole := s.takeWhile isDigit
  let rest := s.dropWhile isDigit
  let fraction := match rest with
    | '.' :: r => r.takeWhile isDigit
    | _ => []
  let tail := match rest with
    | '.' :: r => r.dropWhile isDigit
    | r => r
  if whole.isEmpty && fraction.isEmpty then none
  else (exponent? tail).map fun e =>
    .ofDecimal negative (ofDigits (whole ++ fraction)) (e - fraction.length)

/-- The number nearest to a decimal numeral, or a special value. -/
def float? (s : List Char) : Option Binary64 :=
  let (negative, body) := takeSign s
  (special? negative body).or (decimal? negative body)

end LayeredConfig.Numeral
