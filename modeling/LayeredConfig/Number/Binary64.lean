/-! # Binary floating-point numbers

IEEE 754 binary64 numbers by their encoding, with all arithmetic done exactly on naturals and
rounded once.

* `Binary64.fraction`   the exact magnitude of a finite number
* `Binary64.ofRatio`    the nearest number to a fraction, ties to even
* `Binary64.toInt?`     the integer that a number denotes, if it denotes one
* `Binary64.sameNumber` numeric equality: no NaN equals anything, both zeros are equal -/

namespace LayeredConfig

/-- A binary64 number, given by its 64 bits. -/
structure Binary64 where
  /-- Sign, biased exponent and fraction, from the highest bit down. -/
  bits : UInt64
deriving DecidableEq, Repr, Inhabited

namespace Binary64

/-- The magnitude bits of infinity: the first that no finite number has. -/
def infinityBits : Nat := 0x7ff0000000000000

/-- The sign bit, above the 63 bits of the magnitude. -/
def signBit : Nat := 0x8000000000000000

/-- The leading bit of a normal significand, above the 52 bits of the fraction. -/
def leadingBit : Nat := 0x10000000000000

/-- The bits below the sign. -/
def magnitude (x : Binary64) : Nat := x.bits.toNat % signBit

/-- Whether the sign bit is set. -/
def negative (x : Binary64) : Bool := signBit ≤ x.bits.toNat

def isNaN (x : Binary64) : Bool := infinityBits < x.magnitude

def isFinite (x : Binary64) : Bool := x.magnitude < infinityBits

def isZero (x : Binary64) : Bool := x.magnitude == 0

/-- The number with the given sign and magnitude bits. -/
def ofMagnitude (negative : Bool) (magnitude : Nat) : Binary64 :=
  ⟨UInt64.ofNat (magnitude % signBit + if negative then signBit else 0)⟩

def infinity (negative : Bool) : Binary64 := ofMagnitude negative infinityBits

/-- The NaN with the leading fraction bit set. -/
def nan (negative : Bool) : Binary64 := ofMagnitude negative (infinityBits + leadingBit / 2)

def zero : Binary64 := ⟨0⟩

/-- The significand `m` of a finite number `± m · 2 ^ e`. -/
def significand (x : Binary64) : Nat :=
  if x.magnitude < leadingBit then x.magnitude else x.magnitude % leadingBit + leadingBit

/-- The exponent `e` of a finite number `± m · 2 ^ e`. -/
def exponent (x : Binary64) : Int :=
  if x.magnitude < leadingBit then -1074 else (x.magnitude / leadingBit : Nat) - 1075

/-- The fraction `m · 2 ^ e`, as numerator and denominator. -/
def scaled (m : Nat) (e : Int) : Nat × Nat :=
  if 0 ≤ e then (m <<< e.toNat, 1) else (m, 1 <<< (-e).toNat)

/-- The magnitude of a finite number as numerator and denominator. -/
def fraction (x : Binary64) : Nat × Nat := scaled x.significand x.exponent

/-! ## Rounding -/

/-- `num / den` rounded to the nearest natural, a tie to the even one. -/
def roundEven (num den : Nat) : Nat :=
  let q := num / den
  match compare (2 * (num % den)) den with
  | .lt => q
  | .eq => if q % 2 = 0 then q else q + 1
  | .gt => q + 1

/-- `num / (den · 2 ^ e)` as numerator and denominator. -/
def shifted (num den : Nat) (e : Int) : Nat × Nat :=
  if 0 ≤ e then (num, den <<< e.toNat) else (num <<< (-e).toNat, den)

/-- The exponent at which `num / den` keeps 53 bits, or the least exponent if it has fewer. -/
def roundingExponent (num den : Nat) : Int :=
  let e := max (-1074) ((num.log2 : Int) - den.log2 - 53)
  let s := shifted num den e
  if 2 * leadingBit ≤ s.1 / s.2 then e + 1 else e

/-- The number nearest to `num / den`, a tie to the even significand; infinity if that number would
need a greater exponent than there is. -/
def ofRatio (negative : Bool) (num den : Nat) : Binary64 :=
  if num = 0 then ofMagnitude negative 0
  else
    let e := roundingExponent num den
    let s := shifted num den e
    -- A significand that rounds up to the next power of two carries into the exponent.
    ofMagnitude negative (min infinityBits ((e + 1074).toNat * leadingBit + roundEven s.1 s.2))

/-- The number nearest to an integer. -/
def ofInt (i : Int) : Binary64 := ofRatio (i < 0) i.natAbs 1

/-- The number nearest to `digits · 10 ^ e`.  Exponents far outside the range are decided without
computing the power. -/
def ofDecimal (negative : Bool) (digits : Nat) (e : Int) : Binary64 :=
  if digits = 0 then ofMagnitude negative 0
  else
    -- The decimal exponent of the number, to within one.
    let lead := e + ((digits.log2 * 30103 / 100000 : Nat) : Int)
    if 400 < lead then infinity negative
    else if lead < -400 then ofMagnitude negative 0
    else if 0 ≤ e then ofRatio negative (digits * Nat.pow 10 e.toNat) 1
    else ofRatio negative digits (Nat.pow 10 (-e).toNat)

/-! ## Arithmetic on finite numbers -/

/-- The product of two finite numbers. -/
def mul (x y : Binary64) : Binary64 :=
  let a := x.fraction
  let b := y.fraction
  ofRatio (x.negative != y.negative) (a.1 * b.1) (a.2 * b.2)

/-- The quotient of two finite numbers, the second not zero. -/
def div (x y : Binary64) : Binary64 :=
  let a := x.fraction
  let b := y.fraction
  ofRatio (x.negative != y.negative) (a.1 * b.2) (a.2 * b.1)

/-- The number with the opposite sign. -/
def neg (x : Binary64) : Binary64 := ofMagnitude (!x.negative) x.magnitude

/-- The integer that a finite number equals, if it equals one. -/
def toInt? (x : Binary64) : Option Int :=
  if x.isFinite then
    let f := x.fraction
    if f.1 % f.2 = 0 then
      some (if x.negative then -((f.1 / f.2 : Nat) : Int) else (f.1 / f.2 : Nat))
    else none
  else none

/-- Numeric equality: a NaN equals nothing and the two zeros are equal. -/
def sameNumber (x y : Binary64) : Bool :=
  !x.isNaN && !y.isNaN && (x.bits == y.bits || (x.isZero && y.isZero))

end Binary64
end LayeredConfig
