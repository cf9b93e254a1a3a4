import LayeredConfig.Json.Basic

/-! # JSON numbers, digit by digit

A number is read as an automaton over its characters.  The significand is kept in 64 unsigned bits;
digits beyond are dropped and only their places count.  A number with a fraction, an exponent or too
many digits is the significand as a float, scaled by a power of ten that is itself a float.

* `NumberState`          how far a number has been read
* `NumberState.next`     one more character
* `NumberState.finish`   the number that ends here -/

namespace LayeredConfig.Json

/-- What can be wrong with the text of a number. -/
inductive NumberFault
  | invalid
  | outOfRange
  | unfinished
deriving DecidableEq, Repr

/-- How far a number has been read.  A significand `s` with exponent `e` stands for `s · 10 ^ e`. -/
inductive NumberState
  /-- After the minus sign. -/
  | sign
  /-- After a leading zero. -/
  | zero
  /-- In the integer part. -/
  | integer (s : Nat)
  /-- In an integer part too long for the significand. -/
  | long (s : Nat) (e : Int)
  /-- After the point, before any digit of the fraction. -/
  | point (s : Nat) (e : Int)
  /-- In the fraction. -/
  | fraction (s : Nat) (e : Int)
  /-- In a fraction too long for the significand. -/
  | longFraction (s : Nat) (e : Int)
  /-- After the exponent mark. -/
  | mark (s : Nat) (e : Int)
  /-- After the sign of the exponent. -/
  | exponentSign (s : Nat) (e : Int) (negative : Bool)
  /-- In the exponent, which is `n` so far. -/
  | exponent (s : Nat) (e : Int) (negative : Bool) (n : Nat)
  /-- In an exponent so low, or on a zero so high, that the number is zero. -/
  | vanished
deriving DecidableEq, Repr

namespace NumberState

/-- The value of a decimal digit. -/
def digit? (c : Char) : Option Nat :=
  if '0' ≤ c && c ≤ '9' then some (c.toNat - 48) else none

/-- The significand followed by one more digit, if it still fits 64 bits. -/
def append? (s d : Nat) : Option Nat :=
  if s * 10 + d < 18446744073709551616 then some (s * 10 + d) else none

/-- The state after a digit of the fraction. -/
def fractionDigit (s : Nat) (e : Int) (d : Nat) : NumberState :=
  match append? s d with
  | some s => .fraction s (e - 1)
  | none => .longFraction s e

/-- The state after a digit of the exponent, which is kept in 31 bits. -/
def exponentDigit (s : Nat) (e : Int) (negative : Bool) (n d : Nat) :
    Except NumberFault NumberState :=
  if n * 10 + d < 2147483648 then .ok (.exponent s e negative (n * 10 + d))
  else if s ≠ 0 ∧ negative = false then .error .outOfRange
  else .ok .vanished

/-- The state of a significand with exponent at a character that is no digit, if the number goes on
with it. -/
def afterDigits (s : Nat) (e : Int) (points : Bool) (c : Char) : Option NumberState :=
  if c = '.' && points then some (.point s e)
  else if c = 'e' || c = 'E' then some (.mark s e)
  else none

/-- Read one more character; nothing if the number ends before it. -/
def next (st : NumberState) (c : Char) : Except NumberFault (Option NumberState) :=
  match st, digit? c with
  | .sign, some d => .ok (some (if d = 0 then .zero else .integer d))
  | .sign, none => .error .invalid
  | .zero, some _ => .error .invalid
  | .zero, none => .ok (afterDigits 0 0 true c)
  | .integer s, some d =>
    .ok (some (match append? s d with
      | some s => .integer s
      | none => .long s 1))
  | .integer s, none => .ok (afterDigits s 0 true c)
  | .long s e, some _ => .ok (some (.long s (e + 1)))
  | .long s e, none => .ok (afterDigits s e true c)
  | .point s e, some d => .ok (some (fractionDigit s e d))
  | .point .., none => .error .invalid
  | .fraction s e, some d => .ok (some (fractionDigit s e d))
  | .fraction s e, none => .ok (afterDigits s e false c)
  | .longFraction s e, some _ => .ok (some (.longFraction s e))
  | .longFraction s e, none => .ok (afterDigits s e false c)
  | .mark s e, some d => (exponentDigit s e false 0 d).map some
  | .mark s e, none =>
    if c = '+' || c = '-' then .ok (some (.exponentSign s e (c == '-'))) else .error .invalid
  | .exponentSign s e negative, some d => (exponentDigit s e negative 0 d).map some
  | .exponentSign .., none => .error .invalid
  | .exponent s e negative n, some d => (exponentDigit s e negative n d).map some
  | .exponent .., none => .ok none
  | .vanished, some _ => .ok (some .vanished)
  | .vanished, none => .ok none

/-! ## Values -/

/-- The float nearest to a power of ten up to `10 ^ 308`. -/
def powerOfTen (n : Nat) : Binary64 := .ofRatio false (Nat.pow 10 n) 1

/-- Divide by powers of ten until an exponent below `-308` comes into range.  Every step of at least
308 makes the number smaller by that much, so a few steps decide. -/
def lower : Nat → Binary64 → Nat → Binary64
  | 0, _, _ => .zero
  | fuel + 1, x, n =>
    if n ≤ 308 then x.div (powerOfTen n)
    else if x.isZero then x
    else lower fuel (x.div (powerOfTen 308)) (n - 308)

/-- The float for `s · 10 ^ e`: the significand is rounded, then the product or quotient. -/
def scaled (s : Nat) (e : Int) : Binary64 :=
  let x := Binary64.ofInt s
  if 308 < e then if x.isZero then x else .infinity false
  else if 0 ≤ e then x.mul (powerOfTen e.toNat)
  else lower 4 x (-e).toNat

/-- The number with the given magnitude, unless it is infinite. -/
def real (negative : Bool) (x : Binary64) : Except NumberFault Number :=
  let y := if negative then x.neg else x
  if h : y.isFinite = true then .ok (.real y h) else .error .outOfRange

/-- The number of an integer without fraction or exponent.  Zero with a minus sign, and an integer
below `-2 ^ 63`, are floats. -/
def whole (negative : Bool) (s : Nat) : Except NumberFault Number :=
  let i : Int := if negative then -s else s
  if h : (-9223372036854775808 ≤ i ∧ i < 18446744073709551616) ∧ ¬(negative = true ∧ s = 0) then
    .ok (.integer i h.1)
  else real negative (.ofInt s)

/-- The number that ends here. -/
def finish (negative : Bool) : NumberState → Except NumberFault Number
  | .zero => whole negative 0
  | .integer s => whole negative s
  | .long s e => real negative (scaled s e)
  | .fraction s e => real negative (scaled s e)
  | .longFraction s e => real negative (scaled s e)
  | .exponent s e down n =>
    real negative (scaled s (if down then max (-2147483648) (e - n) else min 2147483647 (e + n)))
  | .vanished => real negative .zero
  -- In these states a digit is still due.
  | .sign => .error .unfinished
  | .point .. => .error .unfinished
  | .mark .. => .error .unfinished
  | .exponentSign .. => .error .unfinished

end NumberState
end LayeredConfig.Json
