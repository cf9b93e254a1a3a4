import LayeredConfig.Number.Binary64

/-! # Shortest decimals

The shortest decimal that reads back as a given binary number.  The reals that round to the number
form an interval, with its ends if the significand is even.  The coarsest decimal grid with a point
in the interval has one at a neighbour of the number, and of two such neighbours the nearer one is
taken, the even one if they are equally near.

* `Decimal`             a decimal magnitude
* `Binary64.shortest`   the digits and their decimal exponent -/

namespace LayeredConfig

/-- A decimal magnitude `digits · 10 ^ exponent`. -/
structure Decimal where
  digits : Nat
  exponent : Int
deriving DecidableEq, Repr

namespace Binary64

/-- The reals that round to `v`, scaled by a common denominator. -/
structure Interval where
  low : Nat
  value : Nat
  high : Nat
  den : Nat
  closed : Bool

/-- The rounding interval of the finite magnitude `m · 2 ^ e`.  Below a power of two the numbers lie
closer together, so there the lower half is half as wide. -/
def interval (m : Nat) (e : Int) : Interval :=
  let s := scaled 1 (e - 2)
  let lower := if m = leadingBit && decide (-1074 < e) then 1 else 2
  { low := (4 * m - lower) * s.1
    value := 4 * m * s.1
    high := (4 * m + 2) * s.1
    den := s.2
    closed := m % 2 == 0 }

/-- Measure the interval in units of `10 ^ k`. -/
def Interval.inUnits (i : Interval) (k : Int) : Interval :=
  if 0 ≤ k then { i with den := i.den * Nat.pow 10 k.toNat }
  else
    let f := Nat.pow 10 (-k).toNat
    { i with low := i.low * f, value := i.value * f, high := i.high * f }

/-- Whether the integer `n` lies in the interval. -/
def Interval.has (i : Interval) (n : Nat) : Bool :=
  if i.closed then i.low ≤ n * i.den && n * i.den ≤ i.high
  else i.low < n * i.den && n * i.den < i.high

/-- The integer in the interval next to its value, if a neighbour of the value lies in it. -/
def Interval.nearest? (i : Interval) : Option Nat :=
  let below := i.value / i.den
  match i.has below, i.has (below + 1) with
  | false, false => none
  | true, false => some below
  | false, true => some (below + 1)
  | true, true =>
    -- Both neighbours read back: the nearer one is the better text.
    match compare (2 * (i.value % i.den)) i.den with
    | .lt => some below
    | .gt => some (below + 1)
    | .eq => some (if below % 2 = 0 then below else below + 1)

/-- The first hit on the grids `10 ^ k`, `10 ^ (k - 1)`, …; seventeen digits always suffice, so
twenty grids below a bound on the number do. -/
def Interval.search (i : Interval) : Nat → Int → Decimal
  | 0, k => ⟨(i.inUnits k).value / (i.inUnits k).den, k⟩
  | n + 1, k =>
    match (i.inUnits k).nearest? with
    | some d => ⟨d, k⟩
    | none => i.search n (k - 1)

/-- The shortest decimal that rounds to the magnitude of the finite number `x`, the nearest to `x`
among those. -/
def shortest (x : Binary64) : Decimal :=
  if x.isZero then ⟨0, 0⟩
  else
    let m := x.significand
    let e := x.exponent
    (interval m e).search 20 ((m.log2 + e + 1) * 30103 / 100000 + 1)

end Binary64
end LayeredConfig
