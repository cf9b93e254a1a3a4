import LayeredConfig.Number.Shortest
import LayeredConfig.Number.Numeral

/-! # Number layouts

How the shortest digits of a number are set: in positional notation with a decimal point while the
leading digit is near the point, otherwise with an exponent.

* `Layout`         the choices that formats make
* `Layout.write`   the text of a finite number -/

namespace LayeredConfig

/-- The choices of a number format. -/
structure Layout where
  /-- The least exponent of the leading digit written positionally. -/
  least : Int
  /-- The greatest exponent of the leading digit written positionally. -/
  most : Int
  /-- Whether a positive exponent carries a plus sign. -/
  plus : Bool

namespace Layout

/-- Positional notation, with at least one digit on either side of the point. -/
def positional (d : Decimal) : List Char :=
  let ds := Numeral.ofNat d.digits
  if 0 ≤ d.exponent then ds ++ List.replicate d.exponent.toNat '0' ++ ['.', '0']
  else
    let places := (-d.exponent).toNat
    if places < ds.length then ds.take (ds.length - places) ++ '.' :: ds.drop (ds.length - places)
    else '0' :: '.' :: (List.replicate (places - ds.length) '0' ++ ds)

/-- Scientific notation: a point only if there is more than one digit. -/
def scientific (plus : Bool) (d : Decimal) : List Char :=
  let ds := Numeral.ofNat d.digits
  let lead := d.exponent + ds.length - 1
  let exponent :=
    'e' :: (if plus && decide (0 ≤ lead) then '+' :: Numeral.ofInt lead else Numeral.ofInt lead)
  match ds with
  | [] => exponent
  | [c] => c :: exponent
  | c :: rest => c :: '.' :: (rest ++ exponent)

/-- The text of a finite number. -/
def write (layout : Layout) (x : Binary64) : String :=
  let d := x.shortest
  let lead := d.exponent + (Numeral.ofNat d.digits).length - 1
  let isPositional := decide (layout.least ≤ lead) && decide (lead ≤ layout.most)
  let body := if isPositional then positional d else scientific layout.plus d
  .ofList (if x.negative then '-' :: body else body)

end Layout
end LayeredConfig
