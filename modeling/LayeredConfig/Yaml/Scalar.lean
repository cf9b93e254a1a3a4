import LayeredConfig.Yaml.Cursor
import LayeredConfig.Number.Numeral

/-! # Plain scalars

What an unquoted scalar means.

* `Scalar`            the meanings
* `Scalar.ofPlain`    null, truth value, integer, float or string
* `isPaddedInteger`   digits after a leading zero, which are a string -/

namespace LayeredConfig.Yaml

/-- The meaning of a scalar. -/
inductive Scalar
  | null
  | bool (b : Bool)
  | integer (i : Int)
  | float (x : Binary64)
  | string (s : List Char)

/-- Two or more digits of which the first is zero, with or without sign. -/
def isPaddedInteger (s : List Char) : Bool :=
  let body := match s with
    | '-' :: rest => rest
    | '+' :: rest => rest
    | _ => s
  match body with
  | '0' :: d :: rest => (d :: rest).all isDigit
  | _ => false

/-- The number that digits of a base denote, if there are any and all are digits. -/
def digits? (base : Nat) (s : List Char) : Option Nat :=
  if s.isEmpty then none
  else s.foldlM (fun n c => (hexDigit? c).bind fun d =>
    if d < base then some (n * base + d) else none) 0

/-- The number after a base mark. -/
def radix? : List Char → Option Nat
  | '0' :: 'x' :: rest => digits? 16 rest
  | '0' :: 'o' :: rest => digits? 8 rest
  | '0' :: 'b' :: rest => digits? 2 rest
  | _ => none

/-- A natural number with an optional plus sign, below `2 ^ 128`. -/
def natural? (s : List Char) : Option Nat :=
  let body := match s with
    | '+' :: rest => rest
    | _ => s
  let n := (radix? body).or (if isPaddedInteger s then none else digits? 10 body)
  n.filter (· < 340282366920938463463374607431768211456)

/-- The magnitude of a number after a minus sign, up to `2 ^ 127`. -/
def negative? : List Char → Option Nat
  | '-' :: rest =>
    let n := (radix? rest).or (if isPaddedInteger ('-' :: rest) then none else digits? 10 rest)
    n.filter (· ≤ 170141183460469231731687303715884105728)
  | _ => none

/-- The integer that a plain scalar writes. -/
def integer? (s : List Char) : Option Int :=
  match natural? s with
  | some n => some n
  | none => (negative? s).map fun n => -(n : Int)

/-- The float that a plain scalar writes: a special name, or a finite decimal. -/
def float? (s : List Char) : Option Binary64 :=
  let body := match s with
    | '+' :: rest => rest
    | _ => s
  match String.ofList s with
  | ".inf" | ".Inf" | ".INF" | "+.inf" | "+.Inf" | "+.INF" => some (.infinity false)
  | "-.inf" | "-.Inf" | "-.INF" => some (.infinity true)
  | ".nan" | ".NaN" | ".NAN" => some (.nan false)
  | _ =>
    if s.head? = some '+' && (body.head? = some '+' || body.head? = some '-') then none
    else (Numeral.float? body).filter Binary64.isFinite

def isNullWord (s : List Char) : Bool :=
  match String.ofList s with
  | "null" | "Null" | "NULL" | "~" => true
  | _ => false

def bool? (s : List Char) : Option Bool :=
  match String.ofList s with
  | "true" | "True" | "TRUE" => some true
  | "false" | "False" | "FALSE" => some false
  | _ => none

/-- The meaning of a plain scalar. -/
def Scalar.ofPlain (s : List Char) : Scalar :=
  if s.isEmpty || isNullWord s then .null
  else match bool? s with
    | some b => .bool b
    | none =>
      match integer? s with
      | some i => .integer i
      | none =>
        if isPaddedInteger s then .string s
        else match float? s with
          | some x => .float x
          | none => .string s

/-- Whether a string would be taken for something else without quotes. -/
def isAmbiguous (s : List Char) : Bool :=
  match Scalar.ofPlain s with
  | .string _ => isPaddedInteger s
  | _ => true

end LayeredConfig.Yaml
