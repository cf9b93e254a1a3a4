import LayeredConfig.Bag.Value
import LayeredConfig.Number.Int64
import LayeredConfig.Number.Numeral
import LayeredConfig.Text.Blank

/-! # Lenient views of scalars

Configuration often arrives as text, so a string is read as a number or a truth value where one is
asked for.

* `Value.int?`     the integer that a value denotes
* `Value.float?`   the number that it denotes
* `Value.bool?`    the truth value that it denotes -/

namespace LayeredConfig.Value

/-- The 64-bit integer that a value denotes: an integer, a float with an integral value, or a string
that holds a decimal integer, blanks around it ignored. -/
def int? : Value → Option Int64
  | .int i => some i
  | .float x => x.toInt?.bind Int64.ofInt?
  | .string s => (Numeral.int? (Text.trim s.toList)).bind Int64.ofInt?
  | _ => none

/-- The number that a value denotes: a float, the nearest float to an integer, or a string that
holds a decimal numeral, blanks around it ignored. -/
def float? : Value → Option Binary64
  | .int i => some (.ofInt i.toInt)
  | .float x => some x
  | .string s => Numeral.float? (Text.trim s.toList)
  | _ => none

/-- The truth value that a value denotes; a string may spell it in any case, with blanks around. -/
def bool? : Value → Option Bool
  | .bool b => some b
  | .string s =>
    match String.ofList ((Text.trim s.toList).map Char.toLower) with
    | "true" => some true
    | "false" => some false
    | _ => none
  | _ => none

end LayeredConfig.Value
