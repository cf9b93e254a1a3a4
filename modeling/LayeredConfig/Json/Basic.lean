import LayeredConfig.Number.Binary64
import LayeredConfig.SortedMap.Basic

/-! # JSON documents

The tree of a JSON document.  A number is an integer of up to 64 bits, with or without sign, or a
finite floating-point number; the members of an object are sorted by key.

* `Json`          documents
* `Json.Number`   their numbers -/

namespace LayeredConfig

/-- A number in a JSON document. -/
inductive Json.Number
  /-- An integer that fits 64 bits, signed or unsigned. -/
  | integer (i : Int) (range : -9223372036854775808 ≤ i ∧ i < 18446744073709551616)
  /-- A finite floating-point number. -/
  | real (x : Binary64) (finite : x.isFinite = true)
deriving DecidableEq

/-- A JSON document. -/
inductive Json
  | null
  | bool (b : Bool)
  | number (n : Json.Number)
  | string (s : String)
  | array (items : List Json)
  | object (members : Entries String Json none)

namespace Json

instance : Inhabited Json := ⟨.null⟩

/-- The document that holds a finite number; `null` stands for the others. -/
def ofBinary64 (x : Binary64) : Json :=
  if h : x.isFinite = true then .number (.real x h) else .null

/-- The document that holds a 64-bit integer. -/
def ofInt64 (i : Int64) : Json :=
  .number (.integer i.toInt ⟨i.le_toInt, by have := i.toInt_lt; omega⟩)

end Json
end LayeredConfig
