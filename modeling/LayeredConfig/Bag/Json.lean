import LayeredConfig.Bag.Value
import LayeredConfig.Json.Printer
import LayeredConfig.Number.Int64

/-! # Values as JSON

* `Value.toJson`    numbers that JSON cannot hold become `null`
* `Value.ofJson`    integers beyond 64 signed bits become floats
* `Value.compact`   a value's own JSON text -/

namespace LayeredConfig

namespace Value

mutual

/-- The document of a value; floats that are not finite have none and become `null`. -/
def toJson : Value → Json
  | .null => .null
  | .bool b => .bool b
  | .int i => .ofInt64 i
  | .float x => .ofBinary64 x
  | .string s => .string s
  | .list items => .array (toJsonItems items)
  | .bag entries => .object (toJsonEntries entries)

def toJsonItems : List Value → List Json
  | [] => []
  | item :: rest => toJson item :: toJsonItems rest

def toJsonEntries {lo : Option String} : Entries String Value lo → Entries String Json lo
  | .nil => .nil
  | .cons k v h rest => .cons k (toJson v) h (toJsonEntries rest)

end

/-- The value of a number: an integer if it fits 64 signed bits, otherwise a float. -/
def ofNumber : Json.Number → Value
  | .integer i _ =>
    match Int64.ofInt? i with
    | some w => .int w
    | none => .float (.ofInt i)
  | .real x _ => .float x

mutual

/-- The value of a document. -/
def ofJson : Json → Value
  | .null => .null
  | .bool b => .bool b
  | .number n => ofNumber n
  | .string s => .string s
  | .array items => .list (ofJsonItems items)
  | .object members => .bag (ofJsonMembers members)

def ofJsonItems : List Json → List Value
  | [] => []
  | item :: rest => ofJson item :: ofJsonItems rest

def ofJsonMembers {lo : Option String} : Entries String Json lo → Entries String Value lo
  | .nil => .nil
  | .cons k v h rest => .cons k (ofJson v) h (ofJsonMembers rest)

end

/-! ## Text -/

mutual

/-- The characters of a value's own JSON text. -/
def compactChars : Value → List Char
  | .null => "null".toList
  | .bool b => Json.boolText b
  | .int i => Numeral.ofInt i.toInt
  | .float x => if x.isFinite then (Json.layout.write x).toList else "null".toList
  | .string s => Json.quote s
  | .list items => '[' :: compactItems true items
  | .bag entries => '\x7b' :: compactEntries true entries

def compactItems (first : Bool) : List Value → List Char
  | [] => [']']
  | item :: rest =>
    (if first then [] else [',']) ++ compactChars item ++ compactItems false rest

def compactEntries (first : Bool) {lo : Option String} : Entries String Value lo → List Char
  | .nil => ['\x7d']
  | .cons k v _ rest =>
    (if first then [] else [',']) ++ Json.quote k ++ ':' :: compactChars v ++
      compactEntries false rest

end

/-- The JSON text of a value in one line, without white space. -/
def compact (v : Value) : String := .ofList v.compactChars

end Value

/-- The document of a bag. -/
def Bag.toJson (b : Bag) : Json := .object (Value.toJsonEntries b)

/-- The JSON text of a bag in one line, without white space. -/
def Bag.compact (b : Bag) : String := (Value.bag b).compact

end LayeredConfig
