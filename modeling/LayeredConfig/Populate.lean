import LayeredConfig.Bag.Basic
import LayeredConfig.Bag.Json
import LayeredConfig.Error

/-! # Populating records

Reading typed records out of configuration.  A decoder takes a JSON document apart; a record is read
from an object by field name, ignoring unknown members, or from an array in field order.

* `Mismatch`              why a document does not fit
* `Decoder`               readers of documents
* `Fields`                the fields of a record, each with a decoder and maybe a default
* `Bag.populate`          read a whole bag
* `Bag.populateAt`        read the value at a path -/

namespace LayeredConfig

/-- Why a document does not have the expected form.  `found` and `expected` are descriptions. -/
inductive Mismatch
  | type (found expected : String)
  | value (found expected : String)
  | length (n : Nat) (expected : String)
  | missingField (name : String)
  | unknownVariant (name : String) (variants : List String)
  | notMapping (kind : String)
deriving DecidableEq, Repr

namespace Mismatch

def message : Mismatch → String
  | .type found expected => "invalid type: " ++ found ++ ", expected " ++ expected
  | .value found expected => "invalid value: " ++ found ++ ", expected " ++ expected
  | .length n expected => "invalid length " ++ toString n ++ ", expected " ++ expected
  | .missingField name => "missing field `" ++ name ++ "`"
  | .unknownVariant name variants =>
    "unknown variant `" ++ name ++ "`, expected one of " ++
      String.intercalate ", " (variants.map fun v => "`" ++ v ++ "`")
  | .notMapping kind => "expected a mapping, found " ++ kind

/-- A mismatch as an error about a JSON document that has no lines. -/
def toError (m : Mismatch) : Error :=
  ((Error.decode m.message).withContext "format" "json").withContext "line" "0"

end Mismatch

/-- How a document is described where something else was expected. -/
def Json.description : Json → String
  | .null => "null"
  | .bool b => "boolean `" ++ .ofList (boolText b) ++ "`"
  | .number (.integer i _) => "integer `" ++ .ofList (Numeral.ofInt i) ++ "`"
  | .number (.real x _) => "floating point `" ++ Json.layout.write x ++ "`"
  | .string s => "string " ++ Text.quoted s
  | .array _ => "sequence"
  | .object _ => "map"

/-- A reader of documents. -/
abbrev Decoder (α : Type) : Type := Json → Except Mismatch α

namespace Decoder

variable {α β : Type}

def string : Decoder String
  | .string s => .ok s
  | j => .error (.type j.description "a string")

def bool : Decoder Bool
  | .bool b => .ok b
  | j => .error (.type j.description "a boolean")

/-- Integers within bounds; `expected` names the type. -/
def integer (low high : Int) (expected : String) : Decoder Int
  | .number (.integer i _) =>
    if low ≤ i ∧ i ≤ high then .ok i
    else .error (.value ("integer `" ++ .ofList (Numeral.ofInt i) ++ "`") expected)
  | j => .error (.type j.description expected)

/-- Unsigned integers of 16 bits. -/
def uint16 : Decoder Int := integer 0 65535 "u16"

/-- Signed integers of 64 bits. -/
def int64 : Decoder Int := integer (-9223372036854775808) 9223372036854775807 "i64"

/-- Floating-point numbers; an integer gives the nearest one. -/
def binary64 : Decoder Binary64
  | .number (.integer i _) => .ok (.ofInt i)
  | .number (.real x _) => .ok x
  | j => .error (.type j.description "f64")

/-- Any value. -/
def value : Decoder Value := fun j => .ok (.ofJson j)

/-- A bag; `null` gives the empty one. -/
def bag : Decoder Bag := fun j =>
  match Value.ofJson j with
  | .bag b => .ok b
  | .null => .ok .nil
  | v => .error (.notMapping v.kind)

/-- `null`, or what `d` reads. -/
def optional (d : Decoder α) : Decoder (Option α)
  | .null => .ok none
  | j => (d j).map some

/-- An array of what `d` reads. -/
def list (d : Decoder α) : Decoder (List α)
  | .array items => items.mapM d
  | j => .error (.type j.description "a sequence")

/-- An object whose members `d` reads, in key order. -/
def map (d : Decoder α) : Decoder (List (String × α))
  | .object members => members.toList.mapM fun m => (d m.2).map fun a => (m.1, a)
  | j => .error (.type j.description "a map")

/-- One of some named variants without content, written as its name or as an object whose only
member is that name with the value `null`. -/
def variant (variants : List (String × α)) : Decoder α := fun j =>
  let find (name : String) : Except Mismatch α :=
    match variants.lookup name with
    | some a => .ok a
    | none => .error (.unknownVariant name (variants.map Prod.fst))
  match j with
  | .string name => find name
  | .object members =>
    match members.toList with
    | [(name, content)] => do
      let a ← find name
      match content with
      | .null => .ok a
      | j => .error (.type j.description "unit")
    | _ => .error (.value "map" "map with a single key")
  | j => .error (.type j.description "string or map")

end Decoder

/-- How the fields of a record are read.  The names matter in objects, the order in arrays. -/
structure Fields (α : Type) where
  /-- How many fields there are. -/
  count : Nat
  /-- Read the member of a given name for its faults only; unknown names have none. -/
  check : String → Json → Except Mismatch Unit
  /-- Build the record from members that were found free of faults. -/
  ofMembers : (String → Option Json) → Except Mismatch α
  /-- Build the record from the items of an array, giving back the items that are left.  The first
  argument describes the record. -/
  ofItems : String → List Json → Except Mismatch (α × List Json)

namespace Fields

variable {α β : Type}

/-- A record without fields. -/
def none (a : α) : Fields α where
  count := 0
  check _ _ := .ok ()
  ofMembers _ := .ok a
  ofItems _ items := .ok (a, items)

/-- One more field, read by `d`; `absent` is its value where it is missing, if it may be. -/
def field (fs : Fields (β → α)) (name : String) (d : Decoder β) (absent : Option β)
    (absentItem : Option β) : Fields α where
  count := fs.count + 1
  check key j := if key = name then (d j).map fun _ => () else fs.check key j
  ofMembers find := do
    let f ← fs.ofMembers find
    match find name, absent with
    | some j, _ => return f (← d j)
    | .none, some b => return f b
    | .none, .none => .error (.missingField name)
  ofItems record items := do
    let (f, rest) ← fs.ofItems record items
    match rest, absentItem with
    | j :: rest, _ => return (f (← d j), rest)
    | [], some b => return (f b, [])
    | [], .none => .error (.length fs.count record)

/-- A required field. -/
def required (fs : Fields (β → α)) (name : String) (d : Decoder β) : Fields α :=
  fs.field name d .none .none

/-- A field with a default. -/
def defaulted (fs : Fields (β → α)) (name : String) (d : Decoder β) (default : β) : Fields α :=
  fs.field name d (some default) (some default)

/-- A field that objects may leave out or set to `null`. -/
def optional (fs : Fields (Option β → α)) (name : String) (d : Decoder β) : Fields α :=
  fs.field name d.optional (some .none) .none

/-- The decoder of a record of the given name. -/
def decoder (fs : Fields α) (record : String) : Decoder α
  | .object members => do
    -- Members are read in key order, and a field is missing only if all of them are good.
    let _ ← members.toList.mapM fun m => fs.check m.1 m.2
    fs.ofMembers fun name => members.find? name
  | .array items => do
    let (a, rest) ← fs.ofItems
      ("struct " ++ record ++ " with " ++ toString fs.count ++ " elements") items
    if rest.isEmpty then .ok a else .error (.length items.length "fewer elements in array")
  | j => .error (.type j.description ("struct " ++ record))

end Fields

namespace Bag

/-- Read a whole bag. -/
def populate {α : Type} (d : Decoder α) (b : Bag) : Except Error α :=
  (d b.toJson).mapError Mismatch.toError

/-- Read the value at a path, or an empty object where there is none. -/
def populateAt {α : Type} (d : Decoder α) (b : Bag) (path : String) : Except Error α :=
  let j := match b.get? path with
    | some v => v.toJson
    | none => .object .nil
  (d j).mapError fun m => m.toError.withContext "path" path

/-- The bag that the root of a document holds; `null` stands for the empty bag. -/
def ofRoot : Value → Except Error Bag
  | .bag b => .ok b
  | .null => .ok .nil
  | v => .error (.decode ("expected a mapping at the document root, found " ++ v.kind))

/-- The bag of a document whose root is an object, or `null` for the empty bag. -/
def ofJson (j : Json) : Except Error Bag := ofRoot (.ofJson j)

end Bag
end LayeredConfig
