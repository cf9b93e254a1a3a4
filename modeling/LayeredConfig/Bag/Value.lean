import LayeredConfig.Number.Binary64
import LayeredConfig.SortedMap.Basic

/-! # Values and bags

The tree that configuration is made of.  A bag maps keys to values in ascending key order, and a
value is a scalar, a list or a bag again.

* `Value`, `Bag`   the types
* `Value.same`     deep equality, under which integers and floats differ and no NaN equals anything -/

namespace LayeredConfig

/-- A configuration value. -/
inductive Value
  | null
  | bool (b : Bool)
  | int (i : Int64)
  | float (x : Binary64)
  | string (s : String)
  | list (items : List Value)
  | bag (entries : Entries String Value none)

/-- A map from keys to values. -/
abbrev Bag : Type := SortedMap String Value

namespace Value

instance : Inhabited Value := ⟨.null⟩

/-- The name of a value's type. -/
def kind : Value → String
  | .null => "null"
  | .bool _ => "bool"
  | .int _ => "int"
  | .float _ => "float"
  | .string _ => "string"
  | .list _ => "list"
  | .bag _ => "bag"

def isNull : Value → Bool
  | .null => true
  | _ => false

def isBag : Value → Bool
  | .bag _ => true
  | _ => false

/-- The bag that a value is, if it is one. -/
def asBag? : Value → Option Bag
  | .bag b => some b
  | _ => none

/-- The list that a value is, if it is one. -/
def asList? : Value → Option (List Value)
  | .list items => some items
  | _ => none

/-- The string that a value is, if it is one. -/
def asString? : Value → Option String
  | .string s => some s
  | _ => none

mutual

/-- Deep equality: the same kind and the same content, with floats compared as numbers. -/
def same : Value → Value → Bool
  | .null, .null => true
  | .bool a, .bool b => a == b
  | .int a, .int b => a == b
  | .float a, .float b => a.sameNumber b
  | .string a, .string b => a == b
  | .list a, .list b => sameItems a b
  | .bag a, .bag b => sameEntries a b
  | _, _ => false

/-- Deep equality of lists, item by item. -/
def sameItems : List Value → List Value → Bool
  | [], [] => true
  | a :: as, b :: bs => same a b && sameItems as bs
  | _, _ => false

/-- Deep equality of entries, key by key. -/
def sameEntries {lo lo' : Option String} : Entries String Value lo → Entries String Value lo' → Bool
  | .nil, .nil => true
  | .cons k v _ rest, .cons k' v' _ rest' => k == k' && same v v' && sameEntries rest rest'
  | _, _ => false

end

instance : BEq Value := ⟨same⟩

end Value

instance : BEq Bag := ⟨Value.sameEntries⟩

end LayeredConfig
