import LayeredConfig.Bag.Path
import LayeredConfig.Bag.Views
import LayeredConfig.Error

/-! # Reading and writing bags by path

Reads never fail: an absent entry, a malformed path and a path through a scalar all give nothing.
Writes make the bags on the way and replace scalars that stand in it.

* `Bag.get?`    the value at a path
* `Bag.set?`    write a value, unless the path is malformed
* `Bag.set`     the same as a change of the bag, with its result
* `Bag.take`    remove the value at a path and give it -/

namespace LayeredConfig.Bag

/-- The value at `key` and the further keys `tail` below it. -/
def getAt (b : Bag) (key : String) : List String → Option Value
  | [] => b.find? key
  | next :: tail =>
    match b.find? key with
    | some (.bag inner) => getAt inner next tail
    | _ => none

/-- The value at a path, if there is one. -/
def get? (b : Bag) (path : String) : Option Value :=
  (Path.parse? path).bind fun p => b.getAt p.head p.tail

/-- Whether there is a value at a path. -/
def has (b : Bag) (path : String) : Bool := (b.get? path).isSome

/-- The bag that a key holds, or the empty bag. -/
def child (b : Bag) (key : String) : Bag :=
  match b.find? key with
  | some (.bag inner) => inner
  | _ => .nil

/-- Write `v` at `key` and the further keys `tail` below it. -/
def setAt (b : Bag) (key : String) (v : Value) : List String → Bag
  | [] => b.insert key v
  | next :: tail => b.insert key (.bag ((b.child key).setAt next v tail))

/-- The bag with `v` at a path; nothing if the path is malformed. -/
def set? (b : Bag) (path : String) (v : Value) : Option Bag :=
  (Path.parse? path).map fun p => b.setAt p.head v p.tail

/-- Change the bag so that it holds `v` at a path.  A malformed path is refused, and the bag stays
as it is. -/
def set (b : Bag) (path : String) (v : Value) : Except Error Unit × Bag :=
  match b.set? path v with
  | some after => (.ok (), after)
  | none => (.error (.invalidPath path), b)

/-- Remove the value at `key` and the further keys `tail` below it; also gives that value. -/
def takeAt (b : Bag) (key : String) : List String → Option Value × Bag
  | [] => (b.find? key, b.erase key)
  | next :: tail =>
    match b.find? key with
    | some (.bag inner) =>
      match takeAt inner next tail with
      | (some v, rest) => (some v, b.insert key (.bag rest))
      | (none, _) => (none, b)
    | _ => (none, b)

/-- Remove the value at a path; also gives that value, if there was one. -/
def take (b : Bag) (path : String) : Option Value × Bag :=
  match Path.parse? path with
  | some p => b.takeAt p.head p.tail
  | none => (none, b)

/-! ## Typed reads -/

def string? (b : Bag) (path : String) : Option String := (b.get? path).bind Value.asString?

def int? (b : Bag) (path : String) : Option Int64 := (b.get? path).bind Value.int?

def float? (b : Bag) (path : String) : Option Binary64 := (b.get? path).bind Value.float?

def bool? (b : Bag) (path : String) : Option Bool := (b.get? path).bind Value.bool?

def list? (b : Bag) (path : String) : Option (List Value) := (b.get? path).bind Value.asList?

def bag? (b : Bag) (path : String) : Option Bag := (b.get? path).bind Value.asBag?

end LayeredConfig.Bag
