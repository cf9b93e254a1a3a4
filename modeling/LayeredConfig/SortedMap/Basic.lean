/-! # Sorted maps

Finite maps that list their entries in strictly ascending key order.  The order is part of the type:
`Entries κ α lo` holds entries whose keys all lie above `lo`, so each map has exactly one
representation and two maps with the same lookups are equal (`Entries.ext` in
`LayeredConfig.SortedMap.Lemmas`).  The family is an ordinary inductive type, which lets a tree type
hold maps of itself and recurse through them.

* `Entries.find?`    the value at a key
* `Entries.insert`   add or replace an entry
* `Entries.erase`    drop an entry
* `Entries.toList`   the entries in ascending key order -/

namespace LayeredConfig

universe u v

/-- `Above lo k`: the key `k` may follow the bound `lo`; every key may follow the absent bound. -/
def Above {κ : Type} [Ord κ] : Option κ → κ → Prop
  | none, _ => True
  | some a, k => compare a k = .lt

theorem Above.of_none {κ : Type} [Ord κ] (k : κ) : Above none k := trivial

instance {κ : Type} [Ord κ] : ∀ (lo : Option κ) (k : κ), Decidable (Above lo k)
  | none, _ => instDecidableTrue
  | some a, k => inferInstanceAs (Decidable (compare a k = .lt))

/-- Entries in strictly ascending key order, with all keys above `lo`. -/
inductive Entries (κ : Type) [Ord κ] (α : Type u) : Option κ → Type u
  | nil {lo : Option κ} : Entries κ α lo
  | cons {lo : Option κ} (k : κ) (v : α) (above : Above lo k) (rest : Entries κ α (some k)) :
      Entries κ α lo

/-- A finite map from `κ` to `α`, in ascending key order. -/
abbrev SortedMap (κ : Type) [Ord κ] (α : Type u) : Type u := Entries κ α none

namespace Entries

variable {κ : Type} [Ord κ] {α : Type u} {β : Type v} {lo : Option κ}

instance : Inhabited (Entries κ α lo) := ⟨.nil⟩
instance : EmptyCollection (Entries κ α lo) := ⟨.nil⟩

/-- The entries as key and value pairs, in ascending key order. -/
def toList {lo : Option κ} : Entries κ α lo → List (κ × α)
  | .nil => []
  | .cons k v _ rest => (k, v) :: rest.toList

/-- The keys in ascending order. -/
def keys (m : Entries κ α lo) : List κ := m.toList.map Prod.fst

/-- The values in the order of their keys. -/
def values (m : Entries κ α lo) : List α := m.toList.map Prod.snd

/-- The number of entries. -/
def size (m : Entries κ α lo) : Nat := m.toList.length

/-- True of the map without entries only. -/
def isEmpty {lo : Option κ} : Entries κ α lo → Bool
  | .nil => true
  | .cons .. => false

/-- The value at `k`, if there is one.  The search ends at the first greater key. -/
def find? (k : κ) {lo : Option κ} : Entries κ α lo → Option α
  | .nil => none
  | .cons k' v _ rest =>
    match compare k k' with
    | .lt => none
    | .eq => some v
    | .gt => rest.find? k

/-- Whether `k` is a key. -/
def contains (m : Entries κ α lo) (k : κ) : Bool := (m.find? k).isSome

/-- Apply `f` to every value, keeping the keys. -/
def map (f : α → β) {lo : Option κ} : Entries κ α lo → Entries κ β lo
  | .nil => .nil
  | .cons k v h rest => .cons k (f v) h (rest.map f)

end Entries

/-- A greater bound may be replaced by any bound that it lies above. -/
theorem Above.trans {κ : Type} [Ord κ] [Std.TransOrd κ] {lo : Option κ} {a b : κ}
    (h : Above lo a) (hab : compare a b = .lt) : Above lo b := by
  cases lo with
  | none => trivial
  | some c => exact Std.TransCmp.lt_trans h hab

namespace Entries

variable {κ : Type} [Ord κ] {α : Type u} {lo : Option κ}

/-- The same entries under a lower bound. -/
def relax [Std.TransOrd κ] {k : κ} (h : Above lo k) : Entries κ α (some k) → Entries κ α lo
  | .nil => .nil
  | .cons k' v h' rest => .cons k' v (h.trans h') rest

/-- `insert` for maps whose bound the new key is known to exceed. -/
def insertAbove [Std.TransOrd κ] (k : κ) (v : α) {lo : Option κ} (h : Above lo k) :
    Entries κ α lo → Entries κ α lo
  | .nil => .cons k v h .nil
  | .cons k' v' h' rest =>
    match hc : compare k k' with
    | .lt => .cons k v h (.cons k' v' hc rest)
    | .eq => .cons k' v h' rest
    | .gt => .cons k' v' h' (rest.insertAbove k v (Std.OrientedCmp.lt_of_gt hc))

/-- Put `v` at `k`, replacing the value that is there, if any. -/
def insert [Std.TransOrd κ] (m : SortedMap κ α) (k : κ) (v : α) : SortedMap κ α :=
  m.insertAbove k v (.of_none k)

/-- Drop the entry at `k`, if there is one. -/
def erase [Std.TransOrd κ] (k : κ) {lo : Option κ} : Entries κ α lo → Entries κ α lo
  | .nil => .nil
  | .cons k' v h rest =>
    match compare k k' with
    | .lt => .cons k' v h rest
    | .eq => rest.relax h
    | .gt => .cons k' v h (rest.erase k)

/-- The map of the given pairs; of two pairs with one key the later counts. -/
def ofList [Std.TransOrd κ] (pairs : List (κ × α)) : SortedMap κ α :=
  pairs.foldl (fun m p => m.insert p.1 p.2) .nil

end Entries
end LayeredConfig
