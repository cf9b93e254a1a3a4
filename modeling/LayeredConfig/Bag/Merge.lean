import LayeredConfig.Bag.Value

/-! # Merging bags

A later bag is laid over an earlier one: bags under one key are merged, every other pairing is
decided by the later value, so lists are replaced and not joined.

* `Bag.merge`      lay one bag over another
* `Bag.mergeAll`   lay many bags over each other, the last on top -/

namespace LayeredConfig

mutual

/-- The value of an entry over which `v` is laid. -/
def Value.over (below : Option Value) : Value → Value
  | .bag upper =>
    match below with
    | some (.bag lower) => .bag (Bag.mergeEntries lower upper)
    | _ => .bag upper
  | v => v

/-- Lay entries over a bag, one after the other. -/
def Bag.mergeEntries (base : Bag) {lo : Option String} : Entries String Value lo → Bag
  | .nil => base
  | .cons k v _ rest => Bag.mergeEntries (base.insert k (Value.over (base.find? k) v)) rest

end

/-- `upper` laid over `lower`. -/
def Bag.merge (lower upper : Bag) : Bag := Bag.mergeEntries lower upper

/-- Many bags laid over each other, the last on top. -/
def Bag.mergeAll (bags : List Bag) : Bag := bags.foldl Bag.merge .nil

end LayeredConfig
