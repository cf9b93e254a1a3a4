import LayeredConfig.Bag.Basic
import LayeredConfig.Bag.Merge
import LayeredConfig.SortedMap.Lemmas

/-!
# Lookups in merged bags

What a lookup finds in a bag laid over another, for keys and for paths.

## Key results

- `Bag.find?_merge`: the value at a key of a merged bag
- `Bag.nil_merge`: the empty bag is no layer
- `Bag.lookup_merge`: the value at a path of a merged bag
-/

namespace LayeredConfig

namespace Value

@[simp] theorem isBag_bag (b : Bag) : (Value.bag b).isBag = true := rfl

@[simp] theorem asBag?_bag (b : Bag) : (Value.bag b).asBag? = some b := rfl

/-- Only a bag is taken as one. -/
theorem asBag?_eq_some_iff {v : Value} {b : Bag} : v.asBag? = some b ↔ v = .bag b := by
  cases v <;> simp [asBag?]

/-- Laid over nothing a value stands as it is. -/
@[simp] theorem over_none (v : Value) : Value.over none v = v := by
  cases v <;> simp only [Value.over]

/-- What is no bag replaces anything. -/
theorem over_of_asBag?_eq_none {v : Value} (h : v.asBag? = none) (below : Option Value) :
    Value.over below v = v := by
  cases v with
  | bag b => simp at h
  | _ => simp only [Value.over]

/-- A bag is merged with a bag and replaces anything else. -/
theorem over_bag (below : Option Value) (upper : Bag) :
    Value.over below (.bag upper) =
      .bag (match below.bind asBag? with
        | none => upper
        | some lower => lower.merge upper) := by
  cases below with
  | none => simp
  | some v =>
    cases v with
    | bag lower => simp only [Value.over, Option.bind_some, asBag?_bag, Bag.merge]
    | _ => simp only [Value.over, Option.bind_some, asBag?]

end Value

namespace Bag

/-- Entries laid over a bag leave the keys alone that they do not have. -/
private theorem find?_mergeEntries (base : Bag) {lo : Option String}
    (upper : Entries String Value lo) (q : String) :
    (Bag.mergeEntries base upper).find? q =
      match upper.find? q with
      | none => base.find? q
      | some v => some (Value.over (base.find? q) v) := by
  -- Entry by entry: each is inserted over what the base has at its key.
  induction upper generalizing base with
  | nil => simp only [Bag.mergeEntries, Entries.find?_nil]
  | cons k v above rest ih =>
    simp only [Bag.mergeEntries, ih, Entries.find?, Entries.find?_insert]
    cases hc : compare q k with
    | lt =>
      have hne : q ≠ k := by rintro rfl; simp at hc
      have hrest : rest.find? q = none := Entries.find?_eq_none_of_le rest (by simp [hc])
      simp [hne, hrest]
    | eq =>
      have hq := Std.LawfulEqCmp.eq_of_compare hc
      subst hq
      -- The keys of the rest are greater, so the entry is not met again.
      have hrest : rest.find? q = none := Entries.find?_eq_none_of_le rest (by simp)
      simp [hrest]
    | gt =>
      have hne : q ≠ k := by rintro rfl; simp at hc
      simp [hne]

/-- The value at a key of a merged bag. -/
theorem find?_merge (lower upper : Bag) (k : String) :
    (lower.merge upper).find? k =
      match upper.find? k with
      | none => lower.find? k
      | some v => some (Value.over (lower.find? k) v) :=
  find?_mergeEntries lower upper k

/-- A bag laid over the empty one stands as it is. -/
@[simp] theorem nil_merge (b : Bag) : Bag.merge (.nil : Bag) b = b := by
  apply Entries.ext
  intro k
  rw [find?_merge]
  cases b.find? k <;> simp

/-- The last layer lies on top of all others merged. -/
theorem mergeAll_append_singleton (layers : List Bag) (top : Bag) :
    Bag.mergeAll (layers ++ [top]) = (Bag.mergeAll layers).merge top := by
  simp only [Bag.mergeAll, List.foldl_append, List.foldl_cons, List.foldl_nil]

/-! ## Paths -/

/-- The bag that a key holds, if it holds one. -/
def inner? (b : Bag) (k : String) : Option Bag := (b.find? k).bind Value.asBag?

/-- The inner bag at a key is what the key holds. -/
theorem inner?_eq_some_iff {b inner : Bag} {k : String} :
    b.inner? k = some inner ↔ b.find? k = some (.bag inner) := by
  simp [inner?, Option.bind_eq_some_iff, Value.asBag?_eq_some_iff]

/-- The value at a path. -/
def lookup (b : Bag) (p : Path) : Option Value := b.getAt p.head p.tail

/-- Whether something that is no bag stands at a proper prefix of the path. -/
def blocks (b : Bag) (p : Path) : Bool :=
  (List.range p.tail.length).any fun n =>
    (b.lookup ⟨p.head, p.tail.take n⟩).any fun v => !v.isBag

/-- A text is looked up as the path that it writes. -/
theorem get?_of_parse? {text : String} {p : Path} (h : Path.parse? text = some p) (b : Bag) :
    b.get? text = b.lookup p := by
  simp only [get?, h, Option.bind_some, lookup]

/-- A path of one segment is a key. -/
theorem lookup_singleton (b : Bag) (k : String) : b.lookup ⟨k, []⟩ = b.find? k := rfl

/-- A lookup at a longer path goes on in the bag at its first key. -/
theorem lookup_cons (b : Bag) (k n : String) (tail : List String) :
    b.lookup ⟨k, n :: tail⟩ = (b.inner? k).bind (Bag.lookup · ⟨n, tail⟩) := by
  simp only [lookup, getAt, inner?]
  cases hv : b.find? k with
  | none => rfl
  | some v => cases v <;> rfl

/-- Nothing stands above a path of one segment. -/
@[simp] theorem blocks_singleton (b : Bag) (k : String) : b.blocks ⟨k, []⟩ = false := rfl

/-- What stands above a longer path stands at its first key or in the bag there. -/
theorem blocks_cons (b : Bag) (k n : String) (tail : List String) :
    b.blocks ⟨k, n :: tail⟩ =
      match b.inner? k with
      | some inner => inner.blocks ⟨n, tail⟩
      | none => (b.find? k).isSome := by
  -- The first proper prefix is the key alone, and the others go on below it.
  have hsplit : b.blocks ⟨k, n :: tail⟩ =
      ((b.find? k).any (fun v => !v.isBag) ||
        (List.range tail.length).any fun m =>
          (b.lookup ⟨k, n :: tail.take m⟩).any fun v => !v.isBag) := by
    simp only [blocks, List.length_cons, List.range_succ_eq_map, List.any_cons, List.any_map,
      List.take_zero, lookup_singleton, Function.comp_def, List.take_succ_cons]
  rw [hsplit]
  simp only [lookup_cons, inner?]
  cases hv : b.find? k with
  | none => simp
  | some v =>
    cases v with
    | bag inner => simp [blocks]
    | _ => simp [Value.isBag, Value.asBag?]

/-- Nothing is found behind what is no bag. -/
theorem lookup_eq_none_of_blocks {b : Bag} {p : Path} (h : b.blocks p = true) :
    b.lookup p = none := by
  obtain ⟨k, tail⟩ := p
  -- The obstacle stands at the first key, where the lookup ends, or further down.
  induction tail generalizing b k with
  | nil => simp at h
  | cons n tail ih =>
    rw [blocks_cons] at h
    rw [lookup_cons]
    cases hi : b.inner? k with
    | none => rfl
    | some inner =>
      rw [hi] at h
      exact ih n h

/-- The bag at a key of a merged bag. -/
theorem inner?_merge (lower upper : Bag) (k : String) :
    (lower.merge upper).inner? k =
      if (upper.find? k).isNone then lower.inner? k
      else (upper.inner? k).map fun u =>
        match lower.inner? k with
        | none => u
        | some l => l.merge u := by
  simp only [inner?, find?_merge]
  -- Whatever the upper bag holds there hides what the lower one holds, unless both are bags.
  cases upper.find? k with
  | none => simp
  | some v =>
    cases hv : v.asBag? with
    | none => simp [Value.over_of_asBag?_eq_none hv, hv]
    | some u =>
      obtain rfl := Value.asBag?_eq_some_iff.mp hv
      simp [Value.over_bag]

/-- The value at a path of a merged bag: what the upper bag holds there decides, and what it blocks
is gone. -/
theorem lookup_merge (lower upper : Bag) (p : Path) :
    (lower.merge upper).lookup p =
      if upper.blocks p then none
      else match upper.lookup p with
        | none => lower.lookup p
        | some v => some (Value.over (lower.lookup p) v) := by
  obtain ⟨k, tail⟩ := p
  -- The path is followed into both bags at once, as long as both go on.
  induction tail generalizing lower upper k with
  | nil => simp only [lookup_singleton, blocks_singleton, find?_merge, Bool.false_eq_true, if_false]
  | cons n tail ih =>
    simp only [lookup_cons, blocks_cons, inner?_merge]
    cases hu : upper.find? k with
    | none =>
      have hui : upper.inner? k = none := by simp [inner?, hu]
      simp [hui]
    | some v =>
      cases hui : upper.inner? k with
      | none => simp
      | some u =>
        cases hli : lower.inner? k with
        | some l => simpa using ih l u n
        | none =>
          -- Nothing is below, so the upper bag stands as it is.
          cases hb : u.blocks ⟨n, tail⟩ with
          | true => simp [hb, lookup_eq_none_of_blocks hb]
          | false => cases hv : u.lookup ⟨n, tail⟩ <;> simp [hb, hv]

/-- What the upper of two layers holds at a path is found, laid over what the lower one holds. -/
theorem lookup_merge_of_lookup {upper : Bag} {p : Path} {v : Value} (h : upper.lookup p = some v)
    (lower : Bag) : (lower.merge upper).lookup p = some (Value.over (lower.lookup p) v) := by
  -- What is found is not behind an obstacle.
  have hblocks : upper.blocks p = false := by
    cases hb : upper.blocks p with
    | false => rfl
    | true => exact nomatch h.symm.trans (lookup_eq_none_of_blocks hb)
  rw [lookup_merge, hblocks, h]
  rfl

end Bag
end LayeredConfig
