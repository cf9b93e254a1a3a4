import LayeredConfig.Proofs.Bag.Writes

/-!
# Grouping of layers

Bags that are laid over each other may be merged in groups beforehand, unless between two bags that
are to be merged something lies that is no bag.  Merged from below this hides the lower bag.  Merged
from above it is gone before the lower bag comes.

## Key results

- `Bag.induction`: induction over the bags in a bag
- `Bag.merge_self` and `Bag.merge_merge_self`: a layer that is there already adds nothing
- `Bag.Parted.lookup_left` and `Bag.Parted.lookup_right`: where groupings differ
- `Bag.merge_assoc_iff`: the layers that may be grouped in either way
- `Bag.regrouped`: the laws of merging together
-/

namespace LayeredConfig

/-! ## Induction -/

mutual

private theorem Value.induct {motive : Bag → Prop}
    (step : ∀ b : Bag, (∀ k inner, b.inner? k = some inner → motive inner) → motive b) :
    ∀ (v : Value) (b : Bag), v.asBag? = some b → motive b
  | .bag entries, _, h => Option.some.inj h ▸ step entries (Bag.induct_inner step entries)

private theorem Bag.induct_inner {motive : Bag → Prop}
    (step : ∀ b : Bag, (∀ k inner, b.inner? k = some inner → motive inner) → motive b) :
    ∀ {lo : Option String} (m : Entries String Value lo) (k : String) (inner : Bag),
      (m.find? k).bind Value.asBag? = some inner → motive inner
  | _, .cons k' v _ rest, k, inner, h => by
    rw [Entries.find?] at h
    -- The key is not there, comes first, or stands in the rest.
    cases hc : compare k k' with
    | lt =>
      rw [hc] at h
      exact nomatch h
    | eq =>
      rw [hc] at h
      exact Value.induct step v inner h
    | gt =>
      rw [hc] at h
      exact Bag.induct_inner step rest k inner h

end

/-- What holds of a bag as soon as it holds of all bags in it holds of every bag. -/
theorem Bag.induction {motive : Bag → Prop}
    (step : ∀ b : Bag, (∀ k inner, b.inner? k = some inner → motive inner) → motive b) (b : Bag) :
    motive b := step b (Bag.induct_inner step b)

namespace Value

/-- A bag over a bag is merged with it. -/
theorem over_bag_bag (lower upper : Bag) :
    Value.over (some (.bag lower)) (.bag upper) = .bag (lower.merge upper) := over_bag _ _

/-- A bag over anything else stands alone. -/
theorem over_bag_of_isBag_eq_false {v : Value} (h : v.isBag = false) (upper : Bag) :
    Value.over (some v) (.bag upper) = .bag upper := by
  rw [over_bag, Option.bind_some, asBag?_of_isBag_eq_false h]

end Value

namespace Bag

variable {a b c x y z : Bag} {p : Path} {k : String}

/-- A bag that is laid over itself adds nothing. -/
theorem merge_self (b : Bag) : b.merge b = b := by
  induction b using Bag.induction with
  | step b ih =>
    apply Entries.ext
    intro k
    rw [find?_merge]
    -- Only an inner bag is merged with itself, and the induction has that it stays.
    rcases b.find?_cases k with hk | ⟨inner, hk⟩ | ⟨u, hk, hu⟩
    · rw [hk]
    · simp only [hk, Value.over_bag_bag, ih k inner (inner?_eq_some_iff.mpr hk)]
    · simp only [hk, Value.over_of_isBag_eq_false hu]

/-! ## Bags with something between them -/

/-- At the path `p` the bag `x` of `a` and the bag `z` of `c` are parted by something of `b` that is
no bag. -/
structure Parted (a b c : Bag) (p : Path) (x z : Bag) : Prop where
  lower : a.lookup p = some (.bag x)
  between : ∃ v, b.lookup p = some v ∧ v.isBag = false
  upper : c.lookup p = some (.bag z)

/-- Bags that are parted inside of others are parted. -/
theorem Parted.behind {x' z' : Bag} (h : Parted x y z p x' z') (ha : a.inner? k = some x)
    (hb : b.inner? k = some y) (hc : c.inner? k = some z) :
    Parted a b c (p.behind k) x' z' where
  lower := by rw [lookup_behind, ha, Option.bind_some, h.lower]
  between := by
    obtain ⟨v, hv, hbag⟩ := h.between
    exact ⟨v, by rw [lookup_behind, hb, Option.bind_some, hv], hbag⟩
  upper := by rw [lookup_behind, hc, Option.bind_some, h.upper]

/-- Merged from below, the upper bag stands alone. -/
theorem Parted.lookup_left (h : Parted a b c p x z) :
    ((a.merge b).merge c).lookup p = some (.bag z) := by
  obtain ⟨v, hv, hbag⟩ := h.between
  -- What is between has hidden the lower bag by the time the upper one comes.
  have hlower : (a.merge b).lookup p = some v := by
    rw [lookup_merge_of_lookup hv, Value.over_of_isBag_eq_false hbag]
  rw [lookup_merge_of_lookup h.upper, hlower, Value.over_bag_of_isBag_eq_false hbag]

/-- Merged from above, both bags come together. -/
theorem Parted.lookup_right (h : Parted a b c p x z) :
    (a.merge (b.merge c)).lookup p = some (.bag (x.merge z)) := by
  obtain ⟨v, hv, hbag⟩ := h.between
  -- What is between is replaced by the upper bag before the lower one comes.
  have hupper : (b.merge c).lookup p = some (.bag z) := by
    rw [lookup_merge_of_lookup h.upper, hv, Value.over_bag_of_isBag_eq_false hbag]
  rw [lookup_merge_of_lookup hupper, h.lower, Value.over_bag_bag]

/-! ## Grouping -/

/-- Layers may be grouped in either way if what is hidden by one of them would add nothing. -/
theorem merge_assoc (h : ∀ p x z, Parted a b c p x z → x.merge z = z) :
    (a.merge b).merge c = a.merge (b.merge c) := by
  induction a using Bag.induction generalizing b c with
  | step a ih =>
    apply Entries.ext
    intro k
    simp only [find?_merge]
    -- What is on top decides, unless it is nothing or a bag; then it is up to what is below.
    rcases c.find?_cases k with hc | ⟨z, hc⟩ | ⟨w, hc, hw⟩
    · simp only [hc]
    · rcases b.find?_cases k with hb | ⟨y, hb⟩ | ⟨v, hb, hv⟩
      · simp only [hb, hc, Value.over_none]
      · simp only [hb, hc, Value.over_bag_bag]
        rcases a.find?_cases k with ha | ⟨x, ha⟩ | ⟨u, ha, hu⟩
        · simp only [ha, Value.over_none, Value.over_bag_bag]
        · -- Three bags: what is parted in them is parted in the bags that hold them.
          have hinner : ∀ p x' z', Parted x y z p x' z' → Bag.merge x' z' = z' :=
            fun p x' z' hp => h _ x' z' (hp.behind (inner?_eq_some_iff.mpr ha)
              (inner?_eq_some_iff.mpr hb) (inner?_eq_some_iff.mpr hc))
          simp only [ha, Value.over_bag_bag, ih k x (inner?_eq_some_iff.mpr ha) hinner]
        · simp only [ha, Value.over_bag_of_isBag_eq_false hu, Value.over_bag_bag]
      · simp only [hb, hc, Value.over_of_isBag_eq_false hv, Value.over_bag_of_isBag_eq_false hv]
        rcases a.find?_cases k with ha | ⟨x, ha⟩ | ⟨u, ha, hu⟩
        · simp only [ha, Value.over_none]
        · -- The bag of `a` is hidden on the left, and on the right it adds nothing.
          have hparted : Parted a b c ⟨k, []⟩ x z := ⟨ha, ⟨v, hb, hv⟩, hc⟩
          simp only [ha, Value.over_bag_bag, h _ x z hparted]
        · simp only [ha, Value.over_bag_of_isBag_eq_false hu]
    · simp only [hc, Value.over_of_isBag_eq_false hw]

/-- Just these layers may be grouped in either way. -/
theorem merge_assoc_iff :
    (a.merge b).merge c = a.merge (b.merge c) ↔ ∀ p x z, Parted a b c p x z → x.merge z = z := by
  refine ⟨fun h p x z hp => ?_, merge_assoc⟩
  have hboth : some (Value.bag z) = some (.bag (x.merge z)) :=
    hp.lookup_left.symm.trans (h ▸ hp.lookup_right)
  exact (Value.bag.inj (Option.some.inj hboth)).symm

/-- A layer that is on top already adds nothing. -/
theorem merge_merge_self (a b : Bag) : (a.merge b).merge b = a.merge b := by
  -- The same layer cannot hold a bag and something else at one path.
  have hparted : ∀ p x z, Parted a b b p x z → x.merge z = z := by
    intro p x z hp
    obtain ⟨v, hv, hbag⟩ := hp.between
    obtain rfl : Value.bag z = v := Option.some.inj (hp.upper.symm.trans hv)
    exact nomatch hbag
  rw [merge_assoc hparted, merge_self]

/-- The empty bag is no layer, a layer that is there already adds nothing, and layers may be grouped
in either way unless two bags are parted.  Then the one grouping holds the upper bag alone, and the
other one both bags merged. -/
theorem regrouped (a b c : Bag) :
    Bag.merge .nil a = a ∧ a.merge .nil = a ∧ a.merge a = a ∧ (a.merge b).merge b = a.merge b ∧
      ((∀ p x z, ¬ Parted a b c p x z) → (a.merge b).merge c = a.merge (b.merge c)) ∧
      ∀ p x z, Parted a b c p x z →
        ((a.merge b).merge c).lookup p = some (.bag z) ∧
          (a.merge (b.merge c)).lookup p = some (.bag (x.merge z)) :=
  ⟨nil_merge a, merge_nil a, merge_self a, merge_merge_self a b,
    fun h => merge_assoc fun p x z hp => absurd hp (h p x z),
    fun _ _ _ hp => ⟨hp.lookup_left, hp.lookup_right⟩⟩

/-- A number stands between two bags, some way down. -/
theorem regrouped_parted :
    ∃ a b c : Bag, a.get? "k.l" = some (.bag (.ofList [("m", .null)])) ∧
      b.get? "k.l" = some (.int 5) ∧ c.get? "k.l" = some (.bag (.ofList [("n", .null)])) ∧
      ((a.merge b).merge c).lookup ⟨"k", ["l"]⟩ = some (.bag (.ofList [("n", .null)])) ∧
      (a.merge (b.merge c)).lookup ⟨"k", ["l"]⟩ =
        some (.bag (.ofList [("m", .null), ("n", .null)])) := by
  let a : Bag := .ofList [("k", .bag (.ofList [("l", .bag (.ofList [("m", .null)]))]))]
  let b : Bag := .ofList [("k", .bag (.ofList [("l", .int 5)]))]
  let c : Bag := .ofList [("k", .bag (.ofList [("l", .bag (.ofList [("n", .null)]))]))]
  have hparted : Parted a b c ⟨"k", ["l"]⟩ (.ofList [("m", .null)]) (.ofList [("n", .null)]) :=
    ⟨rfl, ⟨.int 5, rfl, rfl⟩, rfl⟩
  exact ⟨a, b, c, rfl, rfl, rfl, (regrouped a b c).2.2.2.2.2 _ _ _ hparted⟩

end Bag
end LayeredConfig
