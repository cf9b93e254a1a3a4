import LayeredConfig.Proofs.Bag.Lookup
import Mathlib.Data.List.Induction

/-!
# Equality of values

Deep equality is symmetric and transitive.  It is reflexive where there is no NaN, and no operation
on bags brings one in.

## Key results

- `Value.same_symm` / `Value.same_trans`: a partial equivalence
- `Value.same_self`: a value without NaN equals itself
- `Bag.hasNaN_merge`: merged bags without NaN have none
- `Bag.hasNaN_get?`: what is looked up in a bag without NaN has none
-/

namespace LayeredConfig

namespace Binary64

/-- Sameness of numbers is symmetric. -/
theorem sameNumber_symm {x y : Binary64} (h : x.sameNumber y = true) : y.sameNumber x = true := by
  simp only [sameNumber, Bool.and_eq_true, Bool.or_eq_true, beq_iff_eq] at h ⊢
  obtain ⟨⟨hx, hy⟩, h⟩ := h
  exact ⟨⟨hy, hx⟩, h.imp Eq.symm And.symm⟩

/-- Sameness of numbers is transitive, also across the two zeros. -/
theorem sameNumber_trans {x y z : Binary64} (h : x.sameNumber y = true)
    (h' : y.sameNumber z = true) : x.sameNumber z = true := by
  simp only [sameNumber, Bool.and_eq_true, Bool.or_eq_true, beq_iff_eq] at h h' ⊢
  obtain ⟨⟨hx, -⟩, h⟩ := h
  obtain ⟨⟨-, hz⟩, h'⟩ := h'
  refine ⟨⟨hx, hz⟩, ?_⟩
  -- Numbers of the same bits are the same number.
  rcases h with hbits | ⟨hx0, hy0⟩
  · obtain rfl : x = y := by cases x; cases y; simpa using hbits
    exact h'
  · rcases h' with hbits | ⟨-, hz0⟩
    · obtain rfl : y = z := by cases y; cases z; simpa using hbits
      exact .inr ⟨hx0, hy0⟩
    · exact .inr ⟨hx0, hz0⟩

/-- Every number is the same as itself. -/
theorem sameNumber_self {x : Binary64} (h : x.isNaN = false) : x.sameNumber x = true := by
  simp [sameNumber, h]

end Binary64

namespace Value

/-! ## Deep equality -/

mutual

/-- Deep equality is symmetric. -/
theorem same_symm : ∀ {a b : Value}, same a b = true → same b a = true
  | .null, .null, _ => rfl
  | .bool _, .bool _, h => beq_iff_eq.mpr (beq_iff_eq.mp h).symm
  | .int _, .int _, h => beq_iff_eq.mpr (beq_iff_eq.mp h).symm
  | .float _, .float _, h => Binary64.sameNumber_symm h
  | .string _, .string _, h => beq_iff_eq.mpr (beq_iff_eq.mp h).symm
  | .list _, .list _, h => sameItems_symm h
  | .bag _, .bag _, h => sameEntries_symm h

/-- So it is item by item. -/
theorem sameItems_symm : ∀ {as bs : List Value}, sameItems as bs = true → sameItems bs as = true
  | [], [], _ => rfl
  | _ :: _, _ :: _, h => by
    simp only [sameItems, Bool.and_eq_true] at h ⊢
    exact ⟨same_symm h.1, sameItems_symm h.2⟩

theorem sameEntries_symm : ∀ {lo lo' : Option String} {a : Entries String Value lo}
    {b : Entries String Value lo'}, sameEntries a b = true → sameEntries b a = true
  | _, _, .nil, .nil, _ => rfl
  | _, _, .cons _ _ _ _, .cons _ _ _ _, h => by
    simp only [sameEntries, Bool.and_eq_true, beq_iff_eq] at h ⊢
    exact ⟨⟨h.1.1.symm, same_symm h.1.2⟩, sameEntries_symm h.2⟩

end

mutual

/-- Deep equality is transitive. -/
theorem same_trans : ∀ {a b c : Value}, same a b = true → same b c = true → same a c = true
  | .null, .null, .null, _, _ => rfl
  | .bool _, .bool _, .bool _, h, h' => beq_iff_eq.mpr ((beq_iff_eq.mp h).trans (beq_iff_eq.mp h'))
  | .int _, .int _, .int _, h, h' => beq_iff_eq.mpr ((beq_iff_eq.mp h).trans (beq_iff_eq.mp h'))
  | .float _, .float _, .float _, h, h' => Binary64.sameNumber_trans h h'
  | .string _, .string _, .string _, h, h' =>
    beq_iff_eq.mpr ((beq_iff_eq.mp h).trans (beq_iff_eq.mp h'))
  | .list _, .list _, .list _, h, h' => sameItems_trans h h'
  | .bag _, .bag _, .bag _, h, h' => sameEntries_trans h h'

/-- So it is item by item. -/
theorem sameItems_trans : ∀ {as bs cs : List Value}, sameItems as bs = true →
    sameItems bs cs = true → sameItems as cs = true
  | [], [], [], _, _ => rfl
  | _ :: _, _ :: _, _ :: _, h, h' => by
    simp only [sameItems, Bool.and_eq_true] at h h' ⊢
    exact ⟨same_trans h.1 h'.1, sameItems_trans h.2 h'.2⟩

theorem sameEntries_trans : ∀ {lo lo' lo'' : Option String} {a : Entries String Value lo}
    {b : Entries String Value lo'} {c : Entries String Value lo''}, sameEntries a b = true →
    sameEntries b c = true → sameEntries a c = true
  | _, _, _, .nil, .nil, .nil, _, _ => rfl
  | _, _, _, .cons _ _ _ _, .cons _ _ _ _, .cons _ _ _ _, h, h' => by
    simp only [sameEntries, Bool.and_eq_true, beq_iff_eq] at h h' ⊢
    exact ⟨⟨h.1.1.trans h'.1.1, same_trans h.1.2 h'.1.2⟩, sameEntries_trans h.2 h'.2⟩

end

/-! ## Values without NaN -/

mutual

/-- Whether a NaN stands anywhere in a value. -/
def hasNaN : Value → Bool
  | .float x => x.isNaN
  | .list items => itemsHaveNaN items
  | .bag entries => entriesHaveNaN entries
  | _ => false

/-- Whether a NaN stands anywhere in a list. -/
def itemsHaveNaN : List Value → Bool
  | [] => false
  | v :: vs => hasNaN v || itemsHaveNaN vs

/-- Whether a NaN stands anywhere in the values of entries. -/
def entriesHaveNaN {lo : Option String} : Entries String Value lo → Bool
  | .nil => false
  | .cons _ v _ rest => hasNaN v || entriesHaveNaN rest

end

mutual

/-- A value without NaN equals itself. -/
theorem same_self : ∀ {v : Value}, hasNaN v = false → same v v = true
  | .null, _ => rfl
  | .bool _, _ => beq_iff_eq.mpr rfl
  | .int _, _ => beq_iff_eq.mpr rfl
  | .float _, h => Binary64.sameNumber_self h
  | .string _, _ => beq_iff_eq.mpr rfl
  | .list _, h => sameItems_self h
  | .bag _, h => sameEntries_self h

/-- So do items. -/
theorem sameItems_self : ∀ {vs : List Value}, itemsHaveNaN vs = false → sameItems vs vs = true
  | [], _ => rfl
  | _ :: _, h => by
    simp only [itemsHaveNaN, Bool.or_eq_false_iff] at h
    simp only [sameItems, Bool.and_eq_true]
    exact ⟨same_self h.1, sameItems_self h.2⟩

theorem sameEntries_self : ∀ {lo : Option String} {e : Entries String Value lo},
    entriesHaveNaN e = false → sameEntries e e = true
  | _, .nil, _ => rfl
  | _, .cons _ _ _ _, h => by
    simp only [entriesHaveNaN, Bool.or_eq_false_iff] at h
    simp only [sameEntries, Bool.and_eq_true, beq_iff_eq]
    exact ⟨⟨trivial, same_self h.1⟩, sameEntries_self h.2⟩

end

/-- A NaN among entries is found at some key. -/
theorem entriesHaveNaN_eq_false_iff {lo : Option String} {e : Entries String Value lo} :
    entriesHaveNaN e = false ↔ ∀ k v, e.find? k = some v → hasNaN v = false := by
  simp only [Entries.find?_eq_some_iff_mem]
  -- The keys are forgotten, and each value is met once in the list.
  induction e with
  | nil => simp [entriesHaveNaN, Entries.toList]
  | cons k v above rest ih =>
    simp only [entriesHaveNaN, Bool.or_eq_false_iff, ih, Entries.toList, List.mem_cons,
      Prod.mk.injEq]
    constructor
    · rintro ⟨hv, hrest⟩ k' v' (⟨-, rfl⟩ | hmem)
      · exact hv
      · exact hrest k' v' hmem
    · intro h
      exact ⟨h k v (.inl ⟨rfl, rfl⟩), fun k' v' hmem => h k' v' (.inr hmem)⟩

end Value

namespace Bag

/-- Whether a NaN stands anywhere in a bag. -/
def hasNaN (b : Bag) : Bool := Value.entriesHaveNaN b

/-- What a key holds in a bag without NaN has none. -/
theorem hasNaN_of_find? {b : Bag} (hb : b.hasNaN = false) {k : String} {v : Value}
    (h : b.find? k = some v) : v.hasNaN = false :=
  Value.entriesHaveNaN_eq_false_iff.mp hb k v h

/-- A value without NaN may be inserted. -/
theorem hasNaN_insert {b : Bag} (hb : b.hasNaN = false) (k : String) {v : Value}
    (hv : v.hasNaN = false) : Bag.hasNaN (b.insert k v) = false := by
  refine Value.entriesHaveNaN_eq_false_iff.mpr ?_
  intro k' v' h
  rw [Entries.find?_insert] at h
  split at h
  · obtain rfl := Option.some.inj h
    exact hv
  · exact hasNaN_of_find? hb h

mutual

/-- A value without NaN that is laid over one brings none in. -/
theorem hasNaN_over : ∀ {v : Value} {below : Option Value}, v.hasNaN = false →
    (∀ u, below = some u → u.hasNaN = false) → (Value.over below v).hasNaN = false
  | .bag upper, below, hv, hbelow => by
    rw [Value.over_bag]
    cases hb : below.bind Value.asBag? with
    | none => exact hv
    | some lower =>
      obtain ⟨u, hu, hlower⟩ := Option.bind_eq_some_iff.mp hb
      obtain rfl := Value.asBag?_eq_some_iff.mp hlower
      exact hasNaN_mergeEntries (hbelow _ hu) hv
  | .null, _, hv, _ => hv
  | .bool _, _, hv, _ => hv
  | .int _, _, hv, _ => hv
  | .float _, _, hv, _ => hv
  | .string _, _, hv, _ => hv
  | .list _, _, hv, _ => hv

/-- Nor do entries without NaN that are laid over a bag. -/
theorem hasNaN_mergeEntries : ∀ {base : Bag} {lo : Option String} {e : Entries String Value lo},
    base.hasNaN = false → Value.entriesHaveNaN e = false →
    (Bag.mergeEntries base e).hasNaN = false
  | _, _, .nil, hbase, _ => hbase
  | base, _, .cons k v _ rest, hbase, he => by
    simp only [Value.entriesHaveNaN, Bool.or_eq_false_iff] at he
    have hover : (Value.over (base.find? k) v).hasNaN = false :=
      hasNaN_over he.1 fun u hu => hasNaN_of_find? hbase hu
    rw [mergeEntries]
    exact hasNaN_mergeEntries (hasNaN_insert hbase k hover) he.2

end

/-- Two layers without NaN make a bag without NaN. -/
theorem hasNaN_merge {lower upper : Bag} (hl : lower.hasNaN = false) (hu : upper.hasNaN = false) :
    (lower.merge upper).hasNaN = false :=
  hasNaN_mergeEntries hl hu

/-- Layers without NaN make a bag without NaN. -/
theorem hasNaN_mergeAll {layers : List Bag} (h : ∀ b ∈ layers, b.hasNaN = false) :
    (Bag.mergeAll layers).hasNaN = false := by
  induction layers using List.reverseRecOn with
  | nil => rfl
  | append_singleton layers top ih =>
    rw [mergeAll_append_singleton]
    refine hasNaN_merge (ih fun b hb => h b (List.mem_append_left _ hb)) ?_
    exact h top (List.mem_append_right _ List.mem_cons_self)

/-- The bags in a bag without NaN have none. -/
theorem hasNaN_inner? {b : Bag} (hb : b.hasNaN = false) {k : String} {inner : Bag}
    (h : b.inner? k = some inner) : inner.hasNaN = false := by
  obtain ⟨v, hv, hinner⟩ := Option.bind_eq_some_iff.mp h
  obtain rfl := Value.asBag?_eq_some_iff.mp hinner
  exact hasNaN_of_find? hb hv

/-- What is looked up in a bag without NaN has none. -/
theorem hasNaN_lookup {b : Bag} (hb : b.hasNaN = false) {p : Path} {v : Value}
    (h : b.lookup p = some v) : v.hasNaN = false := by
  obtain ⟨k, tail⟩ := p
  -- Each step of the path goes into a bag of the bag.
  induction tail generalizing b k with
  | nil => exact hasNaN_of_find? hb h
  | cons n tail ih =>
    rw [lookup_cons] at h
    obtain ⟨inner, hinner, hv⟩ := Option.bind_eq_some_iff.mp h
    exact ih (hasNaN_inner? hb hinner) n hv

/-- So it is for the text of a path. -/
theorem hasNaN_get? {b : Bag} (hb : b.hasNaN = false) {path : String} {v : Value}
    (h : b.get? path = some v) : v.hasNaN = false := by
  obtain ⟨p, hp, hv⟩ := Option.bind_eq_some_iff.mp h
  exact hasNaN_lookup (p := p) hb hv

/-- A value without NaN may be set at any path. -/
theorem hasNaN_setAt {b : Bag} (hb : b.hasNaN = false) (k : String) {v : Value}
    (hv : v.hasNaN = false) (tail : List String) : (b.setAt k v tail).hasNaN = false := by
  induction tail generalizing b k with
  | nil => exact hasNaN_insert hb k hv
  | cons n tail ih =>
    -- The bag in which the write goes on is there already, or empty.
    have hchild : (b.child k).hasNaN = false := by
      unfold child
      split
      · rename_i inner hinner
        exact hasNaN_of_find? hb hinner
      · rfl
    rw [setAt]
    exact hasNaN_insert hb k (ih hchild n)

/-- So it is for the text of a path. -/
theorem hasNaN_set? {b b' : Bag} (hb : b.hasNaN = false) {path : String} {v : Value}
    (hv : v.hasNaN = false) (h : b.set? path v = some b') : b'.hasNaN = false := by
  obtain ⟨p, hp, rfl⟩ := Option.map_eq_some_iff.mp h
  exact hasNaN_setAt hb p.head hv p.tail

end Bag
end LayeredConfig
