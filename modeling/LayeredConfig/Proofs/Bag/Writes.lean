import LayeredConfig.Proofs.Bag.Paths

/-!
# Writes to bags

What a write at a path does to lookups, and to a bag that lies over another.  A write makes room
for itself: something on the way that is no bag gives way.  In a bag that lies over another this
uncovers what the other holds there.

## Key results

- `Bag.lookup_write_self` and `Bag.lookup_write_of_apart`: lookups after a write
- `Bag.lookup_write_append` and `Bag.lookup_append_write`: lookups below and above it
- `Bag.blocks_write_of_apart`: what a write uncovers
- `Bag.merge_write`: a write to the upper of two layers
-/

namespace LayeredConfig

namespace Path

/-- Whether a path is another one or leads to something above it. -/
def IsPrefixOf (p q : Path) : Prop := p.segments <+: q.segments

instance : DecidableRel IsPrefixOf := fun p q =>
  inferInstanceAs (Decidable (p.segments <+: q.segments))

/-- A path that leads on to another begins with the same key. -/
theorem IsPrefixOf.head_eq {p q : Path} (h : p.IsPrefixOf q) : p.head = q.head :=
  (List.cons_prefix_cons.mp h).1

/-- Whether neither of two paths leads on to the other. -/
def Apart (p q : Path) : Prop := ¬ p.IsPrefixOf q ∧ ¬ q.IsPrefixOf p

instance : DecidableRel Apart := fun p q =>
  inferInstanceAs (Decidable (¬ p.IsPrefixOf q ∧ ¬ q.IsPrefixOf p))

/-- A path that another one leads on to is that path, or goes on with a path of its own. -/
theorem IsPrefixOf.eq_or_append {p q : Path} (h : p.IsPrefixOf q) : q = p ∨ ∃ r, q = p.append r := by
  obtain ⟨k, tail⟩ := p
  obtain ⟨k', tail'⟩ := q
  obtain ⟨rfl, rest, rfl⟩ := List.cons_prefix_cons.mp h
  cases rest with
  | nil => exact .inl (by rw [List.append_nil])
  | cons n rest => exact .inr ⟨⟨n, rest⟩, rfl⟩

/-- The path that goes on with `p` behind a key. -/
def behind (k : String) (p : Path) : Path := ⟨k, p.segments⟩

/-- A single key leads on to the paths that begin with it. -/
@[simp] theorem isPrefixOf_singleton (k : String) (q : Path) :
    IsPrefixOf ⟨k, []⟩ q ↔ k = q.head := by
  simp [IsPrefixOf, segments]

/-- A longer path leads on to those with its first key that go on with its rest. -/
@[simp] theorem isPrefixOf_behind (k : String) (p : Path) (k' n : String) (tail : List String) :
    IsPrefixOf (behind k p) ⟨k', n :: tail⟩ ↔ k = k' ∧ p.IsPrefixOf ⟨n, tail⟩ := by
  simp [IsPrefixOf, segments, behind, List.cons_prefix_cons]

/-- Behind a key that they share, paths lead apart as they did. -/
theorem apart_cons {k n m : String} {s t : List String} :
    Apart ⟨k, n :: s⟩ ⟨k, m :: t⟩ ↔ Apart ⟨n, s⟩ ⟨m, t⟩ := by
  simp [Apart, IsPrefixOf, segments, List.cons_prefix_cons]

/-- So do paths that are put behind a key. -/
theorem Apart.behind {p q : Path} (h : p.Apart q) (k : String) : (p.behind k).Apart (q.behind k) :=
  apart_cons.mpr h

/-- Paths that begin with different keys lead apart. -/
theorem apart_of_head_ne {p q : Path} (h : p.head ≠ q.head) : p.Apart q :=
  ⟨fun hp => h hp.head_eq, fun hq => h hq.head_eq.symm⟩

/-- Paths lead apart from the first key on, or behind a key that they share. -/
@[elab_as_elim]
theorem Apart.induct {motive : (p q : Path) → p.Apart q → Prop}
    (heads : ∀ p q (hne : p.head ≠ q.head), motive p q (apart_of_head_ne hne))
    (behind : ∀ k p q (h : p.Apart q), motive p q h → motive (p.behind k) (q.behind k) (h.behind k))
    {p q : Path} (h : p.Apart q) : motive p q h := by
  obtain ⟨k, tail⟩ := p
  obtain ⟨l, tail'⟩ := q
  -- The keys differ here, or both paths go on behind the same key.
  by_cases hk : k = l
  · subst hk
    -- Neither path ends at the key, since it would lead on to the other one then.
    induction tail generalizing k tail' with
    | nil => exact absurd ((isPrefixOf_singleton k _).mpr rfl) h.1
    | cons n tail ih =>
      cases tail' with
      | nil => exact absurd ((isPrefixOf_singleton k _).mpr rfl) h.2
      | cons m tail' =>
        refine behind k ⟨n, tail⟩ ⟨m, tail'⟩ (apart_cons.mp h) ?_
        by_cases hn : n = m
        · subst hn
          exact ih n tail' _
        · exact heads _ _ hn
  · exact heads _ _ hk

end Path

namespace Value

theorem asBag?_of_isBag_eq_false {v : Value} (h : v.isBag = false) : v.asBag? = none := by
  cases v with
  | bag b => exact nomatch h
  | _ => rfl

/-- What is no bag replaces whatever is below it. -/
theorem over_of_isBag_eq_false {v : Value} (h : v.isBag = false) (below : Option Value) :
    Value.over below v = v := over_of_asBag?_eq_none (asBag?_of_isBag_eq_false h) below

end Value

namespace Bag

/-- The bag with `v` at a path. -/
def write (b : Bag) (p : Path) (v : Value) : Bag := b.setAt p.head v p.tail

/-- A value is written at the path that the text writes. -/
theorem set?_of_parse? {text : String} {p : Path} (h : Path.parse? text = some p) (b : Bag)
    (v : Value) : b.set? text v = some (b.write p v) := by
  simp only [set?, h, Option.map_some, write]

/-- A write at a single key is an insertion. -/
theorem write_singleton (b : Bag) (k : String) (v : Value) : b.write ⟨k, []⟩ v = b.insert k v := rfl

/-- A write at a longer path goes on in the bag at the first key, which it makes if need be. -/
theorem write_cons (b : Bag) (k n : String) (tail : List String) (v : Value) :
    b.write ⟨k, n :: tail⟩ v = b.insert k (.bag ((b.child k).write ⟨n, tail⟩ v)) := rfl

/-- So it is for a path behind a key. -/
theorem write_behind (b : Bag) (k : String) (p : Path) (v : Value) :
    b.write (p.behind k) v = b.insert k (.bag ((b.child k).write p v)) := rfl

/-- The bag in which a write goes on is the one at the key, or a new one. -/
theorem child_eq (b : Bag) (k : String) : b.child k = (b.inner? k).getD .nil := by
  unfold child inner?
  cases b.find? k with
  | none => rfl
  | some v => cases v <;> rfl

/-- Where there is a bag already, the write goes on in it. -/
theorem child_of_inner? {b inner : Bag} {k : String} (h : b.inner? k = some inner) :
    b.child k = inner := by
  rw [child_eq, h, Option.getD_some]

/-- The bag at a key after an insertion. -/
theorem inner?_insert (b : Bag) (k : String) (v : Value) (q : String) :
    Bag.inner? (b.insert k v) q = if q = k then v.asBag? else b.inner? q := by
  unfold inner?
  rw [Entries.find?_insert]
  split <;> rfl

/-- A path behind a key is followed in the bag at the key. -/
theorem lookup_behind (b : Bag) (k : String) (p : Path) :
    b.lookup (p.behind k) = (b.inner? k).bind (Bag.lookup · p) := lookup_cons b k p.head p.tail

@[simp] theorem lookup_nil (p : Path) : Bag.lookup .nil p = none := by
  obtain ⟨k, _ | ⟨n, tail⟩⟩ := p <;> rfl

@[simp] theorem blocks_nil (p : Path) : Bag.blocks .nil p = false := by
  obtain ⟨k, _ | ⟨n, tail⟩⟩ := p
  · rfl
  · rw [blocks_cons]
    rfl

/-- The empty bag on top changes nothing. -/
@[simp] theorem merge_nil (b : Bag) : b.merge .nil = b := rfl

/-! ## Lookups after a write -/

/-- What was written is found. -/
theorem lookup_write_self (b : Bag) (p : Path) (v : Value) : (b.write p v).lookup p = some v := by
  obtain ⟨k, tail⟩ := p
  induction tail generalizing b k with
  | nil => rw [write_singleton, lookup_singleton, Entries.find?_insert, if_pos rfl]
  | cons n tail ih =>
    rw [write_cons, lookup_cons, inner?_insert, if_pos rfl, Value.asBag?_bag, Option.bind_some, ih]

/-- A write is told by the value that it leaves. -/
theorem write_inj {b : Bag} {p : Path} {v w : Value} : b.write p v = b.write p w ↔ v = w := by
  refine ⟨fun h => ?_, fun h => by rw [h]⟩
  have hfound := lookup_write_self b p v
  rw [h, lookup_write_self] at hfound
  exact (Option.some.inj hfound).symm

/-- A key of the outermost bag that a write does not go through. -/
theorem find?_write_of_ne {b : Bag} {p : Path} {v : Value} {k : String} (h : k ≠ p.head) :
    (b.write p v).find? k = b.find? k := by
  obtain ⟨key, _ | ⟨n, tail⟩⟩ := p
  · rw [write_singleton, Entries.find?_insert, if_neg h]
  · rw [write_cons, Entries.find?_insert, if_neg h]

/-- A lookup depends on what the first key holds. -/
theorem lookup_congr {b c : Bag} {q : Path} (h : b.find? q.head = c.find? q.head) :
    b.lookup q = c.lookup q := by
  obtain ⟨k, _ | ⟨n, tail⟩⟩ := q
  · exact h
  · rw [lookup_cons, lookup_cons, inner?, inner?, h]

/-- What stands in the way of a lookup depends on what the first key holds. -/
theorem blocks_congr {b c : Bag} {q : Path} (h : b.find? q.head = c.find? q.head) :
    b.blocks q = c.blocks q := by
  obtain ⟨k, _ | ⟨n, tail⟩⟩ := q
  · rfl
  · rw [blocks_cons, blocks_cons, inner?, inner?, h]

/-- Elsewhere a write changes nothing. -/
theorem lookup_write_of_apart {b : Bag} {p q : Path} (h : p.Apart q) (v : Value) :
    (b.write p v).lookup q = b.lookup q := by
  -- The paths part at the first key, where the write leaves other keys alone, or further down.
  induction h using Path.Apart.induct generalizing b with
  | heads p q hne => exact lookup_congr (find?_write_of_ne hne.symm)
  | behind k p q _ ih =>
    rw [write_behind, lookup_behind, inner?_insert, if_pos rfl, Value.asBag?_bag, Option.bind_some,
      ih, lookup_behind, child_eq]
    cases b.inner? k <;> simp

/-- Below a value that was written stands what the value holds. -/
theorem lookup_write_append (b : Bag) (p r : Path) (v : Value) :
    (b.write p v).lookup (p.append r) = v.asBag?.bind (Bag.lookup · r) := by
  rw [lookup_append, lookup_write_self, Option.bind_some]

/-- Above a value that was written there is a bag. -/
theorem lookup_append_write (b : Bag) (p r : Path) (v : Value) :
    ∃ inner, (b.write (p.append r) v).lookup p = some (.bag inner) :=
  lookup_of_lookup_append (lookup_write_self b (p.append r) v)

/-- What is no bag was written itself, or stood beside what was written before. -/
theorem lookup_write_cases {b : Bag} {p q : Path} {v u : Value} (hv : v.isBag = false)
    (hu : u.isBag = false) (h : (b.write p v).lookup q = some u) :
    q = p ∧ u = v ∨ p.Apart q ∧ b.lookup q = some u := by
  -- Below the path that was written, above it, or apart from it.
  by_cases hpq : p.IsPrefixOf q
  · obtain rfl | ⟨r, rfl⟩ := hpq.eq_or_append
    · rw [lookup_write_self, Option.some.injEq] at h
      exact .inl ⟨rfl, h.symm⟩
    · -- There is nothing below a value that is no bag.
      rw [lookup_write_append, Value.asBag?_of_isBag_eq_false hv] at h
      exact nomatch h
  by_cases hqp : q.IsPrefixOf p
  · obtain rfl | ⟨r, rfl⟩ := hqp.eq_or_append
    · exact absurd List.prefix_rfl hpq
    · obtain ⟨inner, hinner⟩ := lookup_append_write b q r v
      rw [hinner, Option.some.injEq] at h
      subst h
      exact nomatch hu
  · have hapart : p.Apart q := ⟨hpq, hqp⟩
    rw [lookup_write_of_apart hapart] at h
    exact .inr ⟨hapart, h⟩

/-! ## What gives way -/

/-- Where a write of `v` takes hold, and the value that comes there: at the first thing on the way
that is no bag, with new bags down to `v`, or else at the end of the way with `v` itself. -/
def footholdAt (b : Bag) (key : String) (v : Value) : List String → Path × Value
  | [] => (⟨key, []⟩, v)
  | next :: tail =>
    match b.find? key with
    | none => (⟨key, next :: tail⟩, v)
    | some (.bag inner) =>
      let below := footholdAt inner next v tail
      (below.1.behind key, below.2)
    | some _ => (⟨key, []⟩, .bag (Bag.write .nil ⟨next, tail⟩ v))

/-- Where a write takes hold. -/
def foothold (b : Bag) (p : Path) (v : Value) : Path × Value := b.footholdAt p.head v p.tail

/-- Through a bag a write goes on. -/
theorem foothold_cons_of_bag {b inner : Bag} {k : String} (h : b.find? k = some (.bag inner))
    (n : String) (tail : List String) (v : Value) :
    b.foothold ⟨k, n :: tail⟩ v =
      ((inner.foothold ⟨n, tail⟩ v).1.behind k, (inner.foothold ⟨n, tail⟩ v).2) := by
  simp only [foothold, footholdAt, h]

/-- Where nothing stands a write goes to its end. -/
theorem foothold_cons_of_none {b : Bag} {k : String} (h : b.find? k = none)
    (n : String) (tail : List String) (v : Value) :
    b.foothold ⟨k, n :: tail⟩ v = (⟨k, n :: tail⟩, v) := by
  simp only [foothold, footholdAt, h]

/-- What is no bag gives way to a write. -/
theorem foothold_cons_of_isBag_eq_false {b : Bag} {k : String} {u : Value} (h : b.find? k = some u)
    (hu : u.isBag = false) (n : String) (tail : List String) (v : Value) :
    b.foothold ⟨k, n :: tail⟩ v = (⟨k, []⟩, .bag (Bag.write .nil ⟨n, tail⟩ v)) := by
  cases u with
  | bag inner => exact nomatch hu
  | _ => simp only [foothold, footholdAt, h]

/-- In an empty bag a write goes to its end. -/
theorem foothold_nil (p : Path) (v : Value) : Bag.foothold .nil p v = (p, v) := by
  obtain ⟨k, _ | ⟨n, tail⟩⟩ := p <;> rfl

/-- Nothing, a bag, or something else stands at a key. -/
theorem find?_cases (b : Bag) (k : String) :
    b.find? k = none ∨ (∃ inner, b.find? k = some (.bag inner)) ∨
      ∃ u, b.find? k = some u ∧ u.isBag = false := by
  cases hk : b.find? k with
  | none => exact .inl rfl
  | some u =>
    cases u with
    | bag inner => exact .inr (.inl ⟨inner, rfl⟩)
    | _ => exact .inr (.inr ⟨_, rfl, rfl⟩)

/-- The bag at a key is what it holds, taken as a bag. -/
theorem inner?_of_find? {b : Bag} {k : String} {u : Value} (h : b.find? k = some u) :
    b.inner? k = u.asBag? := by
  rw [inner?, h, Option.bind_some]

/-- With nothing in the way a write takes hold at the end of its way. -/
theorem foothold_of_blocks_eq_false {b : Bag} {p : Path} (h : b.blocks p = false) (v : Value) :
    b.foothold p v = (p, v) := by
  obtain ⟨k, tail⟩ := p
  induction tail generalizing b k with
  | nil => rfl
  | cons n tail ih =>
    rw [blocks_cons] at h
    -- The third case would be in the way.
    rcases b.find?_cases k with hk | ⟨inner, hk⟩ | ⟨u, hk, hu⟩
    · exact foothold_cons_of_none hk n tail v
    · rw [inner?_of_find? hk, Value.asBag?_bag] at h
      rw [foothold_cons_of_bag hk, ih n h]
      rfl
    · rw [inner?_of_find? hk, Value.asBag?_of_isBag_eq_false hu, hk] at h
      exact nomatch h

/-- A write takes hold on its way. -/
theorem foothold_isPrefixOf (b : Bag) (p : Path) (v : Value) :
    (b.foothold p v).1.IsPrefixOf p := by
  obtain ⟨k, tail⟩ := p
  induction tail generalizing b k with
  | nil => exact List.prefix_rfl
  | cons n tail ih =>
    -- It goes to the end, further down, or stops at this key.
    rcases b.find?_cases k with hk | ⟨inner, hk⟩ | ⟨u, hk, hu⟩
    · rw [foothold_cons_of_none hk]
      exact List.prefix_rfl
    · rw [foothold_cons_of_bag hk]
      exact (Path.isPrefixOf_behind _ _ _ _ _).mpr ⟨rfl, ih inner n⟩
    · rw [foothold_cons_of_isBag_eq_false hk hu]
      exact (Path.isPrefixOf_singleton _ _).mpr rfl

/-- Behind something that gives way to a write, things were hidden before and are hidden no longer;
elsewhere what is hidden stays hidden. -/
theorem blocks_write_of_apart {b : Bag} {p q : Path} (h : p.Apart q) (v : Value) :
    if (b.foothold p v).1.IsPrefixOf q then b.blocks q = true ∧ (b.write p v).blocks q = false
    else (b.write p v).blocks q = b.blocks q := by
  induction h using Path.Apart.induct generalizing b with
  | heads p q hne =>
    have hfoot : ¬ (b.foothold p v).1.IsPrefixOf q := fun hfoot =>
      hne ((b.foothold_isPrefixOf p v).head_eq.symm.trans hfoot.head_eq)
    rw [if_neg hfoot]
    exact blocks_congr (find?_write_of_ne hne.symm)
  | behind k p q h ih =>
    obtain ⟨n, tail⟩ := p
    obtain ⟨m, tail'⟩ := q
    -- Nothing is hidden below a bag that the write makes.
    have hnew : (Bag.write .nil ⟨n, tail⟩ v).blocks ⟨m, tail'⟩ = false := by
      have hnil := ih (b := .nil)
      rw [foothold_nil, if_neg h.1] at hnil
      rw [hnil, blocks_nil]
    have hwrite : (b.write ⟨k, n :: tail⟩ v).blocks ⟨k, m :: tail'⟩ =
        ((b.child k).write ⟨n, tail⟩ v).blocks ⟨m, tail'⟩ := by
      rw [write_cons, blocks_cons, inner?_insert, if_pos rfl, Value.asBag?_bag]
    have hapart : Path.Apart ⟨k, n :: tail⟩ ⟨k, m :: tail'⟩ := h.behind k
    simp only [Path.behind, Path.segments, hwrite]
    rcases b.find?_cases k with hb | ⟨inner, hb⟩ | ⟨u, hb, hu⟩
    · have hinner : b.inner? k = none := by rw [inner?, hb, Option.bind_none]
      rw [foothold_cons_of_none hb, if_neg hapart.1, blocks_cons, child_eq, hinner, hb]
      exact hnew
    · rw [foothold_cons_of_bag hb, blocks_cons, child_eq, inner?_of_find? hb, Value.asBag?_bag]
      have hinner := ih (b := inner)
      simpa using hinner
    · have hinner : b.inner? k = none := by
        rw [inner?_of_find? hb, Value.asBag?_of_isBag_eq_false hu]
      rw [foothold_cons_of_isBag_eq_false hb hu,
        if_pos ((Path.isPrefixOf_singleton k _).mpr rfl), blocks_cons, child_eq, hinner, hb]
      exact ⟨rfl, hnew⟩

/-! ## Writes to the upper of two layers -/

/-- An insertion to the upper of two layers is one to both together. -/
theorem merge_insert (lower upper : Bag) (k : String) (v : Value) :
    lower.merge (upper.insert k v) =
      (lower.merge upper).insert k (Value.over (lower.find? k) v) := by
  apply Entries.ext
  intro q
  rw [find?_merge, Entries.find?_insert, Entries.find?_insert]
  by_cases hq : q = k
  · rw [if_pos hq, if_pos hq, hq]
  · rw [if_neg hq, if_neg hq, find?_merge]

/-- A bag that is laid over what a key holds. -/
theorem over_find?_bag (lower : Bag) (k : String) (u : Bag) :
    Value.over (lower.find? k) (.bag u) =
      .bag (match lower.inner? k with
        | none => u
        | some l => l.merge u) := Value.over_bag _ _

/-- In a bag that lies over another a write can as well be made where it takes hold. -/
theorem write_foothold (lower upper : Bag) (p : Path) (v : Value) :
    (lower.merge upper).write (upper.foothold p v).1 (upper.foothold p v).2 =
      (lower.merge upper).write p v := by
  obtain ⟨k, tail⟩ := p
  induction tail generalizing lower upper k with
  | nil => rfl
  | cons n tail ih =>
    -- Where the upper bag has a bag the induction goes on, and else both writes start from the
    -- same.
    rcases upper.find?_cases k with hk | ⟨inner, hk⟩ | ⟨u, hk, hu⟩
    · rw [foothold_cons_of_none hk]
    · rw [foothold_cons_of_bag hk, write_behind, write_cons, child_eq, inner?_merge, hk,
        inner?_of_find? hk]
      cases lower.inner? k with
      | none =>
        have hinner := ih .nil inner n
        rw [nil_merge] at hinner
        simp [hinner]
      | some l => simp [ih l inner n]
    · have hchild : (lower.merge upper).child k = .nil := by
        rw [child_eq, inner?_merge, hk, inner?_of_find? hk, Value.asBag?_of_isBag_eq_false hu]
        rfl
      rw [foothold_cons_of_isBag_eq_false hk hu, write_singleton, write_cons, hchild]

/-- A write to the upper of two layers is a write to both together, made where it takes hold in the
upper one.  What the lower one holds there comes up from below. -/
theorem merge_write (lower upper : Bag) (p : Path) (v : Value) :
    lower.merge (upper.write p v) =
      (lower.merge upper).write (upper.foothold p v).1
        (Value.over (lower.lookup (upper.foothold p v).1) (upper.foothold p v).2) := by
  obtain ⟨k, tail⟩ := p
  induction tail generalizing lower upper k with
  | nil => exact merge_insert lower upper k v
  | cons n tail ih =>
    rw [write_cons, merge_insert]
    rcases upper.find?_cases k with hk | ⟨inner, hk⟩ | ⟨u, hk, hu⟩
    · -- The upper bag has nothing there, so only the lower one counts.
      have hinner : upper.inner? k = none := by rw [inner?, hk, Option.bind_none]
      rw [foothold_cons_of_none hk, write_cons, over_find?_bag, child_eq, child_eq, inner?_merge,
        hinner, hk, lookup_cons]
      cases lower.inner? k with
      | none => simp
      | some l =>
        have hl := ih l .nil n
        rw [foothold_nil, merge_nil] at hl
        simp [hl]
    · rw [foothold_cons_of_bag hk, write_behind, over_find?_bag, child_eq, child_eq, inner?_merge,
        hk, inner?_of_find? hk, lookup_behind]
      cases lower.inner? k with
      | none =>
        have hinner := write_foothold .nil inner ⟨n, tail⟩ v
        rw [nil_merge] at hinner
        simp [hinner]
      | some l => simp [ih l inner n]
    · have hchild : upper.child k = .nil := by
        rw [child_eq, inner?_of_find? hk, Value.asBag?_of_isBag_eq_false hu]
        rfl
      rw [foothold_cons_of_isBag_eq_false hk hu, hchild]
      rfl

/-- Elsewhere a write to the upper of two layers changes nothing, save that what it makes give way
no longer hides the lower one. -/
theorem lookup_merge_write_of_apart (lower upper : Bag) {p q : Path} (h : p.Apart q) (v : Value) :
    (lower.merge (upper.write p v)).lookup q =
      if (upper.foothold p v).1.IsPrefixOf q then lower.lookup q
      else (lower.merge upper).lookup q := by
  have hblocks := blocks_write_of_apart (b := upper) h v
  rw [lookup_merge, lookup_write_of_apart h]
  -- Behind what gave way the upper bag hid everything and hides nothing now.
  by_cases hfoot : (upper.foothold p v).1.IsPrefixOf q
  · rw [if_pos hfoot] at hblocks ⊢
    rw [hblocks.2, lookup_eq_none_of_blocks hblocks.1]
    rfl
  · rw [if_neg hfoot] at hblocks ⊢
    rw [hblocks, lookup_merge]

end Bag
end LayeredConfig
