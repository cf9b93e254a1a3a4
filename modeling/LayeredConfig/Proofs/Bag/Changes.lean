import LayeredConfig.Proofs.Bag.Writes

/-!
# Changes at a path

A value that is set at a path, or removed from it, changes a bag there and below.  Above the path
there are bags afterwards, and apart from it nothing changes.  A removal is undone by setting what
was removed, and setting is the same as laying a bag on top that holds the value alone, once
nothing is left there with which it could be merged.

## Key results

- `Bag.ChangedAt`: what a change at a path leaves alone
- `Bag.write_write_self` and `Bag.write_comm`: writes after writes
- `Bag.write_without` and `Bag.write_eq_self`: a removal is undone
- `Bag.merge_only`: a write as a layer
- `Bag.written`, `Bag.removed` and `Bag.set_eq_merge`: setting and removing, by the text of a path
-/

namespace LayeredConfig

namespace Path

/-- A path that leads on to another one goes on with a path of its own. -/
theorem IsPrefixOf.exists_append {p q : Path} (h : q.IsPrefixOf p) (hne : q ≠ p) :
    ∃ r, p = q.append r :=
  h.eq_or_append.resolve_left fun heq => hne heq.symm

end Path

namespace Bag

variable {b after : Bag} {text path : String} {p q : Path} {k : String} {v : Value}

/-! ## What a change leaves alone -/

/-- The bag `after` differs from `b` at the path `p` and below it alone, and above it has bags. -/
structure ChangedAt (p : Path) (b after : Bag) : Prop where
  /-- A path that leads on to `p` leads to a bag. -/
  above {text : String} {q : Path} (hq : Path.parse? text = some q) (hleads : q.IsPrefixOf p)
    (hne : q ≠ p) : ∃ inner, after.get? text = some (.bag inner)
  /-- What is found apart from `p` is what was found before. -/
  beside {text : String} (h : ∀ q ∈ Path.parse? text, p.Apart q) : after.get? text = b.get? text
  /-- Entries whose keys no text can name are left alone as well. -/
  entries {q : Path} (h : p.Apart q) : after.lookup q = b.lookup q

/-- It is enough to know the lookups above the path and apart from it. -/
theorem ChangedAt.of_lookup
    (above : ∀ q r, p = q.append r → ∃ inner, after.lookup q = some (.bag inner))
    (entries : ∀ q, p.Apart q → after.lookup q = b.lookup q) : ChangedAt p b after where
  above {_ q} hq hleads hne := by
    obtain ⟨r, hr⟩ := hleads.exists_append hne
    rw [get?_of_parse? hq]
    exact above q r hr
  beside {text} h := by
    -- A text that writes no path finds nothing, before and after.
    cases hparse : Path.parse? text with
    | none => rw [get?, get?, hparse, Option.bind_none, Option.bind_none]
    | some q =>
      rw [get?_of_parse? hparse, get?_of_parse? hparse]
      exact entries q (h q hparse)
  entries := entries _

/-- A write changes a bag at its path alone. -/
theorem changedAt_write (b : Bag) (p : Path) (v : Value) : ChangedAt p b (b.write p v) :=
  .of_lookup (fun q r h => h ▸ lookup_append_write b q r v) fun _ h => lookup_write_of_apart h v

/-! ## Writes after writes -/

/-- The bag that was put at a key is found there. -/
@[simp] theorem child_insert_self (b : Bag) (k : String) (inner : Bag) :
    Bag.child (b.insert k (.bag inner)) k = inner := by
  rw [child_eq, inner?_insert, if_pos rfl, Value.asBag?_bag, Option.getD_some]

/-- To put something at a key leaves the bags at other keys. -/
theorem child_insert_of_ne {l : String} (h : l ≠ k) (b : Bag) (v : Value) :
    Bag.child (b.insert k v) l = b.child l := by
  rw [child_eq, inner?_insert, if_neg h, ← child_eq]

/-- Of two writes at one path the later counts. -/
theorem write_write_self (b : Bag) (p : Path) (v w : Value) :
    (b.write p v).write p w = b.write p w := by
  obtain ⟨k, tail⟩ := p
  -- The second write goes on in the very bag that the first one has made.
  induction tail generalizing b k with
  | nil => exact b.insert_insert k v w
  | cons n tail ih =>
    rw [write_cons, write_cons, write_cons, child_insert_self, ih, Entries.insert_insert]

/-- Writes below different keys may change places. -/
theorem write_comm_of_head_ne (h : p.head ≠ q.head) (b : Bag) (v w : Value) :
    (b.write p v).write q w = (b.write q w).write p v := by
  -- Each write is an insertion at its first key, made of the bag that only this key holds.
  obtain ⟨k, _ | ⟨n, s⟩⟩ := p <;> obtain ⟨l, _ | ⟨m, t⟩⟩ := q <;>
    simp only [write_singleton, write_cons, child_insert_of_ne h, child_insert_of_ne h.symm] <;>
    exact b.insert_comm h _ _

/-- Writes at paths that lead apart may change places. -/
theorem write_comm (h : p.Apart q) (b : Bag) (v w : Value) :
    (b.write p v).write q w = (b.write q w).write p v := by
  induction h using Path.Apart.induct generalizing b with
  | heads p q hne => exact write_comm_of_head_ne hne b v w
  | behind k p q _ ih =>
    -- Both writes go on in the bag at the key, and the second puts back what came of the first.
    simp only [write_behind, child_insert_self, Entries.insert_insert, ih]

/-- To write what is there changes nothing. -/
theorem write_eq_self (h : b.lookup p = some v) : b.write p v = b := by
  obtain ⟨k, tail⟩ := p
  -- The way is there, and at its end what is written is what stands there.
  induction tail generalizing b k with
  | nil => exact Entries.insert_eq_self h
  | cons n tail ih =>
    rw [lookup_cons, Option.bind_eq_some_iff] at h
    obtain ⟨inner, hi, hinner⟩ := h
    rw [write_cons, child_of_inner? hi, ih n hinner,
      Entries.insert_eq_self (inner?_eq_some_iff.mp hi)]

/-! ## Setting a value -/

/-- A value is set at the path that the text writes. -/
theorem set_of_parse? (h : Path.parse? text = some p) (b : Bag) (v : Value) :
    b.set text v = (.ok (), b.write p v) := by
  rw [set, set?_of_parse? h]

/-- At a text that writes no path nothing is set. -/
theorem set_of_malformed (h : Path.Malformed text) (b : Bag) (v : Value) :
    b.set text v = (.error (.invalidPath text), b) := by
  rw [set, set?, Path.parse?_eq_none_iff.mpr h, Option.map_none]

/-- The bag `after` is what setting `v` at a path makes of `b`. -/
structure Written (b : Bag) (path : String) (p : Path) (v : Value) (after : Bag) : Prop
    extends ChangedAt p b after where
  /-- The value is found. -/
  held : after.get? path = some v
  /-- Below the path stands what the value holds, which is nothing if it is no bag. -/
  below (rest : String) : after.get? (Path.join path rest) = v.asBag?.bind (Bag.get? · rest)

/-- A write is what `Written` tells. -/
theorem written_write (hp : Path.parse? path = some p) (b : Bag) (v : Value) :
    Written b path p v (b.write p v) where
  toChangedAt := changedAt_write b p v
  held := by rw [get?_of_parse? hp, lookup_write_self]
  below rest := by
    -- A lookup below goes on in what was written, if that is a bag.
    rw [get?_join hp, bag?, get?_of_parse? hp, lookup_write_self]
    rfl

/-- Just a malformed path is refused, and then the bag stays as it is.  Otherwise the value is
written, as `Bag.Written` has it.  The last value set at a path counts, and values at paths of which
neither leads on to the other may be set in any order. -/
theorem written (b : Bag) (path : String) (v w : Value) :
    (Path.Malformed path → b.set path v = (.error (.invalidPath path), b)) ∧
      (¬ Path.Malformed path → ∃ p after, Path.parse? path = some p ∧
        b.set path v = (.ok (), after) ∧ Written b path p v after) ∧
      (b.set path v).2.set path w = b.set path w ∧
      ∀ path', (∀ p ∈ Path.parse? path, ∀ q ∈ Path.parse? path', p.Apart q) →
        ((b.set path v).2.set path' w).2 = ((b.set path' w).2.set path v).2 := by
  by_cases hpath : Path.Malformed path
  · -- The bag stays as it is, so the first write may as well be left out.
    refine ⟨fun _ => set_of_malformed hpath b v, fun h => absurd hpath h, ?_, ?_⟩
    · simp only [set_of_malformed hpath]
    · intro path' _
      simp only [set_of_malformed hpath]
  · obtain ⟨p, hp⟩ := Path.exists_parse? hpath
    have hwritten := written_write hp b v
    refine ⟨fun h => absurd h hpath, fun _ => ⟨p, _, hp, set_of_parse? hp b v, hwritten⟩, ?_, ?_⟩
    · simp only [set_of_parse? hp, write_write_self]
    · intro path' hapart
      by_cases hpath' : Path.Malformed path'
      · simp only [set_of_malformed hpath']
      · obtain ⟨q, hq⟩ := Path.exists_parse? hpath'
        simp only [set_of_parse? hp, set_of_parse? hq]
        exact write_comm (hapart p hp q hq) b v w

/-- A number gives way to the bag that a value is set in, and a key with a dot in it, which no path
names, is left alone. -/
theorem written_through_scalar :
    ∃ after, Bag.set (.ofList [("a", .int 5), ("a.b", .int 1)]) "a.b"
        (.bag (.ofList [("c", .null)])) = (.ok (), after) ∧
      after.get? "a.b.c" = some .null ∧ after.lookup ⟨"a.b", []⟩ = some (.int 1) := by
  obtain ⟨p, after, hp, hset, hwritten⟩ :=
    (written (.ofList [("a", .int 5), ("a.b", .int 1)]) "a.b" (.bag (.ofList [("c", .null)]))
      .null).2.1 (by decide)
  obtain rfl : ⟨"a", ["b"]⟩ = p := Option.some.inj hp
  exact ⟨after, hset, hwritten.below "c", hwritten.entries (by decide)⟩

/-! ## Removing a value -/

/-- The bag without what stands at a path. -/
def without (b : Bag) (p : Path) : Bag := (b.takeAt p.head p.tail).2

/-- Below a key something is taken from the bag that the key holds, if it holds one. -/
theorem takeAt_cons (b : Bag) (k n : String) (tail : List String) :
    b.takeAt k (n :: tail) =
      match b.inner? k with
      | none => (none, b)
      | some inner =>
        match Bag.takeAt inner n tail with
        | (some v, rest) => (some v, b.insert k (.bag rest))
        | (none, _) => (none, b) := by
  simp only [takeAt, inner?]
  cases b.find? k with
  | none => rfl
  | some v => cases v <;> rfl

/-- What is taken is what a lookup finds. -/
theorem takeAt_fst (b : Bag) (k : String) (tail : List String) :
    (b.takeAt k tail).1 = b.lookup ⟨k, tail⟩ := by
  induction tail generalizing b k with
  | nil => rfl
  | cons n tail ih =>
    rw [takeAt_cons, lookup_cons]
    cases b.inner? k with
    | none => rfl
    | some inner =>
      -- What is taken below is passed on, whether it is something or nothing.
      simp only [Option.bind_some, ← ih inner n]
      rcases Bag.takeAt inner n tail with ⟨_ | v, rest⟩ <;> rfl

/-- What is taken and what is left. -/
theorem takeAt_eq (b : Bag) (k : String) (tail : List String) :
    b.takeAt k tail = (b.lookup ⟨k, tail⟩, b.without ⟨k, tail⟩) :=
  Prod.ext (takeAt_fst b k tail) rfl

/-- A text takes what stands at its path. -/
theorem take_of_parse? (h : Path.parse? text = some p) (b : Bag) :
    b.take text = (b.lookup p, b.without p) := by
  rw [take, h]
  exact takeAt_eq b p.head p.tail

/-- At a path of one segment a removal erases the key. -/
theorem without_singleton (b : Bag) (k : String) : b.without ⟨k, []⟩ = b.erase k := rfl

/-- Nothing is removed where nothing is found. -/
theorem without_eq_self (h : b.lookup p = none) : b.without p = b := by
  obtain ⟨k, _ | ⟨n, tail⟩⟩ := p
  · exact Entries.erase_eq_self h
  · rw [lookup_cons] at h
    -- There is no inner bag, or nothing is found in it, and so it is not replaced.
    rw [without, takeAt_cons]
    cases hi : b.inner? k with
    | none => rfl
    | some inner =>
      rw [hi, Option.bind_some] at h
      simp only [takeAt_eq, h]

/-- Below a key something is removed from the bag that the key holds, if it holds one. -/
theorem without_cons (b : Bag) (k n : String) (tail : List String) :
    b.without ⟨k, n :: tail⟩ =
      match b.inner? k with
      | none => b
      | some inner => b.insert k (.bag (inner.without ⟨n, tail⟩)) := by
  rw [without, takeAt_cons]
  cases hi : b.inner? k with
  | none => rfl
  | some inner =>
    simp only [takeAt_eq]
    -- If nothing was taken, the bag is not touched, which is to put the inner bag back as it was.
    cases hv : inner.lookup ⟨n, tail⟩ with
    | none => rw [without_eq_self hv, Entries.insert_eq_self (inner?_eq_some_iff.mp hi)]
    | some v => rfl

/-- So it is for a path behind a key. -/
theorem without_behind (b : Bag) (k : String) (p : Path) :
    b.without (p.behind k) =
      match b.inner? k with
      | none => b
      | some inner => b.insert k (.bag (inner.without p)) := without_cons b k p.head p.tail

/-- What was removed is not found. -/
theorem lookup_without_self (b : Bag) (p : Path) : (b.without p).lookup p = none := by
  obtain ⟨k, tail⟩ := p
  -- The removal goes into the same inner bags as the lookup.
  induction tail generalizing b k with
  | nil => rw [without_singleton, lookup_singleton, Entries.find?_erase, if_pos rfl]
  | cons n tail ih =>
    rw [without_cons, lookup_cons]
    cases hi : b.inner? k with
    | none => simp only [hi, Option.bind_none]
    | some inner =>
      simp only [inner?_insert, if_true, Value.asBag?_bag, Option.bind_some]
      exact ih inner n

/-- A key of the outermost bag that a removal does not go through. -/
theorem find?_without_of_ne (h : k ≠ p.head) : (b.without p).find? k = b.find? k := by
  obtain ⟨key, _ | ⟨n, tail⟩⟩ := p
  · rw [without_singleton, Entries.find?_erase, if_neg h]
  · rw [without_cons]
    cases b.inner? key with
    | none => rfl
    | some inner => rw [Entries.find?_insert, if_neg h]

/-- Elsewhere a removal changes nothing. -/
theorem lookup_without_of_apart (h : p.Apart q) : (b.without p).lookup q = b.lookup q := by
  induction h using Path.Apart.induct generalizing b with
  | heads p q hne => exact lookup_congr (find?_without_of_ne hne.symm)
  | behind k p q _ ih =>
    rw [without_behind]
    cases hi : b.inner? k with
    | none => rfl
    | some inner =>
      rw [lookup_behind, lookup_behind, inner?_insert, if_pos rfl, Value.asBag?_bag, hi,
        Option.bind_some, Option.bind_some, ih]

/-- The bags above what was removed stay, without what was removed. -/
theorem lookup_without_append {inner : Bag} (h : b.lookup q = some (.bag inner)) (r : Path) :
    (b.without (q.append r)).lookup q = some (.bag (inner.without r)) := by
  obtain ⟨k, tail⟩ := q
  -- Down to the bag the path is followed, and the removal goes on in it.
  induction tail generalizing b k with
  | nil =>
    have hbehind : Path.append ⟨k, []⟩ r = r.behind k := rfl
    rw [hbehind, without_behind, inner?_eq_some_iff.mpr h]
    exact (Entries.find?_insert b k _ k).trans (if_pos rfl)
  | cons n tail ih =>
    rw [lookup_cons, Option.bind_eq_some_iff] at h
    obtain ⟨child, hi, hchild⟩ := h
    have hbehind : Path.append ⟨k, n :: tail⟩ r = (Path.append ⟨n, tail⟩ r).behind k := rfl
    rw [hbehind, without_behind, hi]
    simp only [lookup_cons, inner?_insert, if_true, Value.asBag?_bag, Option.bind_some]
    exact ih n hchild

/-- A removal changes a bag at its path alone. -/
theorem changedAt_without (h : b.lookup p = some v) : ChangedAt p b (b.without p) := by
  refine .of_lookup (fun q r heq => ?_) fun _ => lookup_without_of_apart
  subst heq
  obtain ⟨inner, hinner⟩ := lookup_of_lookup_append h
  exact ⟨_, lookup_without_append hinner r⟩

/-- To remove what is at a path before something is written there makes no difference. -/
theorem write_without (b : Bag) (p : Path) (v : Value) : (b.without p).write p v = b.write p v := by
  obtain ⟨k, tail⟩ := p
  -- What was removed is exactly what the write replaces.
  induction tail generalizing b k with
  | nil => exact b.insert_erase k v
  | cons n tail ih =>
    rw [without_cons]
    cases hi : b.inner? k with
    | none => rfl
    | some inner =>
      -- The write finds the inner bag without what was removed, and takes its place as a whole.
      simp only [write_cons, child_insert_self, Entries.insert_insert, ih, child_of_inner? hi]

/-- The bag `after` is what removing the value `v` at a path makes of `b`. -/
structure Removed (b : Bag) (path : String) (p : Path) (v : Value) (after : Bag) : Prop
    extends ChangedAt p b after where
  /-- The value is not found any more, nor is anything below it. -/
  gone : after.get? path = none
  below (rest : String) : after.get? (Path.join path rest) = none
  /-- Bags that a removal empties stay, and so it can be undone. -/
  restored : after.set path v = (.ok (), b)

/-- A removal is what `Removed` tells. -/
theorem removed_without (hp : Path.parse? path = some p) (h : b.lookup p = some v) :
    Removed b path p v (b.without p) where
  toChangedAt := changedAt_without h
  gone := by rw [get?_of_parse? hp, lookup_without_self]
  below rest := by
    rw [get?_join hp, bag?, get?_of_parse? hp, lookup_without_self]
    rfl
  -- Writing what was there is as if it had never been removed.
  restored := by rw [set_of_parse? hp, write_without, write_eq_self h]

/-- What is removed is what a lookup finds.  If it finds nothing, the bag stays as it is, and
otherwise the value is removed, as `Bag.Removed` has it. -/
theorem removed (b : Bag) (path : String) :
    (b.take path).1 = b.get? path ∧
      (b.get? path = none → (b.take path).2 = b) ∧
      ∀ v, b.get? path = some v → ∃ p, Path.parse? path = some p ∧
        Removed b path p v (b.take path).2 := by
  cases hp : Path.parse? path with
  | none => simp [take, get?, hp]
  | some p =>
    rw [take_of_parse? hp, get?_of_parse? hp]
    exact ⟨rfl, without_eq_self, fun v hv => ⟨p, rfl, removed_without hp hv⟩⟩

/-- The bag above the value that is removed is empty, stays, and is filled again. -/
theorem removed_only_entry :
    ∃ after, Bag.take (.ofList [("a", .bag (.ofList [("b", .int 1)]))]) "a.b" =
        (some (.int 1), after) ∧
      after.get? "a" = some (.bag .nil) ∧
      after.set "a.b" (.int 1) = (.ok (), .ofList [("a", .bag (.ofList [("b", .int 1)]))]) := by
  obtain ⟨-, -, h⟩ := removed (.ofList [("a", .bag (.ofList [("b", .int 1)]))]) "a.b"
  obtain ⟨p, -, hremoved⟩ := h (.int 1) rfl
  exact ⟨_, rfl, rfl, hremoved.restored⟩

/-! ## Writes as layers -/

/-- The bag with `v` at `key` and the further keys `tail` below it, and nothing else. -/
def onlyAt (key : String) (v : Value) : List String → Bag
  | [] => .cons key v (.of_none key) .nil
  | next :: tail => .cons key (.bag (onlyAt next v tail)) (.of_none key) .nil

/-- The bag with `v` at a path and nothing else. -/
def only (p : Path) (v : Value) : Bag := onlyAt p.head v p.tail

/-- A write to the empty bag makes the bag with this value alone. -/
theorem write_nil (p : Path) (v : Value) : Bag.write .nil p v = only p v := by
  obtain ⟨k, tail⟩ := p
  induction tail generalizing k with
  | nil => rfl
  | cons n tail ih =>
    have hbelow : Bag.write (Bag.child .nil k) ⟨n, tail⟩ v = onlyAt n v tail := ih n
    rw [write_cons, hbelow]
    rfl

/-- A bag that holds a value alone and is laid over another writes the value there, merged with what
is there. -/
theorem merge_only (b : Bag) (p : Path) (v : Value) :
    b.merge (only p v) = b.write p (Value.over (b.lookup p) v) := by
  -- It is a write to the upper of two layers of which the upper one is empty, so nothing gives way.
  have hwrite := merge_write b .nil p v
  rwa [foothold_nil, merge_nil, write_nil] at hwrite

/-- To set a value is to lay a bag on top that holds the value alone, if the value is no bag.  A bag
would be merged with a bag that is there, so what is there has to be removed first. -/
theorem set_eq_merge (hp : Path.parse? path = some p) (b : Bag) (v : Value) :
    (v.isBag = false → b.set path v = (.ok (), b.merge (only p v))) ∧
      b.set path v = (.ok (), (b.take path).2.merge (only p v)) := by
  rw [set_of_parse? hp, take_of_parse? hp, merge_only, merge_only, lookup_without_self,
    Value.over_none, write_without]
  refine ⟨fun hv => ?_, rfl⟩
  -- What is no bag is merged with nothing, so it need not be removed before.
  rw [Value.over_of_isBag_eq_false hv]

/-- A list in the way of a value gives way, and a bag in the place of a bag has to be removed. -/
theorem set_eq_merge_obstructed :
    Path.parse? "a.b" = some ⟨"a", ["b"]⟩ ∧
      Bag.set (.ofList [("a", .list [])]) "a.b" .null =
        (.ok (), Bag.merge (.ofList [("a", .list [])])
          (.ofList [("a", .bag (.ofList [("b", .null)]))])) ∧
      Path.parse? "a" = some ⟨"a", []⟩ ∧
      Bag.set (.ofList [("a", .bag (.ofList [("b", .null)]))]) "a" (.bag .nil) =
        (.ok (), Bag.merge .nil (.ofList [("a", .bag .nil)])) :=
  ⟨rfl, (set_eq_merge (p := ⟨"a", ["b"]⟩) rfl (.ofList [("a", .list [])]) .null).1 rfl, rfl,
    (set_eq_merge (p := ⟨"a", []⟩) rfl (.ofList [("a", .bag (.ofList [("b", .null)]))])
      (.bag .nil)).2⟩

end Bag
end LayeredConfig
