import LayeredConfig.Proofs.Bag.Equality
import LayeredConfig.Proofs.Config.MergeOrder
import LayeredConfig.Proofs.Delivery.Log

/-!
# The changes at a path

The rounds of writes that follow each other lead from the view before the first to the view after
the last, and so do the changes that they make at any one path.

## Key results

- `Registry.Orderly.after`: writes without NaN bring none in
- `Registry.rounds_lead`: the changes of rounds form a chain
-/

namespace LayeredConfig

/-! ## Writes without NaN -/

/-- Whether a NaN stands anywhere in what is written. -/
def Write.hasNaN : Write → Bool
  | .addSource _ _ bag => bag.hasNaN
  | .set _ value => value.hasNaN
  | _ => false

namespace Registry

/-- No NaN stands in any source, nor in the overrides. -/
structure Orderly (r : Registry) : Prop where
  sources : ∀ s ∈ r.sources, s.bag.hasNaN = false
  overrides : r.overrides.hasNaN = false

/-- In an empty registry nothing stands at all. -/
theorem orderly_empty : Orderly empty := ⟨fun _ hs => absurd hs List.not_mem_nil, rfl⟩

/-- Where no NaN stands in what is merged, none stands in the view. -/
theorem Orderly.merged {r : Registry} (h : r.Orderly) : r.merged.hasNaN = false := by
  refine Bag.hasNaN_merge (Bag.hasNaN_mergeAll ?_) h.overrides
  intro b hb
  obtain ⟨s, hs, rfl⟩ := List.mem_map.mp hb
  exact h.sources s (mem_ordered.mp hs)

/-- A write without NaN brings none in. -/
theorem Orderly.next {r : Registry} (h : r.Orderly) {w : Write} (hw : w.hasNaN = false) :
    (r.next w).Orderly := by
  -- A refused write leaves the registry as it is, and any other one moves bags that are there or
  -- brings its own.
  cases w with
  | addSource id priority bag =>
    cases hid : r.has id with
    | true => simpa [Registry.next, apply, hid] using h
    | false =>
      simp only [Registry.next, apply, hid]
      refine ⟨?_, h.overrides⟩
      intro s hs
      rcases List.mem_append.mp hs with hs | hs
      · exact h.sources s hs
      · obtain rfl := List.mem_singleton.mp hs
        exact hw
  | removeSource id =>
    cases hid : r.has id with
    | true =>
      simp only [Registry.next, apply, hid]
      exact ⟨fun s hs => h.sources s (List.mem_of_mem_filter hs), h.overrides⟩
    | false => simpa [Registry.next, apply, hid] using h
  | setPriority id priority =>
    cases hid : r.has id with
    | true =>
      simp only [Registry.next, apply, hid]
      refine ⟨?_, h.overrides⟩
      intro s hs
      -- Only the priority is another one.
      obtain ⟨s', hs', rfl⟩ := List.mem_map.mp hs
      have hbag := h.sources s' hs'
      split <;> exact hbag
    | false => simpa [Registry.next, apply, hid] using h
  | set path value =>
    cases hset : r.overrides.set? path value with
    | none => simpa [Registry.next, apply, hset] using h
    | some overrides =>
      simp only [Registry.next, apply, hset]
      exact ⟨h.sources, Bag.hasNaN_set? h.overrides hw hset⟩

/-- Writes without NaN bring none in. -/
theorem Orderly.after {r : Registry} (h : r.Orderly) {ws : List Write}
    (hws : ∀ w ∈ ws, w.hasNaN = false) : (r.after ws).Orderly := by
  induction ws generalizing r with
  | nil => exact h
  | cons w ws ih =>
    exact ih (h.next (hws w List.mem_cons_self)) fun v hv => hws v (List.mem_cons_of_mem _ hv)

end Registry

/-! ## Chains of changes -/

/-- The change that a round makes at a path, unless the values there are equal. -/
def Round.changeAt? (round : Round) (path : String) : Option Change :=
  let change : Change := ⟨path, round.before.get? path, round.after.get? path⟩
  if change.old == change.new then none else some change

/-- Changes at a path that lead from one value to another: each is of that path, begins with the
value with which the one before it ended, and ends with a value that differs. -/
def Change.Leads (path : String) : Option Value → List Change → Option Value → Prop
  | v, [], v' => (v == v') = true
  | v, change :: changes, v' =>
    change.path = path ∧ (change.old == v) = true ∧ (change.old == change.new) = false ∧
      Leads path change.new changes v'

namespace Change

theorem beq_trans : ∀ {a b c : Option Value}, (a == b) = true → (b == c) = true → (a == c) = true
  | none, none, none, _, _ => rfl
  | some _, some _, some _, h, h' => Value.same_trans h h'

theorem beq_symm : ∀ {a b : Option Value}, (a == b) = true → (b == a) = true
  | none, none, _ => rfl
  | some _, some _, h => Value.same_symm h

/-- A value without NaN equals itself. -/
theorem beq_self : ∀ {v? : Option Value}, (∀ v, v? = some v → v.hasNaN = false) →
    (v? == v?) = true
  | none, _ => rfl
  | some v, h => Value.same_self (h v rfl)

/-- A chain may begin at an equal value instead. -/
theorem Leads.of_beq {path : String} {v v' w : Option Value} {changes : List Change}
    (h : Leads path v' changes w) (heq : (v == v') = true) : Leads path v changes w := by
  cases changes with
  | nil => exact beq_trans heq h
  | cons change changes =>
    obtain ⟨hpath, hold, hne, hrest⟩ := h
    exact ⟨hpath, beq_trans hold (beq_symm heq), hne, hrest⟩

end Change

/-- The changes that writes without NaN make at a path lead from the value before them to the value
after them. -/
theorem Registry.rounds_lead {r : Registry} (hr : r.Orderly) {ws : List Write}
    (hws : ∀ w ∈ ws, w.hasNaN = false) (path : String) :
    Change.Leads path (r.merged.get? path) ((r.rounds ws).filterMap (·.changeAt? path))
      ((r.after ws).merged.get? path) := by
  -- The chain is built from the front: the first round leads to where the others begin.
  induction ws generalizing r with
  | nil => exact Change.beq_self fun v hv => Bag.hasNaN_get? hr.merged hv
  | cons w ws ih =>
    have hnext : (r.next w).Orderly := hr.next (hws w List.mem_cons_self)
    have hrest := ih hnext fun v hv => hws v (List.mem_cons_of_mem _ hv)
    rw [after_cons, rounds, List.filterMap_append]
    by_cases hw : r.answer w = .ok true
    · rw [roundOf_of_answer hw, List.filterMap_cons, List.filterMap_nil]
      cases heq : r.merged.get? path == (r.next w).merged.get? path with
      | true =>
        -- The round says nothing about the path.
        have hnone : Round.changeAt? ⟨r.merged, (r.next w).merged⟩ path = none := by
          simp [Round.changeAt?, heq]
        rw [hnone]
        exact hrest.of_beq heq
      | false =>
        have hsome : Round.changeAt? ⟨r.merged, (r.next w).merged⟩ path =
            some ⟨path, r.merged.get? path, (r.next w).merged.get? path⟩ := by
          simp [Round.changeAt?, heq]
        rw [hsome]
        exact ⟨rfl, Change.beq_self fun v hv => Bag.hasNaN_get? hr.merged hv, heq, hrest⟩
    -- A refused write makes no round and changes nothing.
    · rw [roundOf_of_answer_ne hw, List.filterMap_nil, List.nil_append]
      rw [next_of_answer_ne hw] at hrest ⊢
      exact hrest

end LayeredConfig
