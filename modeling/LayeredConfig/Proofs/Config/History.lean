import LayeredConfig.Proofs.Config.MergeOrder
import LayeredConfig.Proofs.Delivery.Reach

/-!
# What a history makes of a configuration

The view and the sources of a configuration are told from the history of its writes alone, without
the registry: a source is there if it was added and not removed since, its rank is the position at
which it was added, and the overrides are the values that were set.

## Key results

- `History.added_append_singleton`: what one more write makes of the sources
- `Registry.sources_after` / `Registry.overrides_after`: the registry after a history
- `Thread.config_of_history`: the view and the sources of a reachable configuration
-/

namespace LayeredConfig

/-! ## Sources and overrides of a history -/

namespace History

/-- What becomes of a registered source by a write. -/
def fate (s : Source) : Write × Except Error Bool → Option Source
  | (.addSource id _ _, .ok true) => if s.id == id then none else some s
  | (.removeSource id, .ok true) => if s.id == id then none else some s
  | (.setPriority id priority, .ok true) => some (if s.id == id then { s with priority } else s)
  | _ => some s

/-- The source that a write adds. -/
def enrolled? : Write × Except Error Bool → Option Source
  | (.addSource id priority bag, .ok true) => some ⟨id, priority, bag⟩
  | _ => none

/-- What a history leaves of a source. -/
def remains (s : Source) (h : History) : Option Source := h.foldlM fate s

/-- The sources that a history leaves, each with the position at which it was added.  Positions
count from the first argument. -/
def added (n : Nat) : History → List (Nat × Source)
  | [] => []
  | e :: h => ((enrolled? e).bind (remains · h)).toList.map (n, ·) ++ added (n + 1) h

/-- The sources that a history leaves, by priority and then by position. -/
def sources (h : History) : List Source := ((added 0 h).insertionSort Precedes).map Prod.snd

/-- The overrides after a write. -/
def override (b : Bag) : Write × Except Error Bool → Bag
  | (.set path value, .ok true) => (b.set? path value).getD b
  | _ => b

/-- The values that a history sets, one after the other. -/
def overrides (h : History) : Bag := h.foldl override .nil

/-- A write lets each source meet its fate where it stands, so a new priority does not change its
position and a removal leaves nothing of it; a new source comes last. -/
theorem added_append_singleton (n : Nat) (h : History) (e : Write × Except Error Bool) :
    added n (h ++ [e]) = (added n h).filterMap (fun a => (fate a.2 e).map (a.1, ·)) ++
      (enrolled? e).toList.map (n + h.length, ·) := by
  induction h generalizing n with
  | nil => cases he : enrolled? e <;> simp [added, remains, he]
  | cons e' h ih =>
    -- A source that was added before meets the last write after all the others.
    have hremains (s : Source) : remains s (h ++ [e]) = (remains s h).bind (fate · e) := by
      simp [remains, List.foldlM_append]
    have hlength : n + (e' :: h).length = n + 1 + h.length := by
      rw [List.length_cons]
      omega
    rw [List.cons_append, added, ih, added, hlength, List.filterMap_append, List.append_assoc]
    cases he : enrolled? e' with
    | none => simp
    | some s =>
      -- The one added first is gone by then, or meets the last write as well.
      cases hs : remains s h with
      | none => simp [hremains, hs]
      | some s' => cases hfate : fate s' e <;> simp [hremains, hs, hfate]

/-- Positions count from the first argument. -/
private theorem le_of_mem_added {n : Nat} {h : History} {a : Nat × Source} (ha : a ∈ added n h) :
    n ≤ a.1 := by
  induction h generalizing n with
  | nil => exact absurd ha List.not_mem_nil
  | cons e h ih =>
    rcases List.mem_append.mp ha with ha | ha
    · obtain ⟨s, -, rfl⟩ := List.mem_map.mp ha
      exact Nat.le_refl n
    · exact Nat.le_of_succ_le (ih ha)

/-- The positions of the sources that are left ascend. -/
theorem pairwise_added (n : Nat) (h : History) : (added n h).Pairwise (·.1 < ·.1) := by
  induction h generalizing n with
  | nil => exact .nil
  | cons e h ih =>
    refine List.pairwise_append.mpr ⟨?_, ih (n + 1), ?_⟩
    · cases (enrolled? e).bind (remains · h) <;> simp
    -- The first write adds at position `n`, and all later ones beyond it.
    · intro a ha b hb
      obtain ⟨s, -, rfl⟩ := List.mem_map.mp ha
      exact le_of_mem_added hb

end History

/-! ## Registries -/

namespace Registry

/-- Writes with what the writers are told. -/
def transcript (r : Registry) : List Write → History
  | [] => []
  | w :: ws => (w, r.answer w) :: (r.next w).transcript ws

/-- The writes are told in order, the later ones by the registry that the earlier ones left. -/
theorem transcript_append (r : Registry) (ws vs : List Write) :
    r.transcript (ws ++ vs) = r.transcript ws ++ (r.after ws).transcript vs := by
  induction ws generalizing r with
  | nil => rfl
  | cons w ws ih => simp only [List.cons_append, transcript, ih, after_cons]

/-- So is one more write. -/
theorem transcript_append_singleton (r : Registry) (ws : List Write) (w : Write) :
    r.transcript (ws ++ [w]) = r.transcript ws ++ [(w, (r.after ws).answer w)] :=
  transcript_append r ws [w]

/-- The history of a log that a registry explains is its own. -/
theorem history_of_explains {r : Registry} {log : List Note} (h : r.Explains log) :
    Log.history log = r.transcript (Log.writes log) := by
  induction log generalizing r with
  | nil => rfl
  | cons n log ih =>
    cases n with
    | deed d =>
      cases d with
      | wrote w result =>
        -- The answer in the log is that of the registry at the time.
        obtain ⟨rfl, hlog⟩ := h
        have hwrites : Log.writes (.deed (.wrote w (r.answer w)) :: log) = w :: Log.writes log := rfl
        rw [hwrites, transcript, ← ih hlog]
        rfl
      | saw view => exact ih h.2
      | surveyed registry => exact ih h.2
    | _ => exact ih h

/-- An id that is not taken is that of no source. -/
theorem forall_id_ne_of_has_eq_false {r : Registry} {id : String} (h : r.has id = false) :
    ∀ s ∈ r.sources, s.id ≠ id := by
  simpa [has, find?] using h

/-- Each source meets its fate by a write where it stands, and a new source comes last. -/
theorem sources_next (r : Registry) (w : Write) :
    (r.next w).sources = r.sources.filterMap (History.fate · (w, r.answer w)) ++
      (History.enrolled? (w, r.answer w)).toList := by
  -- Only a write that was carried out touches a source, and each kind does so in its own way.
  cases w with
  | addSource id priority bag =>
    cases hid : r.has id with
    | true => simp [next, answer, apply, hid, Except.map, History.fate, History.enrolled?]
    | false =>
      -- The id is new, so the addition drops no source.
      have hkept : r.sources.filterMap
          (History.fate · (.addSource id priority bag, .ok true)) = r.sources := by
        refine (List.filterMap_congr fun s hs => ?_).trans List.filterMap_some
        simp [History.fate, forall_id_ne_of_has_eq_false hid s hs]
      simp [next, answer, apply, hid, Except.map, History.enrolled?, hkept]
  | removeSource id =>
    cases hid : r.has id with
    | true =>
      -- A removal leaves every source but the one of this id.
      have hdropped : r.sources.filterMap (History.fate · (.removeSource id, .ok true)) =
          r.sources.filter fun s => s.id != id := by
        rw [← List.filterMap_eq_filter]
        refine List.filterMap_congr fun s _ => ?_
        by_cases hs : s.id = id <;> simp [History.fate, Option.guard, hs]
      simp [next, answer, apply, hid, Except.map, History.enrolled?, hdropped]
    | false => simp [next, answer, apply, hid, Except.map, History.fate, History.enrolled?]
  | setPriority id priority =>
    cases hid : r.has id <;>
      simp [next, answer, apply, hid, Except.map, History.fate, History.enrolled?]
  | set path value =>
    cases hset : r.overrides.set? path value <;>
      simp [next, apply, hset, History.fate, History.enrolled?]

/-- Only a value that is set changes the overrides. -/
theorem overrides_next (r : Registry) (w : Write) :
    (r.next w).overrides = History.override r.overrides (w, r.answer w) := by
  cases w with
  | set path value =>
    cases hset : r.overrides.set? path value <;>
      simp [next, answer, apply, hset, Except.map, History.override]
  | addSource id priority bag => cases hid : r.has id <;> simp [next, apply, hid, History.override]
  | removeSource id => cases hid : r.has id <;> simp [next, apply, hid, History.override]
  | setPriority id priority => cases hid : r.has id <;> simp [next, apply, hid, History.override]

/-- The sources after writes, in the order in which they were added. -/
theorem sources_after (ws : List Write) :
    (empty.after ws).sources = (History.added 0 (empty.transcript ws)).map Prod.snd := by
  -- The last write is split off, since it acts on the sources that the others left.
  induction ws using List.reverseRecOn with
  | nil => rfl
  | append_singleton ws w ih =>
    rw [after_append, after_cons, after_nil, sources_next, ih, transcript_append_singleton,
      History.added_append_singleton, List.map_append, List.filterMap_map, List.map_filterMap,
      List.map_map]
    -- Positions take no part in what becomes of a source.
    congr 1
    · refine List.filterMap_congr fun a _ => ?_
      simp [Function.comp_def]
    · simp [Function.comp_def]

/-- The overrides after writes. -/
theorem overrides_after (ws : List Write) :
    (empty.after ws).overrides = History.overrides (empty.transcript ws) := by
  -- Likewise the value set last is written over the others.
  induction ws using List.reverseRecOn with
  | nil => rfl
  | append_singleton ws w ih =>
    rw [after_append, after_cons, after_nil, overrides_next, ih, transcript_append_singleton,
      History.overrides, History.overrides, List.foldl_append, List.foldl_cons, List.foldl_nil]

end Registry

/-! ## Configurations -/

namespace Thread

/-- The registry of a reachable configuration is that of its writes. -/
theorem Reachable.registry_eq {t : Thread} (h : t.Reachable) :
    t.config.registry = Registry.empty.after (Log.writes t.notes) := by
  obtain ⟨log, hreplays⟩ := h.replayed .start_empty
  have hnotes : t.notes = log := hreplays.notes
  rw [hnotes]
  exact hreplays.registry

/-- So is its history. -/
theorem Reachable.history_eq {t : Thread} (h : t.Reachable) :
    Log.history t.notes = Registry.empty.transcript (Log.writes t.notes) := by
  obtain ⟨log, hreplays⟩ := h.replayed .start_empty
  have hnotes : t.notes = log := hreplays.notes
  rw [hnotes]
  exact Registry.history_of_explains hreplays.explained

/-- At every moment the view and the sources of a configuration are those that its history makes:
the bags of the sources that are left, by priority and then by the position at which they were
added, with the values that were set on top. -/
theorem config_of_history {t : Thread} (h : t.Reachable) :
    t.config.merged =
        (Bag.mergeAll ((Log.history t.notes).sources.map Source.bag)).merge
          (Log.history t.notes).overrides ∧
      t.config.sources = (Log.history t.notes).sources.map fun s => (s.id, s.priority) := by
  rw [h.history_eq]
  -- The registry is that of the writes from the empty one on, and so are its order and overrides.
  have hordered := Registry.ordered_eq_insertionSort
    (History.pairwise_added 0 _) (Registry.sources_after (Log.writes t.notes))
  have hoverrides := Registry.overrides_after (Log.writes t.notes)
  constructor
  -- The stored view is the one merged from the registry.
  · rw [(h.coherent .start_empty).view, h.registry_eq, Registry.merged, hordered, hoverrides]
    rfl
  · rw [Config.sources, h.registry_eq, hordered]
    rfl

/-- A source that is removed and added again comes behind one of its priority, and nothing of its
former bag is left. -/
theorem config_of_history_readded :
    ∃ t : Thread, t.Reachable ∧ t.config.sources = [("b", 0), ("a", 0)] ∧
      t.config.merged.get? "x" = some (.int 3) ∧ t.config.merged.get? "y" = none := by
  have h₁ := (Reaches.refl : Reachable (start .empty)).perform 5
    (q := .write (.addSource "a" 0 (.ofList [("x", .int 1), ("y", .int 1)]))) rfl trivial
  have h₂ := h₁.perform 5 (q := .write (.addSource "b" 0 (.ofList [("x", .int 2)]))) rfl trivial
  have h₃ := h₂.perform 5 (q := .write (.removeSource "a")) rfl trivial
  have h := h₃.perform 5 (q := .write (.addSource "a" 0 (.ofList [("x", .int 3)]))) rfl trivial
  obtain ⟨hview, hsources⟩ := config_of_history h
  refine ⟨_, h, hsources.trans rfl, ?_, ?_⟩
  · rw [hview]
    rfl
  · rw [hview]
    rfl

end Thread
end LayeredConfig
