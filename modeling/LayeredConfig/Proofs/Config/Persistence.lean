import LayeredConfig.Proofs.Config.History
import LayeredConfig.Proofs.Config.Overrides

/-!
# How long a value that was set stays

A value that was set lies above every source, whatever the priority of the source.  So sources may
come, go and change places, and it is found all the same, until a value is set above it, below it or
in its place.  A value that is set anywhere else is written beside it.

## Key results

- `Registry.Pinned.get?`: what the overrides hold is found in the view
- `Registry.Pinned.next` and `Registry.Pinned.after`: what one write keeps, and what writes keep
- `Thread.set_persists`: what a set value is worth in a reachable configuration
-/

namespace LayeredConfig

/-- Whether a write leaves a path alone: it sets no value there, nor above or below.  A path that is
no path is never written. -/
def Write.Spares (p : Path) : Write → Prop
  | .set path _ => ∀ q ∈ Path.parse? path, q.Apart p
  | _ => True

instance (p : Path) : DecidablePred (Write.Spares p)
  | .set path _ => inferInstanceAs (Decidable (∀ q ∈ Path.parse? path, q.Apart p))
  | .addSource _ _ _ => instDecidableTrue
  | .removeSource _ => instDecidableTrue
  | .setPriority _ _ => instDecidableTrue

namespace Registry

/-- The overrides hold a value at a path. -/
def Pinned (r : Registry) (p : Path) (v : Value) : Prop := r.overrides.lookup p = some v

variable {r : Registry} {path : String} {p : Path} {v : Value}

/-- What is set is pinned. -/
theorem pinned_next_set (hp : Path.parse? path = some p) (r : Registry) (v : Value) :
    (r.next (.set path v)).Pinned p v := by
  rw [Pinned, next_set hp]
  exact Bag.lookup_write_self r.overrides p v

/-- What is pinned is found in the view, whatever the sources hold there or above. -/
theorem Pinned.get? (h : r.Pinned p v) (hv : v.isBag = false) (hp : Path.parse? path = some p) :
    r.merged.get? path = some v := by
  rw [Bag.get?_of_parse? hp, merged, Bag.lookup_merge_of_lookup h, Value.over_of_isBag_eq_false hv]

/-- A write that leaves the path alone keeps what is pinned there. -/
theorem Pinned.next (h : r.Pinned p v) {w : Write} (hw : w.Spares p) : (r.next w).Pinned p v := by
  cases w with
  | set path u =>
    cases hq : Path.parse? path with
    | none =>
      -- Nothing is written at a path that is no path.
      have hrefused : r.overrides.set? path u = none := by rw [Bag.set?, hq, Option.map_none]
      have hnext : r.next (.set path u) = r := by simp only [Registry.next, apply, hrefused]
      rw [hnext]
      exact h
    | some q =>
      rw [Pinned, next_set hq]
      exact (Bag.lookup_write_of_apart (hw q hq) u).trans h
  | addSource id priority bag =>
    rw [Pinned, overrides_next]
    exact h
  | removeSource id =>
    rw [Pinned, overrides_next]
    exact h
  | setPriority id priority =>
    rw [Pinned, overrides_next]
    exact h

/-- So do any number of them. -/
theorem Pinned.after (h : r.Pinned p v) {ws : List Write} (hws : ∀ w ∈ ws, w.Spares p) :
    (r.after ws).Pinned p v := by
  -- What is pinned is the invariant, carried through the writes.
  induction ws generalizing r with
  | nil => exact h
  | cons w ws ih =>
    exact ih (h.next (hws w List.mem_cons_self)) fun u hu => hws u (List.mem_cons_of_mem _ hu)

/-- Whoever looks meanwhile finds it as well. -/
theorem Pinned.saw (h : r.Pinned p v) (hv : v.isBag = false) (hp : Path.parse? path = some p)
    {log : List Note} (hlog : r.Explains log) (hws : ∀ w ∈ Log.writes log, w.Spares p) {view : Bag}
    (hview : .deed (.saw view) ∈ log) : view.get? path = some v := by
  obtain ⟨before, after, rfl⟩ := List.append_of_mem hview
  -- The view is that of the writes before the look.
  obtain ⟨-, hsaw, -⟩ := (explains_append _ _ _).mp hlog
  have hbefore : ∀ w ∈ Log.writes before, w.Spares p := by
    intro w hw
    refine hws w ?_
    rw [Log.writes_append]
    exact List.mem_append_left _ hw
  -- All of these writes spare the path, so the value is still pinned.
  rw [hsaw]
  exact (h.after hbefore).get? hv hp

end Registry

namespace Thread

/-- A value other than a bag that was set, from outside or by an observer, is found at its path at
every later moment, and whoever looks meanwhile finds it, as long as every write since leaves the
path alone, by whomever it is made and whether it fails or not. -/
theorem set_persists {t : Thread} (h : t.Reachable) {before after : List Note} {path : String}
    {p : Path} {v : Value} (hp : Path.parse? path = some p) (hv : v.isBag = false)
    (hset : t.notes = before ++ .deed (.wrote (.set path v) (.ok true)) :: after)
    (hspared : ∀ w ∈ Log.writes after, w.Spares p) :
    t.config.merged.get? path = some v ∧
      ∀ view, .deed (.saw view) ∈ after → view.get? path = some v := by
  -- The notes of the thread are a log that explains registry and views.
  obtain ⟨log, hreplays⟩ := h.replayed .start_empty
  have hlog : log = before ++ .deed (.wrote (.set path v) (.ok true)) :: after :=
    hreplays.notes.symm.trans hset
  have hexplained := hreplays.explained
  have hregistry := hreplays.registry
  rw [hlog, Registry.explains_append] at hexplained
  rw [hlog, Log.writes_append, Registry.after_append] at hregistry
  -- The value is pinned by its own write, and the writes since keep it.
  have hpinned := Registry.pinned_next_set hp
    ((start .empty).config.registry.after (Log.writes before)) v
  constructor
  · rw [(h.coherent .start_empty).view, hregistry]
    exact (hpinned.after hspared).get? hv hp
  · intro view hview
    exact hpinned.saw hv hp hexplained.2.2 hspared hview

/-- A source of the highest priority comes with a value above the one that was set, an observer
writes beside it, and a source of the same id is refused. -/
theorem set_persists_outranked :
    ∃ t : Thread, t.Reachable ∧
      t.config.sources = [("s", Int32.maxValue)] ∧
      (∃ s ∈ t.config.registry.sources, s.bag.get? "a" = some (.int 7)) ∧
      t.config.merged.get? "a.c" = some (.int 2) ∧
      t.config.merged.get? "a.b" = some (.int 1) := by
  have h₁ := (Reaches.refl : Reachable (start .empty)).perform 0
    (q := .observe "o" "x" fun _ =>
      .write (.set "a.c" (.int 2)) fun _ => .finish (.ok ())) rfl trivial
  have h₂ := h₁.perform 6 (q := .write (.set "a.b" (.int 1))) rfl trivial
  have h₃ := h₂.perform 20 (q := .write (.addSource "s" Int32.maxValue
    (.ofList [("a", .int 7), ("x", .int 1)]))) rfl trivial
  have h := h₃.perform 0 (q := .write (.addSource "s" 0 .nil)) rfl trivial
  have hp : Path.parse? "a.b" = some ⟨"a", ["b"]⟩ := rfl
  have hpersists := set_persists h hp rfl (show _ = [.event _] ++ _ from rfl) (by decide)
  exact ⟨_, h, rfl, ⟨_, List.mem_cons_self, rfl⟩, rfl, hpersists.1⟩

end Thread
end LayeredConfig
