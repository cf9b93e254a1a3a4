import LayeredConfig.Proofs.Bag.Writes
import LayeredConfig.Proofs.Delivery.Trace

/-!
# Setting values

A value that is set goes to the overrides, and the view is made anew of the sources with the
overrides on top.  Mostly this is a write to the view itself.  It is not where the sources come up
from below: below a bag that is set, with which theirs is merged, and below a scalar among the
overrides that had hidden them and that the write makes give way.

## Key results

- `Registry.merged_next_set`: the view of a registry after a value is set
- `Thread.overridden`: the view of a reachable configuration after a value is set
-/

namespace LayeredConfig

namespace Registry

/-- What the sources make together, without the overrides. -/
def base (r : Registry) : Bag := Bag.mergeAll (r.ordered.map Source.bag)

/-- A value is set at any path that can be read. -/
theorem answer_set {path : String} {p : Path} (hp : Path.parse? path = some p) (r : Registry)
    (v : Value) : r.answer (.set path v) = .ok true := by
  simp only [answer, apply, Bag.set?_of_parse? hp]
  rfl

/-- A value is set in the overrides, and the sources have no part in it. -/
theorem next_set {path : String} {p : Path} (hp : Path.parse? path = some p) (r : Registry)
    (v : Value) :
    r.next (.set path v) = { r with overrides := r.overrides.write p v } := by
  simp only [next, apply, Bag.set?_of_parse? hp]

/-- The sources stay as they are, and only the overrides are written. -/
theorem merged_next_set {path : String} {p : Path} (hp : Path.parse? path = some p) (r : Registry)
    (v : Value) : (r.next (.set path v)).merged = r.base.merge (r.overrides.write p v) := by
  rw [next_set hp]
  rfl

end Registry

namespace Config

/-- The place at which a value that is set takes hold among the overrides, and what comes there. -/
def foothold (c : Config) (p : Path) (v : Value) : Path × Value :=
  c.registry.overrides.foothold p v

/-- What comes to stand there in the view: a bag is merged with the one that the sources hold. -/
def uncovered (c : Config) (p : Path) (v : Value) : Value :=
  Value.over (c.registry.base.lookup (c.foothold p v).1) (c.foothold p v).2

/-- The view `after` is what a value `v` that is set at the path `p` makes of the view of a
configuration. -/
structure Overridden (c : Config) (path : String) (p : Path) (v : Value) (after : Bag) : Prop where
  view : after = c.merged.write (c.foothold p v).1 (c.uncovered p v)
  /-- It is a write to the view itself exactly if nothing of the sources comes up. -/
  direct : c.merged.set? path v = some after ↔ c.uncovered p v = (c.foothold p v).2
  /-- So it is for whatever is no bag if no override on the way gives way. -/
  plain : v.isBag = false → c.registry.overrides.blocks p = false →
    c.merged.set? path v = some after
  /-- What was set is found, a bag together with the bag that the sources hold there. -/
  held : after.get? path = some (Value.over (c.registry.base.get? path) v)
  /-- Elsewhere nothing changes, save behind an override that gave way. -/
  elsewhere : ∀ {text : String} {q : Path}, Path.parse? text = some q → p.Apart q →
    after.get? text =
      if (c.foothold p v).1.IsPrefixOf q then c.registry.base.get? text else c.merged.get? text

/-- What `Overridden` tells holds wherever the view is the merged registry. -/
theorem overridden_merge_write {c : Config} (hview : c.merged = c.registry.merged) {path : String}
    {p : Path} (hp : Path.parse? path = some p) (v : Value) :
    Overridden c path p v (c.registry.base.merge (c.registry.overrides.write p v)) := by
  have hmerged : c.merged = c.registry.base.merge c.registry.overrides := hview
  -- A write below the merge is one above it, at the foothold and with what comes up there.
  have hwrite : c.registry.base.merge (c.registry.overrides.write p v) =
      c.merged.write (c.foothold p v).1 (c.uncovered p v) := by
    rw [hmerged]
    exact Bag.merge_write _ _ p v
  -- The view itself, written at the path, is written at the foothold as well.
  have hdirect : c.merged.set? path v =
      some (c.merged.write (c.foothold p v).1 (c.foothold p v).2) := by
    rw [Bag.set?_of_parse? hp, hmerged]
    exact congrArg some (Bag.write_foothold _ _ p v).symm
  exact {
    view := hwrite
    direct := by rw [hdirect, hwrite, Option.some_inj, Bag.write_inj, eq_comm]
    plain := by
      intro hv hblocks
      have hfoothold : c.foothold p v = (p, v) := Bag.foothold_of_blocks_eq_false hblocks v
      -- No override gives way, so the foothold is the path, and what is no bag is merged with
      -- nothing.
      rw [hdirect, hwrite, uncovered, hfoothold, Value.over_of_isBag_eq_false hv]
    held := by
      rw [Bag.get?_of_parse? hp, Bag.get?_of_parse? hp,
        Bag.lookup_merge_of_lookup (Bag.lookup_write_self _ p v)]
    elsewhere := by
      intro text q hq hapart
      rw [Bag.get?_of_parse? hq, Bag.get?_of_parse? hq, Bag.get?_of_parse? hq, hmerged]
      exact Bag.lookup_merge_write_of_apart _ _ hapart v }

/-- A value that is set without a word from any observer is all that a whole write changes. -/
theorem merged_write_of_writes_eq {c : Config} (hview : c.merged = c.registry.merged) {w : Write}
    (h : Traced c w (Config.write w c)) (hwrites : Log.writes (Config.write w c).notes = [w]) :
    (Config.write w c).state.merged = (Config.enact w c).state.merged := by
  -- The whole write replays its log, and that holds the one write.
  rw [h.view, h.registry, hwrites, Registry.after_cons, Registry.after_nil, state_enact hview]

end Config

namespace Thread

/-- A value that is set in a reachable configuration, from outside or by an observer, is written
over the sources, as `Config.Overridden` has it.  The same view is there at the end of a whole write
if no observer writes. -/
theorem overridden {t : Thread} (h : t.Reachable) {path : String} {p : Path}
    (hp : Path.parse? path = some p) (v : Value) :
    (Config.enact (.set path v) t.config).result = .ok true ∧
      Config.Overridden t.config path p v (Config.enact (.set path v) t.config).state.merged ∧
      (t.stack = [] → t.config.Settles (.set path v) →
        Log.writes (Config.write (.set path v) t.config).notes = [.set path v] →
        (Config.write (.set path v) t.config).state.merged =
          (Config.enact (.set path v) t.config).state.merged) := by
  have hcoherent := h.coherent .start_empty
  refine ⟨?_, ?_, ?_⟩
  · rw [Config.result_enact, Registry.answer_set hp]
  · rw [Config.state_enact hcoherent.view, Registry.merged_next_set hp]
    exact Config.overridden_merge_write hcoherent.view hp v
  · intro hidle hends hwrites
    -- Only from rest can the log of a whole write be told.
    have htraced := Config.traced_of_settles (hcoherent.start_config hidle) hends
    exact Config.merged_write_of_writes_eq hcoherent.view htraced hwrites

/-- A value that is set beside one of a source. -/
theorem overridden_beside :
    ∃ t : Thread, t.Reachable ∧ t.config.merged.get? "x.y" = some (.int 1) ∧
      ∃ after, t.config.merged.set? "x.z" (.int 2) = some after ∧
        after.get? "x.y" = some (.int 1) ∧ after.get? "x.z" = some (.int 2) ∧
        (Config.write (.set "x.z" (.int 2)) t.config).state.merged = after := by
  have h := (Reaches.refl : Reachable (start .empty)).perform 5
    (q := .write (.addSource "a" 0 (.ofList [("x", .bag (.ofList [("y", .int 1)]))]))) rfl trivial
  have hp : Path.parse? "x.z" = some ⟨"x", ["z"]⟩ := rfl
  have hq : Path.parse? "x.y" = some ⟨"x", ["y"]⟩ := rfl
  obtain ⟨-, hover, hwhole⟩ := overridden h hp (.int 2)
  refine ⟨_, h, rfl, _, hover.plain rfl rfl, ?_, hover.held, hwhole rfl ⟨5, rfl⟩ ?_⟩
  · rw [hover.elsewhere hq (by decide)]
    rfl
  · rw [Config.write_of_stack_eq_nil (n := 5) rfl]
    rfl

/-- A bag that is set is merged with what the sources hold there, and a value that is set below a
scalar among the overrides brings back what the scalar had hidden.  A write to the view itself would
do neither. -/
theorem set_uncovers :
    ∃ t : Thread, t.Reachable ∧
      (∃ after, t.config.merged.set? "x" (.bag (.ofList [("z", .int 2)])) = some after ∧
        after.get? "x" = some (.bag (.ofList [("z", .int 2)])) ∧
        (Config.enact (.set "x" (.bag (.ofList [("z", .int 2)]))) t.config).state.merged.get? "x" =
          some (.bag (.ofList [("y", .int 1), ("z", .int 2)]))) ∧
      t.config.merged.get? "u.y" = none ∧
      ∃ after, t.config.merged.set? "u.z" (.int 2) = some after ∧
        after.get? "u.y" = none ∧
        (Config.enact (.set "u.z" (.int 2)) t.config).state.merged.get? "u.y" = some (.int 1) := by
  have h₁ := (Reaches.refl : Reachable (start .empty)).perform 5
    (q := .write (.addSource "a" 0 (.ofList [("u", .bag (.ofList [("y", .int 1)])),
      ("x", .bag (.ofList [("y", .int 1)]))]))) rfl trivial
  have h := h₁.perform 5 (q := .write (.set "u" .null)) rfl trivial
  exact ⟨_, h, ⟨_, rfl, rfl, rfl⟩, rfl, _, rfl, rfl, rfl⟩

end Thread
end LayeredConfig
