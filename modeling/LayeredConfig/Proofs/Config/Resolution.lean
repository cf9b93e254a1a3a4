import LayeredConfig.Proofs.Bag.Layers
import LayeredConfig.Proofs.Delivery.Reach

/-!
# Lookups in configurations

The bags of the sources in merge order are layers, and the overrides are one more on top.  A lookup
in the view is decided by these layers, path by path.

## Key results

- `Registry.merged_eq_mergeAll`: the view is that of the layers
- `Thread.get?_eq_resolve`: lookups in reachable configurations
-/

namespace LayeredConfig

namespace Registry

/-- The bags of the sources in merge order, and the overrides.  The merge order lists all sources
(`Registry.mem_ordered`) by ascending priority, and those of one priority as they were registered
(`Registry.ordered_eq_insertionSort`). -/
def layers (r : Registry) : List Bag := r.ordered.map Source.bag ++ [r.overrides]

/-- The overrides are merged last, as one more layer. -/
theorem merged_eq_mergeAll (r : Registry) : r.merged = Bag.mergeAll r.layers := by
  rw [merged, layers, Bag.mergeAll_append_singleton]

end Registry

namespace Thread

/-- The value at a path of a reachable configuration is the one on which its layers agree. -/
theorem get?_eq_resolve {t : Thread} (h : t.Reachable) {path : String} {p : Path}
    (hp : Path.parse? path = some p) :
    t.config.merged.get? path = Layers.resolve t.config.registry.layers p := by
  -- In a reachable configuration the stored view is the merged registry.
  have hview := (h.coherent .start_empty).view
  rw [hview, Registry.merged_eq_mergeAll, Bag.get?_of_parse? hp, Layers.lookup_mergeAll]

/-- A scalar hides the bag below it, and a bag above the scalar stands alone.  Of two sources the
one of greater priority decides, though it was registered first, and their bags are merged. -/
theorem get?_eq_resolve_hidden :
    ∃ t : Thread, t.Reachable ∧ t.config.merged.get? "x.y" = none ∧
      t.config.merged.get? "x" = some (.bag (.ofList [("z", .int 2)])) ∧
      t.config.merged.get? "v.q" = some (.int 2) ∧
      t.config.merged.get? "v" = some (.bag (.ofList [("p", .int 1), ("q", .int 2)])) := by
  have h₁ := (Reaches.refl : Reachable (start .empty)).perform 5
    (q := .write (.addSource "b" 1 (.ofList [("v", .bag (.ofList [("q", .int 2)])), ("x", .null)])))
    rfl trivial
  have h₂ := h₁.perform 5
    (q := .write (.addSource "a" 0 (.ofList [("v", .bag (.ofList [("p", .int 1), ("q", .int 1)])),
      ("x", .bag (.ofList [("y", .int 1)]))]))) rfl trivial
  have h := h₂.perform 5 (q := .write (.set "x.z" (.int 2))) rfl trivial
  -- Each lookup is decided by the layers, which are then gone through one by one.
  refine ⟨_, h, ?_, ?_, ?_, ?_⟩
  · rw [get?_eq_resolve h (p := ⟨"x", ["y"]⟩) rfl]
    rfl
  · rw [get?_eq_resolve h (p := ⟨"x", []⟩) rfl]
    rfl
  · rw [get?_eq_resolve h (p := ⟨"v", ["q"]⟩) rfl]
    rfl
  · rw [get?_eq_resolve h (p := ⟨"v", []⟩) rfl]
    rfl

end Thread
end LayeredConfig
