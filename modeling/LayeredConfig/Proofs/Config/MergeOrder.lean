import LayeredConfig.Config.Registry
import Mathlib.Data.List.Induction
import Mathlib.Data.List.Sort

/-!
# Merge order

Sources are merged by ascending priority, and those of one priority in the order in which they were
added.  Here the order is that of sources with the positions at which they were added, so it does
not depend on how the sources happen to be stored.

## Key results

- `Registry.ordered_eq_insertionSort`: the merge order is the sorted order
-/

namespace LayeredConfig

/-- Whether a source comes before another in merge order, or is it.  Each stands beside the position
at which it was added. -/
def Precedes (a b : Nat × Source) : Prop :=
  a.2.priority < b.2.priority ∨ a.2.priority = b.2.priority ∧ a.1 ≤ b.1

namespace Precedes

instance : DecidableRel Precedes := fun a b =>
  inferInstanceAs (Decidable (a.2.priority < b.2.priority ∨ a.2.priority = b.2.priority ∧ a.1 ≤ b.1))

/-- Priorities compare as the integers that they denote. -/
theorem iff_toInt {a b : Nat × Source} :
    Precedes a b ↔ a.2.priority.toInt < b.2.priority.toInt ∨
      a.2.priority.toInt = b.2.priority.toInt ∧ a.1 ≤ b.1 := by
  rw [Precedes, Int32.lt_iff_toInt_lt, Int32.toInt_inj]

instance : Std.Total Precedes where
  total a b := by
    rw [iff_toInt, iff_toInt]
    omega

instance : IsTrans (Nat × Source) Precedes where
  trans a b c hab hbc := by
    rw [iff_toInt] at hab hbc ⊢
    omega

/-- Sources of one position are the same in a list that was added one after the other. -/
theorem antisymm {l : List (Nat × Source)} (hpos : l.Pairwise (·.1 < ·.1)) {a b : Nat × Source}
    (ha : a ∈ l) (hb : b ∈ l) (hab : Precedes a b) (hba : Precedes b a) : a = b := by
  have hnodup : (l.map Prod.fst).Nodup :=
    List.pairwise_map.mpr (hpos.imp fun h => Nat.ne_of_lt h)
  -- Each comes before the other, so their priorities agree and so do their positions.
  have heq : a.1 = b.1 := by
    rw [iff_toInt] at hab hba
    omega
  exact List.inj_on_of_nodup_map hnodup ha hb heq

end Precedes

namespace Registry

/-- A source that was added after all others is placed as `Precedes` has it. -/
theorem place_map_snd {added : List (Nat × Source)} {a : Nat × Source}
    (h : ∀ b ∈ added, b.1 < a.1) :
    place a.2 (added.map Prod.snd) = (added.orderedInsert Precedes a).map Prod.snd := by
  induction added with
  | nil => rfl
  | cons b added ih =>
    have hb : b.1 < a.1 := h b List.mem_cons_self
    -- The new one was added last, so between equals it is the later one.
    have hiff : ¬ Precedes a b ↔ b.2.priority ≤ a.2.priority := by
      rw [Precedes.iff_toInt, Int32.le_iff_toInt_le]
      omega
    rw [List.map_cons, place, List.orderedInsert_cons]
    by_cases hle : b.2.priority ≤ a.2.priority
    · rw [if_pos hle, if_neg (hiff.mpr hle), List.map_cons,
        ih fun c hc => h c (List.mem_cons_of_mem _ hc)]
    · rw [if_neg hle, if_pos (Decidable.not_not.mp fun hn => hle (hiff.mp hn))]
      rfl

/-- The merge order is the sorted order, whatever the positions at which the sources were added one
after the other. -/
theorem ordered_eq_insertionSort {r : Registry} {added : List (Nat × Source)}
    (hpos : added.Pairwise (·.1 < ·.1)) (hsources : r.sources = added.map Prod.snd) :
    r.ordered = (added.insertionSort Precedes).map Prod.snd := by
  rw [ordered, hsources]
  clear hsources
  -- Sources are added at the end, so the induction peels the last one off.
  induction added using List.reverseRecOn with
  | nil => rfl
  | append_singleton added a ih =>
    obtain ⟨hadded, -, hlast⟩ := List.pairwise_append.mp hpos
    have hbelow : ∀ b ∈ added.insertionSort Precedes, b.1 < a.1 := by
      intro b hb
      exact hlast b ((List.mem_insertionSort Precedes).mp hb) a List.mem_cons_self
    -- Both lists are sorted and have the same members.
    have hperm : ((added.insertionSort Precedes).orderedInsert Precedes a).Perm
        ((added ++ [a]).insertionSort Precedes) :=
      calc (added.insertionSort Precedes).orderedInsert Precedes a
        List.Perm _ (a :: added.insertionSort Precedes) := List.perm_orderedInsert _ _ _
        List.Perm _ (a :: added) := (List.perm_insertionSort _ _).cons a
        List.Perm _ (added ++ [a]) := (List.perm_append_singleton a added).symm
        List.Perm _ ((added ++ [a]).insertionSort Precedes) := (List.perm_insertionSort _ _).symm
    have hsorted : (added.insertionSort Precedes).orderedInsert Precedes a =
        (added ++ [a]).insertionSort Precedes := by
      refine List.Perm.eq_of_pairwise ?_ ((List.pairwise_insertionSort _ _).orderedInsert _ _)
        (List.pairwise_insertionSort _ _) hperm
      intro b c hb hc
      exact Precedes.antisymm hpos ((hperm.trans (List.perm_insertionSort _ _)).mem_iff.mp hb)
        ((List.mem_insertionSort Precedes).mp hc)
    rw [List.map_append, List.foldl_append, ih hadded]
    simp only [List.map_cons, List.map_nil, List.foldl_cons, List.foldl_nil]
    rw [place_map_snd hbelow, hsorted]

/-- To place a source is to add it, wherever it comes. -/
theorem mem_place {a s : Source} {l : List Source} : a ∈ place s l ↔ a = s ∨ a ∈ l := by
  induction l with
  | nil => simp [place]
  | cons t l ih =>
    rw [place]
    split
    · rw [List.mem_cons, ih, List.mem_cons, or_left_comm]
    · rw [List.mem_cons]

/-- The merge order lists the sources. -/
theorem mem_ordered {r : Registry} {s : Source} : s ∈ r.ordered ↔ s ∈ r.sources := by
  rw [ordered]
  induction r.sources using List.reverseRecOn with
  | nil => rfl
  | append_singleton l t ih =>
    rw [List.foldl_append, List.foldl_cons, List.foldl_nil, mem_place, ih, List.mem_append,
      List.mem_singleton, or_comm]

end Registry
end LayeredConfig
