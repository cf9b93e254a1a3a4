import LayeredConfig.Proofs.Bag.Lookup
import Mathlib.Data.List.Induction

/-!
# Layers

A path in many bags laid over each other is decided layer by layer: what the last layer holds that
is not silent stands, unless it is a bag, which is merged with the bags in the layers below it, down
to the last one that holds something else there or blocks the path.

## Key results

- `Layers.lookup_mergeAll`: the value at a path of merged layers
- `Layers.resolve_insert_silent`: a silent layer decides nothing
-/

namespace LayeredConfig

namespace Bag

/-- The bag at a path, if there is one. -/
def bagAt? (b : Bag) (p : Path) : Option Bag := (b.lookup p).bind Value.asBag?

/-- Whether a layer says nothing about a path. -/
def silent (b : Bag) (p : Path) : Bool := !b.blocks p && (b.lookup p).isNone

/-- Whether a layer hides at a path what is below it: it blocks the path, or what it holds there is
no bag. -/
def stops (b : Bag) (p : Path) : Bool := b.blocks p || (b.lookup p).any fun v => !v.isBag

end Bag

namespace Layers

/-- The bags at a path in the layers after the last that stops, the lowest first. -/
def bagsAbove (layers : List Bag) (p : Path) : List Bag :=
  (layers.reverse.takeWhile fun b => !b.stops p).reverse.filterMap (·.bagAt? p)

/-- The value at a path that layers agree on. -/
def resolve (layers : List Bag) (p : Path) : Option Value :=
  match (layers.filter fun b => !b.silent p).getLast? with
  | none => none
  | some top =>
    if top.blocks p then none
    else match top.lookup p with
      | some (.bag _) => some (.bag (Bag.mergeAll (bagsAbove layers p)))
      | held => held

variable (layers : List Bag) (top : Bag) (p : Path)

/-- A layer on top hides the bags below if it stops there, and else adds its own. -/
theorem bagsAbove_append_singleton :
    bagsAbove (layers ++ [top]) p =
      if top.stops p then [] else bagsAbove layers p ++ (top.bagAt? p).toList := by
  cases hs : top.stops p with
  | true => simp [bagsAbove, hs]
  | false => cases hb : top.bagAt? p <;> simp [bagsAbove, hs, hb]

/-- A layer on top decides, unless it is silent. -/
theorem resolve_append_singleton :
    resolve (layers ++ [top]) p =
      if top.silent p then resolve layers p
      else if top.blocks p then none
      else match top.lookup p with
        | some (.bag u) => some (.bag ((Bag.mergeAll (bagsAbove layers p)).merge u))
        | held => held := by
  -- The last layer that speaks is the one on top, unless that is silent.
  cases hsilent : top.silent p with
  | true =>
    have hbags : bagsAbove (layers ++ [top]) p = bagsAbove layers p := by
      simp only [Bag.silent, Bool.and_eq_true, Bool.not_eq_true', Option.isNone_iff_eq_none]
        at hsilent
      simp [bagsAbove_append_singleton, Bag.stops, Bag.bagAt?, hsilent]
    simp [resolve, hsilent, hbags]
  | false =>
    cases hblocks : top.blocks p with
    | true => simp [resolve, hsilent, hblocks]
    | false =>
      simp only [resolve, List.filter_append, hsilent, List.filter_cons, Bool.not_false, if_true,
        List.filter_nil, List.getLast?_append, List.getLast?_singleton, Option.some_or, hblocks,
        Bool.false_eq_true, if_false]
      split
      · rename_i u hu
        -- A bag stops nothing, so the bags below it are those below the top.
        have hstops : top.stops p = false := by simp [Bag.stops, hblocks, hu]
        have hbag : top.bagAt? p = some u := by simp [Bag.bagAt?, hu]
        simp [bagsAbove_append_singleton, hstops, hbag, Bag.mergeAll_append_singleton]
      · rfl

/-- Layers agree on a bag exactly if there is one above the last stop. -/
theorem bind_resolve_asBag? :
    (resolve layers p).bind Value.asBag? =
      if bagsAbove layers p = [] then none else some (Bag.mergeAll (bagsAbove layers p)) := by
  -- The layer on top is peeled off, since it decides first.
  induction layers using List.reverseRecOn with
  | nil => rfl
  | append_singleton layers top ih =>
    rw [resolve_append_singleton, bagsAbove_append_singleton]
    cases hblocks : top.blocks p with
    | true => simp [Bag.silent, Bag.stops, hblocks]
    | false =>
      cases hheld : top.lookup p with
      -- A silent layer neither stops nor adds a bag.
      | none => simpa [Bag.silent, Bag.stops, Bag.bagAt?, hblocks, hheld] using ih
      | some v =>
        cases v with
        | bag u =>
          simp [Bag.silent, Bag.stops, Bag.bagAt?, hblocks, hheld, Bag.mergeAll_append_singleton]
        | _ => simp [Bag.silent, Bag.stops, hblocks, hheld, Value.isBag, Value.asBag?]

/-- The value at a path of merged layers is the one that they agree on. -/
theorem lookup_mergeAll : (Bag.mergeAll layers).lookup p = resolve layers p := by
  -- Merging lays the last layer on top, and so the induction takes it off again.
  induction layers using List.reverseRecOn with
  | nil =>
    obtain ⟨k, tail⟩ := p
    cases tail with
    | nil => rfl
    | cons n tail => rfl
  | append_singleton layers top ih =>
    rw [Bag.mergeAll_append_singleton, Bag.lookup_merge, resolve_append_singleton, ih]
    cases hblocks : top.blocks p with
    | true => simp [Bag.silent, hblocks]
    | false =>
      cases hheld : top.lookup p with
      | none => simp [Bag.silent, hblocks, hheld]
      | some v =>
        cases v with
        | bag u =>
          -- A bag is merged with those above the last stop, if there are any.
          simp only [Bag.silent, hblocks, hheld, Value.over_bag, bind_resolve_asBag?]
          by_cases hnone : bagsAbove layers p = []
          · simp [hnone, Bag.mergeAll]
          · simp [hnone]
        | _ => simp [Bag.silent, hblocks, hheld, Value.over]

/-! ## Silent layers -/

variable {layer : Bag} {p : Path}

/-- A silent layer has no bag and hides none. -/
theorem bagsAbove_insert_silent (lower upper : List Bag) (h : layer.silent p = true) :
    bagsAbove (lower ++ layer :: upper) p = bagsAbove (lower ++ upper) p := by
  obtain ⟨hblocks, hheld⟩ : layer.blocks p = false ∧ layer.lookup p = none := by
    simpa [Bag.silent] using h
  induction upper using List.reverseRecOn with
  | nil => simp [bagsAbove_append_singleton, Bag.stops, Bag.bagAt?, hblocks, hheld]
  | append_singleton upper top ih =>
    rw [← List.cons_append, ← List.append_assoc, ← List.append_assoc, bagsAbove_append_singleton,
      bagsAbove_append_singleton, ih]

/-- A silent layer decides nothing, wherever it lies. -/
theorem resolve_insert_silent (lower upper : List Bag) (h : layer.silent p = true) :
    resolve (lower ++ layer :: upper) p = resolve (lower ++ upper) p := by
  induction upper using List.reverseRecOn with
  | nil => simp [resolve_append_singleton, h]
  | append_singleton upper top ih =>
    rw [← List.cons_append, ← List.append_assoc, ← List.append_assoc, resolve_append_singleton,
      resolve_append_singleton, ih, bagsAbove_insert_silent lower upper h]

end Layers
end LayeredConfig
