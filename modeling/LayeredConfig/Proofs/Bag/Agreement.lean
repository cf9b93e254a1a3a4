import LayeredConfig.Config.Basic
import LayeredConfig.Proofs.Bag.Writes
import Mathlib.Data.List.Forall2

/-!
# Bags that agree on some keys

Layers are merged key by key, so views agree where all their layers do, whatever else these hold.
What is looked up below a key depends on this key alone.

## Key results

- `Bag.AgreeOn.get?`: bags that agree on a key hold the same below it
- `Bag.AgreeOn.merge` and `Bag.agreeOn_mergeAll`: merging never mixes keys
- `Registry.agreeOn_merged`: views agree where their sources do
-/

namespace LayeredConfig

/-! ## Paths below a key -/

namespace Path

/-- A text leads below a key, if it leads anywhere. -/
def Under (k text : String) : Prop := ∀ p, parse? text = some p → p.head = k

/-- A path stays below its own first key. -/
theorem under_of_parse? {text : String} {p : Path} (h : parse? text = some p) :
    Under p.head text := by
  intro q hq
  rw [Option.some.inj (h.symm.trans hq)]

/-- What is joined to a path stays below its first key. -/
theorem under_join {base : String} {p : Path} (h : parse? base = some p) (key : String) :
    Under p.head (join base key) := by
  intro q hq
  rw [parse?_join h, Option.map_eq_some_iff] at hq
  obtain ⟨r, -, rfl⟩ := hq
  rfl

end Path

/-! ## Bags -/

namespace Bag

/-- Two bags hold the same under each of the keys, or both hold nothing. -/
def AgreeOn (keys : List String) (b b' : Bag) : Prop := ∀ k ∈ keys, b.find? k = b'.find? k

variable {keys : List String} {k : String} {a a' b b' : Bag} {layers layers' : List Bag}

/-- A bag agrees with itself. -/
theorem AgreeOn.refl (keys : List String) (b : Bag) : AgreeOn keys b b := fun _ _ => rfl

/-- Two layers agree merged where they agree one by one. -/
theorem AgreeOn.merge (ha : AgreeOn keys a a') (hb : AgreeOn keys b b') :
    AgreeOn keys (a.merge b) (a'.merge b') := by
  intro k hk
  rw [find?_merge, find?_merge, ha k hk, hb k hk]

/-- Many layers that agree one by one agree merged on top of something. -/
theorem AgreeOn.foldl_merge (h : List.Forall₂ (AgreeOn keys) layers layers')
    (ha : AgreeOn keys a a') :
    AgreeOn keys (layers.foldl Bag.merge a) (layers'.foldl Bag.merge a') := by
  -- What is merged so far is the invariant.
  induction h generalizing a a' with
  | nil => exact ha
  | cons hfirst _ ih => exact ih (ha.merge hfirst)

/-- Any number of layers agree merged where they agree one by one. -/
theorem agreeOn_mergeAll (h : List.Forall₂ (AgreeOn keys) layers layers') :
    AgreeOn keys (mergeAll layers) (mergeAll layers') :=
  .foldl_merge h (.refl keys .nil)

/-- What is found below a key depends on this key alone. -/
theorem AgreeOn.get? (h : AgreeOn keys b b') (hk : k ∈ keys) {text : String}
    (hunder : Path.Under k text) : b.get? text = b'.get? text := by
  cases hparse : Path.parse? text with
  | none => simp only [Bag.get?, hparse, Option.bind_none]
  | some p =>
    -- The path begins with the key on which both agree.
    have hfind : b.find? p.head = b'.find? p.head := hunder p hparse ▸ h k hk
    rw [get?_of_parse? hparse, get?_of_parse? hparse]
    exact lookup_congr hfind

/-- So it is with bags. -/
theorem AgreeOn.bag? (h : AgreeOn keys b b') (hk : k ∈ keys) {text : String}
    (hunder : Path.Under k text) : b.bag? text = b'.bag? text := by
  rw [Bag.bag?, Bag.bag?, h.get? hk hunder]

theorem AgreeOn.string? (h : AgreeOn keys b b') (hk : k ∈ keys) {text : String}
    (hunder : Path.Under k text) : b.string? text = b'.string? text := by
  rw [Bag.string?, Bag.string?, h.get? hk hunder]

end Bag

/-! ## Sources -/

/-- Sources that rank alike and agree on the keys. -/
structure Source.Like (keys : List String) (s s' : Source) : Prop where
  id : s.id = s'.id
  priority : s.priority = s'.priority
  bag : s.bag.AgreeOn keys s'.bag

namespace Registry

variable {keys : List String} {s s' : Source} {l l' : List Source} {r r' : Registry}

/-- Sources that rank alike find the same place. -/
theorem forall₂_place (hs : s.Like keys s') (h : List.Forall₂ (Source.Like keys) l l') :
    List.Forall₂ (Source.Like keys) (place s l) (place s' l') := by
  induction h with
  | nil => exact .cons hs .nil
  | @cons t t' l l' ht hrest ih =>
    simp only [place, ht.priority, hs.priority]
    split
    · exact .cons ht ih
    · exact .cons hs (.cons ht hrest)

/-- Sources that rank alike come in the same order. -/
theorem forall₂_ordered (h : List.Forall₂ (Source.Like keys) r.sources r'.sources) :
    List.Forall₂ (Source.Like keys) r.ordered r'.ordered := by
  -- The sources are placed one after the other, among those placed so far.
  have hfold : ∀ {ss ss' l l' : List Source}, List.Forall₂ (Source.Like keys) ss ss' →
      List.Forall₂ (Source.Like keys) l l' → List.Forall₂ (Source.Like keys)
        (ss.foldl (fun ts s => place s ts) l) (ss'.foldl (fun ts s => place s ts) l') := by
    intro ss ss' l l' hss
    induction hss generalizing l l' with
    | nil => exact id
    | cons hs _ ih => exact fun hl => ih (forall₂_place hs hl)
  exact hfold h .nil

/-- Views agree where their sources do. -/
theorem agreeOn_merged (h : List.Forall₂ (Source.Like keys) r.sources r'.sources)
    (hoverrides : r.overrides.AgreeOn keys r'.overrides) : r.merged.AgreeOn keys r'.merged := by
  have hlayers : List.Forall₂ (Bag.AgreeOn keys) (r.ordered.map Source.bag)
      (r'.ordered.map Source.bag) := by
    rw [List.forall₂_map_left_iff, List.forall₂_map_right_iff]
    exact (forall₂_ordered h).imp fun _ _ hs => hs.bag
  exact (Bag.agreeOn_mergeAll hlayers).merge hoverrides

end Registry

/-- The merge order depends on ids and priorities alone. -/
theorem Config.sources_congr {keys : List String} {c c' : Config}
    (h : List.Forall₂ (Source.Like keys) c.registry.sources c'.registry.sources) :
    c.sources = c'.sources := by
  have hordered := Registry.forall₂_ordered h
  rw [sources, sources]
  generalize c.registry.ordered = l, c'.registry.ordered = l' at hordered
  induction hordered with
  | nil => rfl
  | cons hs _ ih => rw [List.map_cons, List.map_cons, ih, hs.id, hs.priority]

end LayeredConfig
