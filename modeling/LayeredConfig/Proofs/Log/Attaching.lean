import LayeredConfig.Log.Logger
import LayeredConfig.Proofs.Factory.Ids
import LayeredConfig.Proofs.Factory.Series
import Mathlib.Data.List.Sort

/-!
# Attaching the streams that are defined

Streams are built one after the other, and each stays with its factory whatever becomes of those
behind it.  They are attached only once all of them are there, so a failure leaves the logger as it
was.

## Key results

- `Logger.attaches_attachConfigured`: what to attach the defined streams comes to
- `Logger.Attaches.ids_eq`: what is attached then to a logger that had no streams
-/

namespace LayeredConfig.Logger

variable {σ τ : Type} {l l' : Logger σ} {p p' : Factory τ (Stream σ) × τ}
  {built : List (String × Stream σ)}

/-- The calls of creators while the defined streams are built and attached. -/
def constructions (l : Logger σ) (p : Factory τ (Stream σ) × τ) : List (Attempt (Stream σ)) :=
  (attachConfigured (l, p.1.watched, ⟨p.2, []⟩)).state.2.2.attempts

/-- What to attach the defined streams comes to, and what it leaves: the logger, and the factory in
its surroundings. -/
inductive Attaches (l : Logger σ) (p : Factory τ (Stream σ) × τ) : Except Error Nat →
    Logger σ × Factory τ (Stream σ) × τ → List (Attempt (Stream σ)) → Prop
  /-- A stream could not be built when it had its turn, and for those behind it no creator was
  called.  Those before it are kept, but none is attached. -/
  | failed {built : List (String × Stream σ)} {calls : List (Attempt (Stream σ))}
      {p' : Factory τ (Stream σ) × τ} {id : String} {later : List String} {e : Error}
      (hids : p.1.ids p.2 = built.map Prod.fst ++ id :: later) (hgot : Factory.Gets p built calls p')
      (hfailed : (Factory.get id p').result = .error e)
      (hkept : ∀ i x, (i, x) ∈ built → (Factory.get id p').state.1.instances.find? i = some x)
      (hothers : ∀ i, i ∉ built.map Prod.fst →
        (Factory.get id p').state.1.instances.find? i = p.1.instances.find? i)
      (hcalls : ∀ a ∈ calls ++ Factory.attempts id p', a.id ∈ built.map Prod.fst ∨ a.id = id) :
      Attaches l p (.error e) (l, (Factory.get id p').state) (calls ++ Factory.attempts id p')
  /-- All were built, and they are attached as the factory keeps them. -/
  | done {built : List (String × Stream σ)} {calls : List (Attempt (Stream σ))}
      {p' : Factory τ (Stream σ) × τ} {l' : Logger σ}
      (hids : p.1.ids p.2 = built.map Prod.fst) (hgot : Factory.Gets p built calls p')
      (hattached : ∀ id ∈ p.1.ids p.2, ∃ stream,
        l'.streams.find? id = some stream ∧ p'.1.instances.find? id = some stream)
      (hothers : ∀ id, id ∉ p.1.ids p.2 → l'.streams.find? id = l.streams.find? id)
      (hlevel : l'.level = l.level) :
      Attaches l p (.ok (p.1.ids p.2).length) (l', p') calls

/-! ## Attaching streams -/

/-- Attach streams, one after the other. -/
def attachAll (l : Logger σ) (built : List (String × Stream σ)) : Logger σ :=
  built.foldl (fun l s => l.attach s.1 s.2) l

/-- To attach streams leaves the level as it is. -/
theorem level_attachAll (l : Logger σ) (built : List (String × Stream σ)) :
    (l.attachAll built).level = l.level := by
  induction built generalizing l with
  | nil => rfl
  | cons s rest ih => exact ih (l.attach s.1 s.2)

/-- Under other ids nothing is attached. -/
theorem find?_attachAll_of_not_mem {id : String} (h : id ∉ built.map Prod.fst) :
    (l.attachAll built).streams.find? id = l.streams.find? id := by
  induction built generalizing l with
  | nil => rfl
  | cons s rest ih =>
    rw [List.map_cons, List.mem_cons, not_or] at h
    exact (ih h.2).trans ((Entries.find?_insert _ _ _ _).trans (if_neg h.1))

/-- Of streams with different ids, each is attached. -/
theorem find?_attachAll_of_mem {id : String} {stream : Stream σ}
    (hnodup : (built.map Prod.fst).Nodup) (h : (id, stream) ∈ built) :
    (l.attachAll built).streams.find? id = some stream := by
  induction built generalizing l with
  | nil => exact nomatch h
  | cons s rest ih =>
    obtain ⟨hfirst, hrest⟩ := List.nodup_cons.mp hnodup
    rcases List.mem_cons.mp h with rfl | h
    · -- No stream behind this one takes its place.
      exact (find?_attachAll_of_not_mem hfirst).trans
        ((Entries.find?_insert _ _ _ _).trans (if_pos rfl))
    · exact ih hrest h

/-- The streams are got from the factory, and then attached if all of them were. -/
theorem attachConfigured_apply (l : Logger σ) (p : Factory τ (Stream σ) × τ) :
    (attachConfigured (l, p)).result =
        (Factory.getAll (p.1.ids p.2) p).result.map List.length ∧
      (attachConfigured (l, p)).state =
        (match (Factory.getAll (p.1.ids p.2) p).result with
          | .ok built => l.attachAll built
          | .error _ => l, (Factory.getAll (p.1.ids p.2) p).state) := by
  have hload : Factory.loadAll p = Factory.getAll (p.1.ids p.2) p := Act.current_bind _ p
  rw [attachConfigured, Act.result_bind, Act.state_bind, Act.within, hload]
  cases (Factory.getAll (p.1.ids p.2) p).result with
  | error e => exact ⟨rfl, rfl⟩
  | ok built => exact ⟨rfl, rfl⟩

/-! ## What it comes to -/

/-- The calls are those of getting the streams, since to attach them calls nobody. -/
theorem constructions_eq (l : Logger σ) (p : Factory τ (Stream σ) × τ) :
    constructions l p = Factory.called (Factory.gettingAll (p.1.ids p.2) p) := by
  have hwritten := (Factory.getAll_watching (p.1.ids p.2) p []).2
  rw [constructions, (attachConfigured_apply l (p.1.watched, ⟨p.2, []⟩)).2]
  exact congrArg (·.2.attempts) hwritten

/-- What to attach the defined streams comes to. -/
theorem attaches_attachConfigured (l : Logger σ) (p : Factory τ (Stream σ) × τ) :
    Attaches l p (attachConfigured (l, p)).result (attachConfigured (l, p)).state
      (constructions l p) := by
  have hcollects := Factory.collects_getAll (p.1.ids p.2) p
  obtain ⟨hresult, hstate⟩ := attachConfigured_apply l p
  rw [hresult, hstate, constructions_eq]
  have hnodup : (p.1.ids p.2).Nodup :=
    (Factory.pairwise_lt_ids p.1 p.2).imp fun hlt heq => absurd (heq ▸ hlt) (String.lt_irrefl _)
  generalize hids : p.1.ids p.2 = ids, (Factory.getAll (p.1.ids p.2) p).result = r,
    (Factory.getAll (p.1.ids p.2) p).state = q,
    Factory.called (Factory.gettingAll (p.1.ids p.2) p) = calls at hcollects hnodup ⊢
  cases hcollects with
  -- Every id was got, so every one of them is attached as the factory keeps it.
  | @all built _ _ hgot =>
    have hlength : built.length = (p.1.ids p.2).length := by rw [hids, List.length_map]
    rw [Except.map, hlength]
    refine .done hids hgot (fun id hid => ?_) (fun id hid => ?_) (level_attachAll l built)
    · rw [hids] at hid
      obtain ⟨s, hs, rfl⟩ := List.mem_map.mp hid
      exact ⟨s.2, find?_attachAll_of_mem hnodup hs, hgot.find?_of_mem hs⟩
    · rw [hids] at hid
      exact find?_attachAll_of_not_mem hid
  | @failed built calls p' id later e hgot hfailed =>
    -- What failed is not kept, so the factory is left as the streams before it left it.
    have hfactory : (Factory.get id p').state.1 = p'.1 := Factory.factory_of_get_error hfailed
    refine .failed hids hgot hfailed (fun i x hx => ?_) (fun i hi => ?_) fun a ha => ?_
    · rw [hfactory]
      exact hgot.find?_of_mem hx
    · rw [hfactory]
      exact hgot.find?_of_not_mem hi
    · exact (List.mem_append.mp ha).imp hgot.id_of_mem_calls Factory.id_of_mem_attempts

/-- To a logger without streams just those that are defined are attached. -/
theorem Attaches.ids_eq {n : Nat} {calls : List (Attempt (Stream σ))}
    (h : Attaches l p (.ok n) (l', p') calls) (hnone : l.streams = .nil) :
    l'.ids = p.1.ids p.2 ∧ n = l'.ids.length := by
  cases h with
  | done _ _ hattached hothers _ =>
    have hids : l'.ids = p.1.ids p.2 := by
      -- Both lists ascend, so it is enough that they have the same members.
      refine (Entries.pairwise_lt_keys l'.streams).eq_of_mem_iff
        (Factory.pairwise_lt_ids p.1 p.2) fun id => ?_
      rw [Entries.mem_keys_iff]
      by_cases hid : id ∈ p.1.ids p.2
      · obtain ⟨stream, hstream, -⟩ := hattached id hid
        simp [hid, hstream]
      · rw [hothers id hid, hnone]
        simp [hid, Entries.find?]
    exact ⟨hids, by rw [hids]⟩

/-- Creators that leave their surroundings alone leave them as they were at the start. -/
theorem Attaches.around_eq {n : Nat} {calls : List (Attempt (Stream σ))}
    (h : Attaches l p (.ok n) (l', p') calls) (hp : p.1.Respects Eq) : p'.2 = p.2 := by
  cases h with
  | done _ hgot => exact (hgot.respects Eq.refl Eq.trans hp).symm

end LayeredConfig.Logger
