import LayeredConfig.Proofs.Factory.Fresh
import LayeredConfig.Proofs.Factory.Keeping

/-!
# Resources one after the other

Resources are got one after the other, up to the first that is not to be had.  Those before it stay
with the factory, and for those behind it nobody is called.

## Key results

- `Factory.collects_getAll`: what it comes to, and which creators are called
- `Factory.Gets.find?_of_mem` and `Factory.Gets.find?_of_forall_ne`: what the factory keeps then
-/

namespace LayeredConfig.Factory

variable {σ ι : Type} {p p' : Factory σ ι × σ} {id : String} {x : ι}
  {built : List (String × ι)} {calls : List (Attempt ι)}

/-- Resources that are got one after the other, with the calls of creators on the way. -/
inductive Gets :
    Factory σ ι × σ → List (String × ι) → List (Attempt ι) → Factory σ ι × σ → Prop
  | done (p : Factory σ ι × σ) : Gets p [] [] p
  | next {p p' : Factory σ ι × σ} {id : String} {x : ι} {built : List (String × ι)}
      {calls : List (Attempt ι)} (hget : (get id p).result = .ok x)
      (hrest : Gets (get id p).state built calls p') :
      Gets p ((id, x) :: built) (attempts id p ++ calls) p'

/-- To get resources ends with the last of them, or with the first that is not to be had. -/
inductive Collects (p : Factory σ ι × σ) : List String → Except Error (List (String × ι)) →
    Factory σ ι × σ → List (Attempt ι) → Prop
  | all {built : List (String × ι)} {calls : List (Attempt ι)} {p' : Factory σ ι × σ}
      (hgot : Gets p built calls p') : Collects p (built.map Prod.fst) (.ok built) p' calls
  | failed {built : List (String × ι)} {calls : List (Attempt ι)} {p' : Factory σ ι × σ}
      {id : String} {later : List String} {e : Error} (hgot : Gets p built calls p')
      (hfailed : (get id p').result = .error e) :
      Collects p (built.map Prod.fst ++ id :: later) (.error e) (get id p').state
        (calls ++ attempts id p')

/-! ## What the factory keeps -/

/-- What was kept is kept still. -/
theorem Gets.find?_of_kept (h : Gets p built calls p') {i : String}
    (hkept : p.1.instances.find? i = some x) : p'.1.instances.find? i = some x := by
  induction h with
  | done => exact hkept
  | next _ _ ih => exact ih (find?_get_of_kept hkept)

/-- All that was got is kept. -/
theorem Gets.find?_of_mem (h : Gets p built calls p') (hmem : (id, x) ∈ built) :
    p'.1.instances.find? id = some x := by
  induction h with
  | done => exact nomatch hmem
  | next hget hrest ih =>
    rcases List.mem_cons.mp hmem with heq | hmem
    -- It was kept when it was got, and the later ones leave it there.
    · obtain ⟨rfl, rfl⟩ := Prod.mk.inj heq
      exact hrest.find?_of_kept (find?_of_get_ok hget)
    · exact ih hmem

/-- Nothing else is kept in addition. -/
theorem Gets.find?_of_not_mem (h : Gets p built calls p') {i : String}
    (hi : i ∉ built.map Prod.fst) : p'.1.instances.find? i = p.1.instances.find? i := by
  induction h with
  | done => rfl
  | next _ _ ih =>
    rw [List.map_cons, List.mem_cons, not_or] at hi
    exact (ih hi.2).trans (find?_get_of_ne hi.1)

/-! ## Who is called -/

/-- Creators are called only for the resource that is asked for. -/
theorem id_of_mem_attempts {a : Attempt ι} (h : a ∈ attempts id p) : a.id = id := by
  obtain ⟨f, s⟩ := p
  rw [attempts_eq_due, due] at h
  -- At most one call is due, and it is due for this id.
  cases hkept : f.instances.find? id with
  | some x => simp [hkept] at h
  | none =>
    cases hc : f.commission id s with
    | error e => simp [hkept, hc] at h
    | ok c =>
      simp only [hkept, hc, List.mem_singleton] at h
      rw [h]

/-- Creators are called only for the resources that were got. -/
theorem Gets.id_of_mem_calls (h : Gets p built calls p') {a : Attempt ι} (ha : a ∈ calls) :
    a.id ∈ built.map Prod.fst := by
  induction h with
  | done => exact nomatch ha
  | next _ _ ih =>
    rcases List.mem_append.mp ha with ha | ha
    · exact List.mem_cons.mpr (.inl (id_of_mem_attempts ha))
    · exact List.mem_cons_of_mem _ (ih ha)

/-- What the creators do to the surroundings in turn, they do on the whole. -/
theorem Gets.respects {R : σ → σ → Prop} (hrefl : ∀ s, R s s)
    (htrans : ∀ {s t u}, R s t → R t u → R s u) (h : Gets p built calls p')
    (hp : p.1.Respects R) : R p.2 p'.2 := by
  induction h with
  | done p => exact hrefl p.2
  | @next p _ id _ _ _ _ _ ih =>
    obtain ⟨f, s⟩ := p
    -- Getting never replaces creators, so the later ones respect the relation as well.
    have hrest : (get id (f, s)).state.1.Respects R := by
      obtain ⟨m, hm⟩ := factory_get_eq_keeping f s id
      rw [hm]
      exact hp
    exact htrans (hp.get hrefl id s) (ih hrest)

/-! ## Getting all -/

/-- A resource that is there comes before the others. -/
theorem Collects.next {ids : List String} {r : Except Error (List (String × ι))}
    (hget : (get id p).result = .ok x) (hrest : Collects (get id p).state ids r p' calls) :
    Collects p (id :: ids) (r.map ((id, x) :: ·)) p' (attempts id p ++ calls) := by
  cases hrest with
  | all hgot => exact .all (.next hget hgot)
  -- The calls up to the failure are grouped anew.
  | failed hgot hfailed =>
    rw [← List.append_assoc]
    exact .failed (.next hget hgot) hfailed

/-- What it comes to, with the calls that are told of it. -/
theorem collects_getAll (ids : List String) (p : Factory σ ι × σ) :
    Collects p ids (getAll ids p).result (getAll ids p).state (called (gettingAll ids p)) := by
  induction ids generalizing p with
  | nil => exact .all (.done p)
  | cons id rest ih =>
    have hall := getAll_cons id rest p
    rw [gettingAll, called_append, called_getting]
    cases hget : (get id p).result with
    | error e =>
      simp only [hget, Prod.mk.injEq] at hall
      rw [hall.1, hall.2]
      -- Nobody behind this one has a turn.
      exact (List.append_nil (attempts id p)).symm ▸ .failed (.done p) hget
    | ok x =>
      simp only [hget, Prod.mk.injEq] at hall
      rw [hall.1, hall.2]
      exact (ih (get id p).state).next hget

end LayeredConfig.Factory
