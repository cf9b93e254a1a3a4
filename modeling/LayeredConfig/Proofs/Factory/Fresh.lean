import LayeredConfig.Proofs.Actions
import LayeredConfig.Proofs.Factory.Get

/-!
# Factories against fresh ones

Creators that leave the surroundings alone make the same of the same definition at any time.  Of
such a factory only what it keeps tells that it is not a fresh one.

## Key results

- `Factory.Quiet.result_get_congr`: what comes out depends on the definition only
- `Factory.Leftover.result`: a factory against a fresh one
- `Factory.Leftover.get`: what getting a resource adds to what is kept
-/

namespace LayeredConfig.Factory

variable {σ ι : Type} {fresh f : Factory σ ι} {given : String → ι → Prop} {id : String} {s t : σ}
  {fields : Bag} {creator : Creator σ ι}

/-- Who is called depends on the view only. -/
theorem commission_congr (h : f.view s = f.view t) (id : String) :
    f.commission id s = f.commission id t := by
  simp only [commission, definition, h]

/-- The creator that is called is registered under the driver that the definition names. -/
theorem registered_of_commission (h : f.commission id s = .ok (fields, creator)) :
    ∃ driver, fields.string? "driver" = some driver ∧ f.creators.find? driver = some creator := by
  obtain ⟨-, hcreator⟩ := commission_eq_ok_iff.mp h
  -- Without a name there is no creator, so the second case contradicts the hypothesis.
  rcases Definition.string?_cases fields "driver" with ⟨driver, hdriver, hne⟩ | hdriver
  · rw [creator_of_string?_ne hdriver hne] at hcreator
    refine ⟨driver, hdriver, ?_⟩
    cases hfind : f.creators.find? driver with
    | none =>
      rw [hfind] at hcreator
      exact nomatch hcreator
    | some c =>
      rw [hfind] at hcreator
      exact congrArg some (Except.ok.inj hcreator)
  · rw [creator_of_forall_eq hdriver] at hcreator
    exact nomatch hcreator

/-! ## Creators that respect a relation -/

/-- Whatever creators do to the surroundings, these stay related. -/
def Respects (R : σ → σ → Prop) (f : Factory σ ι) : Prop :=
  ∀ driver creator, f.creators.find? driver = some creator →
    ∀ id fields, (creator id fields).Respects R

/-- To get a resource is to call a creator or nobody. -/
theorem Respects.get {R : σ → σ → Prop} (hrefl : ∀ s, R s s) (h : f.Respects R) (id : String)
    (s : σ) : R s (get id (f, s)).state.2 := by
  cases hkept : f.instances.find? id with
  | some x =>
    rw [get_of_kept hkept]
    exact hrefl s
  | none =>
    rw [around_get_of_not_kept hkept, create_apply]
    cases hc : f.commission id s with
    | error e => exact hrefl s
    | ok c =>
      obtain ⟨driver, -, hcreator⟩ := registered_of_commission hc
      exact h driver c.2 hcreator id c.1 s

/-! ## Creators that leave the surroundings alone -/

/-- The creators of a factory neither look at the surroundings nor change them. -/
def Quiet (f : Factory σ ι) : Prop :=
  ∀ driver creator, f.creators.find? driver = some creator → ∀ id fields, (creator id fields).Blind

/-- Quiet creators respect everything, since they change nothing. -/
theorem Quiet.respects {R : σ → σ → Prop} (hrefl : ∀ s, R s s) (h : f.Quiet) : f.Respects R :=
  fun driver creator hcreator id fields => (h driver creator hcreator id fields).respects hrefl

/-- The creator that is called is one of the quiet ones. -/
theorem Quiet.blind (h : f.Quiet) (hc : f.commission id s = .ok (fields, creator)) :
    (creator id fields).Blind := by
  obtain ⟨driver, -, hcreator⟩ := registered_of_commission hc
  exact h driver creator hcreator id fields

/-- So the surroundings are the same after a `get`. -/
theorem Quiet.around_get (h : f.Quiet) (id : String) (s : σ) : (get id (f, s)).state.2 = s :=
  -- Equality is one of the relations that are respected.
  ((h.respects Eq.refl).get Eq.refl id s).symm

/-- What comes out depends on the definition only. -/
theorem Quiet.result_get_congr (h : f.Quiet) (hsame : f.definition id s = f.definition id t) :
    (get id (f, s)).result = (get id (f, t)).result := by
  cases hkept : f.instances.find? id with
  | some x => rw [get_of_kept hkept, get_of_kept hkept]
  | none =>
    have hcommission : f.commission id s = f.commission id t := by simp only [commission, hsame]
    rw [result_get_of_not_kept hkept, result_get_of_not_kept hkept, create_apply, create_apply,
      hcommission]
    cases hc : f.commission id t with
    | error e => rfl
    | ok c => exact (h.blind hc).result s t

/-! ## What a factory has left -/

/-- A factory differs from a fresh one only in resources that it was given since. -/
structure Leftover (fresh f : Factory σ ι) (given : String → ι → Prop) : Prop where
  factory : f = fresh.keeping f.instances
  still : ∀ i x, fresh.instances.find? i = some x → f.instances.find? i = some x
  given : ∀ i x, f.instances.find? i = some x → fresh.instances.find? i = some x ∨ given i x

/-- A factory was given nothing since it is what it is. -/
theorem Leftover.refl (f : Factory σ ι) (given : String → ι → Prop) : Leftover f f given :=
  ⟨rfl, fun _ _ h => h, fun _ _ h => .inl h⟩

/-- It may be said less precisely what was given. -/
theorem Leftover.mono {given' : String → ι → Prop} (h : Leftover fresh f given)
    (himp : ∀ i x, given i x → given' i x) : Leftover fresh f given' :=
  ⟨h.factory, h.still, fun i x hi => (h.given i x hi).imp_right (himp i x)⟩

/-- What is not kept comes out as it does in a fresh factory. -/
theorem Leftover.result_of_not_kept (h : Leftover fresh f given)
    (hkept : f.instances.find? id = none) (s : σ) :
    (get id (f, s)).result = (get id (fresh, s)).result := by
  -- What a fresh factory keeps is kept still, so it does not keep this one either.
  have hfresh : fresh.instances.find? id = none := by
    cases hfind : fresh.instances.find? id with
    | none => rfl
    | some x => exact nomatch hkept.symm.trans (h.still id x hfind)
  have hcreate : f.create id s = fresh.create id s := by rw [h.factory]; rfl
  rw [result_get_of_not_kept hkept, result_get_of_not_kept hfresh, hcreate]

/-- So does what is kept, if a fresh factory would construct the same. -/
theorem Leftover.result (h : Leftover fresh f given)
    (hsame : ∀ x, f.instances.find? id = some x → (get id (fresh, s)).result = .ok x) :
    (get id (f, s)).result = (get id (fresh, s)).result := by
  cases hkept : f.instances.find? id with
  | none => exact h.result_of_not_kept hkept s
  | some x => rw [get_of_kept hkept, hsame x hkept]

/-- To get a resource adds at most what a fresh factory constructs at the time. -/
theorem Leftover.get (h : Leftover fresh f given)
    (hgiven : ∀ x, (Factory.get id (fresh, s)).result = .ok x → given id x) :
    Leftover fresh (Factory.get id (f, s)).state.1 given where
  -- Only the resources differ, before and after.
  factory := by
    obtain ⟨m, rfl⟩ : ∃ m, f = fresh.keeping m := ⟨_, h.factory⟩
    rw [factory_get]
    split <;> rfl
  still i x hi := find?_get_of_kept (h.still i x hi)
  given i x hi := by
    rw [factory_get] at hi
    split at hi
    · next y hkept hresult =>
      rw [h.result_of_not_kept hkept s] at hresult
      -- What was kept is new if it is the resource itself, and was there before otherwise.
      by_cases hid : i = id
      · have hfind := (Entries.find?_insert f.instances id y i).symm.trans hi
        rw [if_pos hid, Option.some.injEq] at hfind
        rw [hid, ← hfind]
        exact .inr (hgiven y hresult)
      · have hfind := (Entries.find?_insert f.instances id y i).symm.trans hi
        rw [if_neg hid] at hfind
        exact h.given i x hfind
    · exact h.given i x hi

end LayeredConfig.Factory
