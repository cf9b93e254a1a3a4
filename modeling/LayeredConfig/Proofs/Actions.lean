import LayeredConfig.Act

/-!
# Results and states of actions

The parts of what an action comes to, and actions that have nothing to do with the state.

## Key results

- `Act.result_bind` and `Act.state_bind`: what one action and then another come to
- `Act.Blind.bind`: an action without a state is made of such actions
- `Act.Respects.bind`: what each of two actions keeps, both keep
- `Act.Ensures.bind`: two actions that go well, one after the other
-/

namespace LayeredConfig.Act

variable {σ τ α β : Type}

/-! ## Results and states of actions -/

/-- The second of two actions gives the result if the first one goes well. -/
theorem result_bind (x : Act σ α) (f : α → Act σ β) (s : σ) :
    ((x >>= f) s).result = (x s).result >>= fun a => (f a (x s).state).result := by
  rw [bind_apply]
  rcases x s with ⟨_ | _, s', notes⟩ <;> rfl

/-- The second of two actions acts on what the first one has left. -/
theorem state_bind (x : Act σ α) (f : α → Act σ β) (s : σ) :
    ((x >>= f) s).state = match (x s).result with
      | .ok a => (f a (x s).state).state
      | .error _ => (x s).state := by
  rw [bind_apply]
  rcases x s with ⟨_ | _, s', notes⟩ <;> rfl

/-- What comes after an action that goes well starts from what it left. -/
theorem ok_of_bind {x : Act σ α} {f : α → Act σ β} {s : σ} {b : β}
    (h : ((x >>= f) s).result = .ok b) : ∃ a, (x s).result = .ok a ∧
      (f a (x s).state).result = .ok b ∧ ((x >>= f) s).state = (f a (x s).state).state := by
  rw [result_bind] at h
  rw [state_bind]
  cases hx : (x s).result with
  | error e =>
    rw [hx] at h
    exact nomatch h
  | ok a =>
    rw [hx] at h
    exact ⟨a, rfl, h, rfl⟩

@[simp] theorem result_ofExcept (r : Except Error α) (s : σ) : (ofExcept r s).result = r := by
  cases r <;> rfl

@[simp] theorem state_ofExcept (r : Except Error α) (s : σ) : (ofExcept r s).state = s := by
  cases r <;> rfl

/-- A look at the state comes before what is done with it. -/
theorem current_bind (f : σ → Act σ α) (s : σ) : (current >>= f) s = f s s := rfl

/-- What comes after an action and always goes well, without a change of the state, hides nothing
but the value of the result. -/
theorem bind_const (x : Act σ α) {y : Act σ Unit}
    (hy : ∀ s, (y s).state = s ∧ (y s).result = .ok ()) (s : σ) :
    ((x >>= fun _ => y) s).state = (x s).state ∧
      ((x >>= fun _ => y) s).result = (x s).result.map fun _ => () := by
  obtain ⟨hstate, hresult⟩ := hy (x s).state
  rw [state_bind, result_bind]
  cases (x s).result with
  | error e => exact ⟨rfl, rfl⟩
  | ok a => exact ⟨hstate, hresult⟩

/-- A result that is only told in another way. -/
theorem bind_pure_apply (x : Act σ α) (g : α → β) (s : σ) :
    ((x >>= fun a => pure (g a)) s).state = (x s).state ∧
      ((x >>= fun a => pure (g a)) s).result = (x s).result.map g := by
  rw [state_bind, result_bind]
  cases (x s).result <;> exact ⟨rfl, rfl⟩

/-- Two results in a row may be taken one after the other. -/
theorem ofExcept_bind (r : Except Error α) (f : α → Except Error β) :
    (ofExcept (r >>= f) : Act σ β) = ofExcept r >>= fun a => ofExcept (f a) := by
  cases r with
  | error e => rfl
  | ok a => exact (pure_bind a fun a => ofExcept (f a)).symm

/-! ## Actions without a state -/

/-- An action that neither looks at the state nor changes it. -/
def Blind (x : Act σ α) : Prop := ∃ result notes, ∀ s, x s = ⟨result, s, notes⟩

/-- An action that looks at nothing leaves the state alone. -/
theorem Blind.state {x : Act σ α} (h : Blind x) (s : σ) : (x s).state = s := by
  obtain ⟨result, notes, hx⟩ := h
  rw [hx]

/-- An action that looks at nothing has the same result in all states. -/
theorem Blind.result {x : Act σ α} (h : Blind x) (s t : σ) : (x s).result = (x t).result := by
  obtain ⟨result, notes, hx⟩ := h
  rw [hx, hx]

/-- To give a value takes no state. -/
theorem blind_pure (a : α) : Blind (pure a : Act σ α) := ⟨_, _, fun _ => rfl⟩

theorem blind_ofExcept (r : Except Error α) : Blind (ofExcept r : Act σ α) := by
  cases r <;> exact ⟨_, _, fun _ => rfl⟩

/-- To report an event takes no state. -/
theorem blind_report (severity : Severity) (message : String) (fields : List (String × String)) :
    Blind (report severity message fields : Act σ Unit) := ⟨_, _, fun _ => rfl⟩

/-- Two actions without a state make one. -/
theorem Blind.bind {x : Act σ α} {f : α → Act σ β} (hx : Blind x) (hf : ∀ a, Blind (f a)) :
    Blind (x >>= f) := by
  obtain ⟨result, notes, hx⟩ := hx
  -- The result of the first is the same in all states, so it is known beforehand which one follows.
  cases result with
  | error e => exact ⟨.error e, notes, fun s => by rw [bind_apply, hx]⟩
  | ok a =>
    obtain ⟨result, notes', hf⟩ := hf a
    exact ⟨result, notes ++ notes', fun s => by simp only [bind_apply, hx, hf, Outcome.after]⟩

/-- The state after an action is final if what follows is blind. -/
theorem state_bind_of_blind {f : α → Act σ β} (hf : ∀ a, Blind (f a)) (x : Act σ α) (s : σ) :
    ((x >>= f) s).state = (x s).state := by
  rw [state_bind]
  cases (x s).result with
  | error e => rfl
  | ok a => exact (hf a).state _

/-- To word a failure in another way takes no state either. -/
theorem Blind.mapError {x : Act σ α} (h : Blind x) (f : Error → Error) : Blind (x.mapError f) := by
  obtain ⟨result, notes, hx⟩ := h
  exact ⟨result.mapError f, notes, fun s => by simp only [Act.mapError, hx]⟩

/-! ## Actions that respect a relation -/

/-- The state after an action is related to the state before it. -/
def Respects (R : σ → σ → Prop) (x : Act σ α) : Prop := ∀ s, R s (x s).state

section Respects

variable {R : σ → σ → Prop}

/-- What changes nothing respects whatever holds of a state and itself. -/
theorem Blind.respects (hrefl : ∀ s, R s s) {x : Act σ α} (h : Blind x) : Respects R x := by
  intro s
  rw [h.state]
  exact hrefl s

/-- An action and then another, from one state. -/
theorem Respects.after (htrans : ∀ {s t u}, R s t → R t u → R s u) {x : Act σ α}
    {f : α → Act σ β} {s : σ} (hx : R s (x s).state) (hf : ∀ a, Respects R (f a)) :
    R s ((x >>= f) s).state := by
  rw [state_bind]
  cases (x s).result with
  | error e => exact hx
  | ok a => exact htrans hx (hf a _)

/-- An action and then another, from any state. -/
theorem Respects.bind (htrans : ∀ {s t u}, R s t → R t u → R s u) {x : Act σ α}
    {f : α → Act σ β} (hx : Respects R x) (hf : ∀ a, Respects R (f a)) :
    Respects R (x >>= f) :=
  fun s => Respects.after (R := R) @htrans (hx s) hf

end Respects

/-! ## Actions that go well -/

/-- An action goes well from a state, and what it gives and leaves is as said. -/
def Ensures (x : Act σ α) (s : σ) (Q : α → σ → Prop) : Prop :=
  ∃ a, (x s).result = .ok a ∧ Q a (x s).state

section Ensures

variable {x : Act σ α} {f : α → Act σ β} {s : σ} {Q R : α → σ → Prop} {T : β → σ → Prop}

theorem ensures_pure {a : α} (h : Q a s) : Ensures (pure a) s Q := ⟨a, rfl, h⟩

/-- To report an event goes well and changes nothing. -/
theorem ensures_report {severity : Severity} {message : String} {fields : List (String × String)}
    {Q : Unit → σ → Prop} (h : Q () s) : Ensures (report severity message fields) s Q :=
  ⟨(), rfl, h⟩

/-- It may be said less precisely how an action went. -/
theorem Ensures.mono (h : Ensures x s Q) (hQ : ∀ a t, Q a t → R a t) : Ensures x s R := by
  obtain ⟨a, hresult, hstate⟩ := h
  exact ⟨a, hresult, hQ a _ hstate⟩

/-- Two actions go well if the second one does wherever the first one may end. -/
theorem Ensures.bind (hx : Ensures x s Q) (hf : ∀ a t, Q a t → Ensures (f a) t T) :
    Ensures (x >>= f) s T := by
  obtain ⟨a, hresult, hstate⟩ := hx
  obtain ⟨b, hresult', hstate'⟩ := hf a _ hstate
  refine ⟨b, ?_, ?_⟩
  · rw [result_bind, hresult]
    exact hresult'
  · rw [state_bind, hresult]
    exact hstate'

/-- What is done with the present state only has to go well with this state. -/
theorem ensures_current_bind {f : σ → Act σ β} (h : Ensures (f s) s T) :
    Ensures (current >>= f) s T := h

/-- A change of the state goes well. -/
theorem ensures_modify {g : σ → σ} {Q : Unit → σ → Prop} (h : Q () (g s)) :
    Ensures (modify g) s Q := ⟨(), rfl, h⟩

/-- What follows a change of the state starts from the changed one. -/
theorem ensures_modify_bind {g : σ → σ} {f : Unit → Act σ β} (h : Ensures (f ()) (g s) T) :
    Ensures (modify g >>= f) s T := h

theorem ensures_replace_bind {t : σ} {f : Unit → Act σ β} (h : Ensures (f ()) t T) :
    Ensures (replace t >>= f) s T := h

end Ensures

end LayeredConfig.Act
