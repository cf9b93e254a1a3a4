import LayeredConfig.Config.Reaction
import LayeredConfig.Diagnostic

/-! # Actions

Computations over a state that may fail.  A failure ends the computation but takes nothing back: the
changes made before it stay, and so do the notes of what happened.

* `Note`           something that happened
* `Outcome`        result, new state and notes of an action
* `Act`            the actions, a lawful monad
* `Act.attempt`    go on after a failure
* `Act.within`     act on a part of a state -/

namespace LayeredConfig

/-- Something that happened. -/
inductive Note
  | event (e : Event)
  /-- The call of an observer that is registered on a channel. -/
  | began (id channel : String) (change : Change)
  /-- A look or a write, by an observer while its call goes on and from outside otherwise. -/
  | deed (d : Deed)
  /-- The end of the call that began last. -/
  | ended (outcome : Except Error Unit)

/-- The calls that ended, with the deeds between their beginnings and their ends.  The first
argument is the call that goes on. -/
def Note.calls : Option (String × Change × List Deed) → List Note → List Call
  | _, [] => []
  | _, .began id _ change :: rest => calls (some (id, change, [])) rest
  | some (id, change, deeds), .deed d :: rest => calls (some (id, change, deeds ++ [d])) rest
  | some (id, change, deeds), .ended outcome :: rest =>
    ⟨id, change, deeds, outcome⟩ :: calls none rest
  | running, _ :: rest => calls running rest

/-- What an action came to. -/
structure Outcome (σ α : Type) where
  result : Except Error α
  state : σ
  /-- What happened, in order. -/
  notes : List Note

namespace Outcome

/-- The events among what happened. -/
def events {σ α : Type} (o : Outcome σ α) : List Event :=
  o.notes.filterMap fun
    | .event e => some e
    | _ => none

/-- The calls of observers among what happened. -/
def calls {σ α : Type} (o : Outcome σ α) : List Call := Note.calls none o.notes

/-- The outcome of an action that other notes go before. -/
def after {σ α : Type} (notes : List Note) (o : Outcome σ α) : Outcome σ α :=
  { o with notes := notes ++ o.notes }

end Outcome

/-- An action over a state `σ` with a result in `α`. -/
def Act (σ α : Type) : Type := σ → Outcome σ α

namespace Act

variable {σ τ α β : Type}

/-- The result `a`, with nothing done. -/
protected def pure (a : α) : Act σ α := fun s => ⟨.ok a, s, []⟩

/-- One action and then another, unless the first fails. -/
protected def bind (x : Act σ α) (f : α → Act σ β) : Act σ β := fun s =>
  match x s with
  | ⟨.ok a, s, notes⟩ => (f a s).after notes
  | ⟨.error e, s, notes⟩ => ⟨.error e, s, notes⟩

instance : Monad (Act σ) where
  pure := Act.pure
  bind := Act.bind

theorem pure_apply (a : α) (s : σ) : (pure a : Act σ α) s = ⟨.ok a, s, []⟩ := rfl

theorem bind_apply (x : Act σ α) (f : α → Act σ β) (s : σ) :
    (x >>= f) s = match x s with
      | ⟨.ok a, s, notes⟩ => (f a s).after notes
      | ⟨.error e, s, notes⟩ => ⟨.error e, s, notes⟩ := rfl

instance : LawfulMonad (Act σ) :=
  LawfulMonad.mk' (Act σ)
    (fun x => by
      funext s
      show (x >>= fun a => pure a) s = x s
      rw [bind_apply]
      rcases x s with ⟨_ | a, s', notes⟩ <;> simp [pure_apply, Outcome.after])
    (fun a f => by
      funext s
      rw [bind_apply, pure_apply]
      simp [Outcome.after])
    (fun x f g => by
      funext s
      simp only [bind_apply]
      rcases x s with ⟨e | a, s', notes⟩
      · rfl
      · simp only
        rcases hf : f a s' with ⟨e | b, s'', notes'⟩ <;> simp [Outcome.after, List.append_assoc])

/-- Fail. -/
def fail (e : Error) : Act σ α := fun s => ⟨.error e, s, []⟩

/-- A result that is known already. -/
def ofExcept : Except Error α → Act σ α
  | .ok a => pure a
  | .error e => fail e

/-- The state. -/
def current : Act σ σ := fun s => ⟨.ok s, s, []⟩

/-- Replace the state. -/
def replace (s : σ) : Act σ Unit := fun _ => ⟨.ok (), s, []⟩

/-- Change the state. -/
def modify (f : σ → σ) : Act σ Unit := fun s => ⟨.ok (), f s, []⟩

/-- Work on the state that cannot fail. -/
def ofState (f : σ → α × σ) : Act σ α := fun s => ⟨.ok (f s).1, (f s).2, []⟩

/-- Note what happened. -/
def note (n : Note) : Act σ Unit := fun s => ⟨.ok (), s, [n]⟩

/-- Report events. -/
def reportAll (events : List Event) : Act σ Unit := fun s => ⟨.ok (), s, events.map .event⟩

/-- Report an event. -/
def report (severity : Severity) (message : String) (fields : List (String × String)) :
    Act σ Unit :=
  note (.event ⟨severity, message, fields⟩)

/-- Do `x`; its failure is a result like any other. -/
def attempt (x : Act σ α) : Act σ (Except Error α) := fun s =>
  match x s with
  | ⟨result, s, notes⟩ => ⟨.ok result, s, notes⟩

/-- Do `x` and say more about its failure. -/
def mapError (f : Error → Error) (x : Act σ α) : Act σ α := fun s =>
  match x s with
  | ⟨result, s, notes⟩ => ⟨result.mapError f, s, notes⟩

/-- Do `x` on a part of the state. -/
def within (part : τ → σ) (put : σ → τ → τ) (x : Act σ α) : Act τ α := fun t =>
  match x (part t) with
  | ⟨result, s, notes⟩ => ⟨result, put s t, notes⟩

end Act
end LayeredConfig
