import LayeredConfig.Error

/-! # The life of a trigger

A trigger waits, runs its handler, and is done or waits again.  It can be closed at any time: a wait
then ends at once and nothing runs any more, but a run that is going on is completed.  Its holder
and its task share a state and a wake-up, which is kept for a task that does not wait.

* `Lifecycle`         what the holder and the task share
* `Lifecycle.close`   close it, once
* `Trigger`           a lifecycle and its task
* `Trigger.endWait`   the end of a wait
* `Trigger.endRun`    the end of a run -/

namespace LayeredConfig

namespace Trigger

/-- How often a trigger runs its handler. -/
inductive Kind
  /-- Once. -/
  | pulse
  /-- Again and again, until it is closed or the handler fails. -/
  | recurring
deriving DecidableEq, Repr

/-- What the holder of a trigger sees. -/
inductive State
  /-- Before a run. -/
  | armed
  /-- In a run. -/
  | firing
  | closed
deriving DecidableEq, Repr

/-- What ends a wait. -/
inductive Signal
  /-- The time is up. -/
  | time
  /-- The wake-up came. -/
  | wakeUp
deriving DecidableEq, Repr

/-- What the task of a trigger does. -/
inductive Task
  /-- Nothing yet. -/
  | spawned
  | waiting
  | running
  | finished
deriving DecidableEq, Repr

/-- The error of arming a trigger where nothing could run it. -/
def noRuntime : Error :=
  (Error.invalidState "triggers need a tokio runtime").withContext "cause"
    "there is no reactor running, must be called from the context of a Tokio 1.x runtime"

end Trigger

/-- What the holder and the task of a trigger share. -/
structure Lifecycle where
  state : Trigger.State
  /-- Whether a wake-up was sent that no wait has received. -/
  wakeUp : Bool
deriving DecidableEq, Repr

namespace Lifecycle

open Trigger (Signal)

/-- Armed, with no wake-up. -/
def new : Lifecycle := ⟨.armed, false⟩

/-- Whether a trigger is not closed yet. -/
def isRunning (l : Lifecycle) : Bool := l.state != .closed

/-- From armed to firing. -/
def beginFiring? (l : Lifecycle) : Option Lifecycle :=
  if l.state = .armed then some { l with state := .firing } else none

/-- From firing back to armed; nothing if it was closed meanwhile. -/
def rearm? (l : Lifecycle) : Option Lifecycle :=
  if l.state = .firing then some { l with state := .armed } else none

/-- Close it and send the wake-up.  The result is whether this call closed it. -/
def close (l : Lifecycle) : Bool × Lifecycle :=
  if l.state = .closed then (false, l) else (true, ⟨.closed, true⟩)

/-- Close it without a wake-up, as the task does that needs none. -/
def shut (l : Lifecycle) : Lifecycle := { l with state := .closed }

/-- The end of a wait, and whether the task may go on. -/
def waited (l : Lifecycle) : Signal → Bool × Lifecycle
  | .time => (l.isRunning, l)
  | .wakeUp => (false, { l with wakeUp := false })

end Lifecycle

/-- A lifecycle with its task and the number of the runs so far. -/
structure Trigger extends Lifecycle where
  kind : Trigger.Kind
  task : Trigger.Task
  runs : Nat
deriving DecidableEq, Repr

namespace Trigger

/-- A trigger before its first wait. -/
def arm (kind : Kind) : Trigger := ⟨.new, kind, .spawned, 0⟩

/-- Close a trigger.  The first time only, the result is true. -/
def close (t : Trigger) : Bool × Trigger :=
  (t.toLifecycle.close.1, { t with toLifecycle := t.toLifecycle.close.2 })

/-- The task begins to wait for the first time. -/
def enter (t : Trigger) : Trigger := { t with task := .waiting }

/-- The end of a wait.  A run starts unless the trigger is closed. -/
def endWait (t : Trigger) (signal : Signal) : Trigger :=
  match t.waited signal with
  | (false, l) => { t with toLifecycle := l, task := .finished }
  | (true, l) =>
    match l.beginFiring? with
    | none => { t with toLifecycle := l, task := .finished }
    | some l => { t with toLifecycle := l, task := .running, runs := t.runs + 1 }

/-- The end of a run.  A recurring trigger that was not closed and whose handler did not fail waits
again; every other trigger is closed and done. -/
def endRun (t : Trigger) (outcome : Except Error Unit) : Trigger :=
  match t.kind, outcome with
  | .recurring, .ok _ =>
    match t.rearm? with
    | some l => { t with toLifecycle := l, task := .waiting }
    | none => { t with task := .finished }
  | _, _ => { t with toLifecycle := t.shut, task := .finished }

end Trigger
end LayeredConfig
