import LayeredConfig.Act

/-! # Subscriptions

Handlers that subscribers registered on channels, at most one for each pair.  Publishing runs the
handlers of a channel in ascending order of subscribers.

* `PubSub`               the subscriptions
* `PubSub.subscribe`     refuses a pair that has a handler
* `PubSub.unsubscribe`   refuses a pair that has none
* `PubSub.publish`       run the handlers of a channel -/

namespace LayeredConfig

/-- For each channel that has subscribers, their handlers. -/
structure PubSub (κ γ : Type) [Ord κ] [Ord γ] (η : Type) where
  table : SortedMap γ (SortedMap κ η)

namespace PubSub

variable {κ γ η σ : Type} [Ord κ] [Ord γ]

/-- No subscriptions. -/
def empty : PubSub κ γ η := ⟨.nil⟩

/-- The handlers on a channel, by subscriber. -/
def handlers (p : PubSub κ γ η) (channel : γ) : SortedMap κ η :=
  (p.table.find? channel).getD .nil

/-- The subscribers on a channel in ascending order. -/
def subscribers (p : PubSub κ γ η) (channel : γ) : List κ := (p.handlers channel).keys

/-- Whether a subscriber has a handler on a channel. -/
def isSubscribed (p : PubSub κ γ η) (id : κ) (channel : γ) : Bool :=
  (p.handlers channel).contains id

/-- The channels with subscribers in ascending order. -/
def channels (p : PubSub κ γ η) : List γ := p.table.keys

section Registering

variable [Std.TransOrd κ] [Std.TransOrd γ] [Shown κ] [Shown γ]

/-- Register a handler. -/
def subscribe (id : κ) (channel : γ) (handler : η) : Act (PubSub κ γ η) Unit := do
  let p ← Act.current
  if p.isSubscribed id channel then Act.fail (.duplicateSubscription id channel)
  else
    Act.report .debug "subscribed" [("id", shown id), ("channel", shown channel)]
    Act.replace ⟨p.table.insert channel ((p.handlers channel).insert id handler)⟩

/-- Remove a handler; a channel goes with its last subscriber. -/
def unsubscribe (id : κ) (channel : γ) : Act (PubSub κ γ η) Unit := do
  let p ← Act.current
  if p.isSubscribed id channel then
    let rest := (p.handlers channel).erase id
    Act.replace ⟨if rest.isEmpty then p.table.erase channel else p.table.insert channel rest⟩
    Act.report .debug "unsubscribed" [("id", shown id), ("channel", shown channel)]
  else Act.fail (.subscriptionNotFound id channel)

end Registering

section Publishing

variable [Shown κ] [Shown γ]

/-- What is reported of a handler that ended: only its failure. -/
def reportOf (id : κ) (channel : γ) : Except Error Unit → List Event
  | .ok _ => []
  | .error e => [⟨.warn, "subscriber failed",
      [("id", shown id), ("channel", shown channel), ("error", e.message)]⟩]

/-- The first failure so far, after one more handler ended. -/
def firstFailure (failure : Option Error) : Except Error Unit → Option Error
  | .ok _ => failure
  | .error e => some (failure.getD e)

/-- Run handlers one after the other, past failures.  The first failure is the result. -/
def runAll (channel : γ) (run : κ → η → Act σ Unit) (failure : Option Error) :
    List (κ × η) → Act σ Unit
  | [] =>
    match failure with
    | none => pure ()
    | some e => Act.fail e
  | (id, handler) :: rest => do
    let outcome ← (run id handler).attempt
    Act.reportAll (reportOf id channel outcome)
    runAll channel run (firstFailure failure outcome) rest

/-- Run every handler on a channel in ascending order of subscribers.  No handler is no failure. -/
def publish (p : PubSub κ γ η) (channel : γ) (run : κ → η → Act σ Unit) : Act σ Unit :=
  runAll channel run none (p.handlers channel).toList

end Publishing
end PubSub
end LayeredConfig
