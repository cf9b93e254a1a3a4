import LayeredConfig.PubSub
import LayeredConfig.SortedMap.Lemmas

/-!
# Handlers of subscriptions

What the registration of a handler and its removal do to the handlers on each channel.

## Key results

- `PubSub.subscribe_apply` / `PubSub.unsubscribe_apply`: result, new state and report
- `PubSub.handlers_subscribed` / `PubSub.handlers_unsubscribed`: the handlers afterwards
- `PubSub.mem_channels`: a channel with a subscriber is listed
-/

namespace LayeredConfig.PubSub

variable {κ γ η : Type} [Ord κ] [Ord γ] [Std.TransOrd κ] [Std.TransOrd γ]

/-- The subscriptions with one more handler. -/
def subscribed (p : PubSub κ γ η) (id : κ) (channel : γ) (handler : η) : PubSub κ γ η :=
  ⟨p.table.insert channel ((p.handlers channel).insert id handler)⟩

/-- The subscriptions with one handler less. -/
def unsubscribed (p : PubSub κ γ η) (id : κ) (channel : γ) : PubSub κ γ η :=
  let rest := (p.handlers channel).erase id
  ⟨if rest.isEmpty then p.table.erase channel else p.table.insert channel rest⟩

section Registering

variable [Shown κ] [Shown γ]

/-- A handler is registered unless its id stands on the channel already. -/
theorem subscribe_apply (id : κ) (channel : γ) (handler : η) (p : PubSub κ γ η) :
    PubSub.subscribe id channel handler p =
      if p.isSubscribed id channel then ⟨.error (.duplicateSubscription id channel), p, []⟩
      else ⟨.ok (), p.subscribed id channel handler,
        [.event ⟨.debug, "subscribed", [("id", shown id), ("channel", shown channel)]⟩]⟩ := by
  cases h : p.isSubscribed id channel <;>
    simp [subscribe, Act.bind_apply, Act.current, Act.fail, Act.report, Act.note, Act.replace,
      Outcome.after, subscribed, h]

/-- A handler is taken off if it stands on the channel. -/
theorem unsubscribe_apply (id : κ) (channel : γ) (p : PubSub κ γ η) :
    PubSub.unsubscribe id channel p =
      if p.isSubscribed id channel then ⟨.ok (), p.unsubscribed id channel,
        [.event ⟨.debug, "unsubscribed", [("id", shown id), ("channel", shown channel)]⟩]⟩
      else ⟨.error (.subscriptionNotFound id channel), p, []⟩ := by
  cases h : p.isSubscribed id channel <;>
    simp [unsubscribe, Act.bind_apply, Act.current, Act.fail, Act.report, Act.note, Act.replace,
      Outcome.after, unsubscribed, h]

end Registering

section Channels

variable [Std.LawfulEqOrd γ]

/-- A channel with a subscriber is listed. -/
theorem mem_channels {κ : Type} [Ord κ] {p : PubSub κ γ η} {id : κ} {channel : γ}
    (h : p.isSubscribed id channel = true) : channel ∈ p.channels := by
  refine Entries.mem_keys_iff.mpr ?_
  cases hf : p.table.find? channel with
  | none => simp [isSubscribed, handlers, hf, Entries.contains] at h
  | some hs => rfl

variable [DecidableEq γ]

/-- The new handler stands on its channel, and other channels stay as they are. -/
theorem handlers_subscribed (p : PubSub κ γ η) (id : κ) (channel c : γ) (handler : η) :
    (p.subscribed id channel handler).handlers c =
      if c = channel then (p.handlers channel).insert id handler else p.handlers c := by
  simp only [handlers, subscribed, Entries.find?_insert]
  split <;> rfl

/-- The handler is gone from its channel, and other channels stay as they are. -/
theorem handlers_unsubscribed (p : PubSub κ γ η) (id : κ) (channel c : γ) :
    (p.unsubscribed id channel).handlers c =
      if c = channel then (p.handlers channel).erase id else p.handlers c := by
  simp only [unsubscribed]
  -- A channel without handlers is not kept, which its handlers do not show.
  by_cases hrest : ((p.handlers channel).erase id).isEmpty = true
  · rw [if_pos hrest, Entries.eq_nil_of_isEmpty hrest]
    simp only [handlers, Entries.find?_erase]
    split <;> rfl
  · rw [if_neg hrest]
    simp only [handlers, Entries.find?_insert]
    split <;> rfl

end Channels

section Subscribers

variable [Std.LawfulEqOrd κ]

/-- The subscribers on a channel are those that are subscribed there. -/
theorem mem_subscribers {γ : Type} [Ord γ] {p : PubSub κ γ η} {id : κ} {channel : γ} :
    id ∈ p.subscribers channel ↔ p.isSubscribed id channel = true :=
  Entries.mem_keys_iff

variable [Std.LawfulEqOrd γ] [DecidableEq κ] [DecidableEq γ]

/-- Whoever was subscribed still is, and so is the new one. -/
theorem isSubscribed_subscribed (p : PubSub κ γ η) (id id' : κ) (channel c : γ) (handler : η) :
    (p.subscribed id channel handler).isSubscribed id' c =
      (decide (id' = id ∧ c = channel) || p.isSubscribed id' c) := by
  simp only [isSubscribed, handlers_subscribed, Entries.contains]
  by_cases hc : c = channel
  · subst hc
    by_cases hid : id' = id <;> simp [Entries.find?_insert, hid]
  · simp [hc]

/-- Whoever was subscribed still is, but for the one that was taken off. -/
theorem isSubscribed_unsubscribed (p : PubSub κ γ η) (id id' : κ) (channel c : γ) :
    (p.unsubscribed id channel).isSubscribed id' c =
      (!decide (id' = id ∧ c = channel) && p.isSubscribed id' c) := by
  simp only [isSubscribed, handlers_unsubscribed, Entries.contains]
  by_cases hc : c = channel
  · subst hc
    by_cases hid : id' = id <;> simp [Entries.find?_erase, hid]
  · simp [hc]

end Subscribers
end LayeredConfig.PubSub
