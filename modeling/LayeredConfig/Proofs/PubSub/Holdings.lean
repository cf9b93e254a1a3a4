import LayeredConfig.Proofs.PubSub.Handlers

/-!
# What subscriptions hold

The table of channels and subscribers stands for a set of pairs of subscriber and channel, each
with the handler that was registered last.  The set can be told from the history of demands and
their results alone, and every answer can be told from the set.

The calls of handlers are those that the handlers would write down themselves, in a list that
nobody reads.

## Key results

- `PubSub.publish_watched`: to watch handlers changes nothing else
- `PubSub.map_callsOf` / `PubSub.result_runAll`: which calls a publication makes, and its result
- `PubSub.stands_serve`: what one demand does to the set
- `PubSub.refines_history`: the table and every answer show what is held
-/

namespace LayeredConfig.PubSub

variable {κ γ η δ σ : Type}

/-! ## Calls of handlers -/

/-- A call of a handler: whose and which, with what, and what came of it. -/
structure Call (κ γ η δ : Type) where
  id : κ
  handler : η
  channel : γ
  data : List δ
  outcome : Except Error Unit

/-- The failure of a call. -/
def Call.failure? (c : Call κ γ η δ) : Option Error :=
  match c.outcome with
  | .ok _ => none
  | .error e => some e

/-- The result of calls of which the given failure came first. -/
def verdict : Option Error → Except Error Unit
  | none => .ok ()
  | some e => .error e

/-- The calls of some handlers, one after the other. -/
def callsOf (run : κ → η → Act σ Unit) (channel : γ) (data : List δ) :
    List (κ × η) → σ → List (Call κ γ η δ)
  | [], _ => []
  | (id, handler) :: rest, s =>
    ⟨id, handler, channel, data, (run id handler s).result⟩ ::
      callsOf run channel data rest (run id handler s).state

/-- Every handler is called once, in the given order. -/
theorem map_callsOf (run : κ → η → Act σ Unit) (channel : γ) (data : List δ) (hs : List (κ × η))
    (s : σ) :
    (callsOf run channel data hs s).map (fun c => (c.id, c.handler, c.channel, c.data)) =
      hs.map fun h => (h.1, h.2, channel, data) := by
  induction hs generalizing s with
  | nil => rfl
  | cons h hs ih => simp only [callsOf, List.map_cons, ih]

section Calling

variable [Shown κ] [Shown γ]

/-- The first handler runs before the others, which go on with what it left and with its failure. -/
theorem runAll_cons (channel : γ) (run : κ → η → Act σ Unit) (failure : Option Error) (id : κ)
    (handler : η) (rest : List (κ × η)) (s : σ) :
    runAll channel run failure ((id, handler) :: rest) s =
      (runAll channel run (firstFailure failure (run id handler s).result) rest
        (run id handler s).state).after
        ((run id handler s).notes ++
          (reportOf id channel (run id handler s).result).map .event) := by
  simp only [runAll, Act.bind_apply, Act.attempt, Act.reportAll, Outcome.after, List.append_assoc]

/-- The first failure is the result, after all handlers have been called. -/
theorem result_runAll (run : κ → η → Act σ Unit) (channel : γ) (data : List δ)
    (failure : Option Error) (hs : List (κ × η)) (s : σ) :
    (runAll channel run failure hs s).result =
      verdict (failure.or ((callsOf run channel data hs s).findSome? Call.failure?)) := by
  induction hs generalizing failure s with
  | nil => cases failure <;> rfl
  | cons h hs ih =>
    obtain ⟨id, handler⟩ := h
    rw [runAll_cons]
    simp only [Outcome.after, ih, callsOf, List.findSome?_cons, Call.failure?]
    -- The first failure so far hides the later ones.
    cases (run id handler s).result <;> cases failure <;> simp [firstFailure]

end Calling

variable [Ord κ] [Ord γ]

/-- What handlers do when they are called.  A handler may look at the subscriptions, for instance to
publish in turn, but it may not change them. -/
abbrev Conduct (κ γ η δ σ : Type) [Ord κ] [Ord γ] : Type :=
  PubSub κ γ η → κ → η → γ → List δ → Act σ Unit

/-- Surroundings in which the calls of handlers are written down. -/
structure Watched (κ γ η δ σ : Type) where
  around : σ
  calls : List (Call κ γ η δ)

/-- The handlers that do the same and write it down. -/
def Conduct.watched (run : Conduct κ γ η δ σ) : Conduct κ γ η δ (Watched κ γ η δ σ) :=
  fun p id handler channel data w =>
    let o := run p id handler channel data w.around
    ⟨o.result, ⟨o.state, w.calls ++ [⟨id, handler, channel, data, o.result⟩]⟩, o.notes⟩

section Publishing

variable [Shown κ] [Shown γ]

/-- Publish data on a channel. -/
def publishData (run : Conduct κ γ η δ σ) (p : PubSub κ γ η) (channel : γ) (data : List δ) :
    Act σ Unit :=
  p.publish channel fun id handler => run p id handler channel data

/-- The calls of handlers in the course of a publication. -/
def called (run : Conduct κ γ η δ σ) (p : PubSub κ γ η) (channel : γ) (data : List δ) (s : σ) :
    List (Call κ γ η δ) :=
  (publishData run.watched p channel data ⟨s, []⟩).state.calls

/-- To watch handlers adds their calls to those that were written down before. -/
theorem runAll_watched (run : Conduct κ γ η δ σ) (p : PubSub κ γ η) (channel : γ) (data : List δ)
    (failure : Option Error) (hs : List (κ × η)) (w : Watched κ γ η δ σ) :
    runAll channel (fun id handler => run.watched p id handler channel data) failure hs w =
      let o := runAll channel (fun id handler => run p id handler channel data) failure hs w.around
      ⟨o.result, ⟨o.state, w.calls ++
        callsOf (fun id handler => run p id handler channel data) channel data hs w.around⟩,
        o.notes⟩ := by
  -- For any calls before these, since each handler adds its own.
  induction hs generalizing failure w with
  | nil => cases failure <;> simp [runAll, callsOf, Act.pure_apply, Act.fail]
  | cons h hs ih =>
    obtain ⟨id, handler⟩ := h
    rw [runAll_cons, runAll_cons, ih]
    simp only [Conduct.watched, Outcome.after, callsOf, List.append_assoc, List.singleton_append]

/-- The calls of a publication are those of the handlers on its channel. -/
theorem called_eq_callsOf (run : Conduct κ γ η δ σ) (p : PubSub κ γ η) (channel : γ)
    (data : List δ) (s : σ) :
    called run p channel data s =
      callsOf (fun id handler => run p id handler channel data) channel data
        (p.handlers channel).toList s := by
  simp only [called, publishData, publish, runAll_watched, List.nil_append]

/-- To watch handlers changes nothing else. -/
theorem publish_watched (run : Conduct κ γ η δ σ) (p : PubSub κ γ η) (channel : γ) (data : List δ)
    (w : Watched κ γ η δ σ) :
    publishData run.watched p channel data w =
      let o := publishData run p channel data w.around
      ⟨o.result, ⟨o.state, w.calls ++ called run p channel data w.around⟩, o.notes⟩ := by
  rw [called_eq_callsOf]
  exact runAll_watched run p channel data none _ w

/-- The result of a publication can be told from its calls. -/
theorem result_publishData (run : Conduct κ γ η δ σ) (p : PubSub κ γ η) (channel : γ)
    (data : List δ) (s : σ) :
    (publishData run p channel data s).result =
      verdict ((called run p channel data s).findSome? Call.failure?) := by
  rw [called_eq_callsOf]
  exact result_runAll _ channel data none _ s

/-- The handlers on the channel are called, in ascending order of subscribers. -/
theorem map_id_called (run : Conduct κ γ η δ σ) (p : PubSub κ γ η) (channel : γ) (data : List δ)
    (s : σ) : (called run p channel data s).map Call.id = p.subscribers channel := by
  have h := congrArg (List.map Prod.fst)
    (map_callsOf (fun id handler => run p id handler channel data) channel data
      (p.handlers channel).toList s)
  rw [List.map_map, List.map_map] at h
  rw [called_eq_callsOf]
  exact h

/-- Each is called with the channel and the data. -/
theorem mem_called {run : Conduct κ γ η δ σ} {p : PubSub κ γ η} {channel : γ} {data : List δ}
    {s : σ} {c : Call κ γ η δ} (h : c ∈ called run p channel data s) :
    (c.id, c.handler) ∈ (p.handlers channel).toList ∧ c.channel = channel ∧ c.data = data := by
  rw [called_eq_callsOf] at h
  have hmem := List.mem_map_of_mem (f := fun c => (c.id, c.handler, c.channel, c.data)) h
  rw [map_callsOf] at hmem
  obtain ⟨⟨id, handler⟩, hin, heq⟩ := List.mem_map.mp hmem
  simp only [Prod.mk.injEq] at heq
  obtain ⟨rfl, rfl, hchannel, hdata⟩ := heq
  exact ⟨hin, hchannel.symm, hdata.symm⟩

/-- A publication succeeds if none of its calls fails. -/
theorem result_publishData_eq_ok_iff (run : Conduct κ γ η δ σ) (p : PubSub κ γ η) (channel : γ)
    (data : List δ) (s : σ) :
    (publishData run p channel data s).result = .ok () ↔
      ∀ c ∈ called run p channel data s, c.outcome = .ok () := by
  have hfailure (c : Call κ γ η δ) : c.failure? = none ↔ c.outcome = .ok () := by
    cases h : c.outcome <;> simp [Call.failure?, h]
  rw [result_publishData]
  simp only [← hfailure, ← List.findSome?_eq_none_iff]
  cases (called run p channel data s).findSome? Call.failure? <;> simp [verdict]

/-- A publication fails with the failure of the least subscriber of whom one is due. -/
theorem result_publishData_eq_error_iff [Std.TransOrd κ] (run : Conduct κ γ η δ σ)
    (p : PubSub κ γ η) (channel : γ) (data : List δ) (s : σ) (e : Error) :
    (publishData run p channel data s).result = .error e ↔
      ∃ c ∈ called run p channel data s, c.outcome = .error e ∧
        ∀ b ∈ called run p channel data s, compare b.id c.id = .lt → b.outcome = .ok () := by
  have hfailure (c : Call κ γ η δ) : c.failure? = some e ↔ c.outcome = .error e := by
    cases h : c.outcome <;> simp [Call.failure?, h]
  have hnone (c : Call κ γ η δ) : c.failure? = none ↔ c.outcome = .ok () := by
    cases h : c.outcome <;> simp [Call.failure?, h]
  have hascending : (called run p channel data s).Pairwise fun a b => compare a.id b.id = .lt := by
    have := Entries.pairwise_keys (p.handlers channel)
    rwa [← subscribers, ← map_id_called run p channel data s, List.pairwise_map] at this
  rw [result_publishData]
  generalize called run p channel data s = calls at hascending ⊢
  have hverdict : verdict (calls.findSome? Call.failure?) = .error e ↔
      calls.findSome? Call.failure? = some e := by
    cases calls.findSome? Call.failure? <;> simp [verdict]
  -- The calls ascend, so those before the first failure are those of lesser subscribers.
  rw [hverdict, List.findSome?_eq_some_iff]
  constructor
  · rintro ⟨earlier, c, later, rfl, hc, hearlier⟩
    refine ⟨c, by simp, (hfailure c).mp hc, ?_⟩
    intro b hb hlt
    rcases List.mem_append.mp hb with hb | hb
    · exact (hnone b).mp (hearlier b hb)
    · -- Whoever comes later is not less.
      exfalso
      obtain ⟨hlater, -⟩ := List.pairwise_cons.mp (List.pairwise_append.mp hascending).2.1
      rcases List.mem_cons.mp hb with rfl | hb
      · simp at hlt
      · have := Std.TransCmp.lt_trans (hlater b hb) hlt
        simp at this
  · rintro ⟨c, hc, hfail, hless⟩
    obtain ⟨earlier, later, rfl⟩ := List.append_of_mem hc
    refine ⟨earlier, c, later, rfl, (hfailure c).mpr hfail, ?_⟩
    intro b hb
    have hlt := (List.pairwise_append.mp hascending).2.2 b hb c List.mem_cons_self
    exact (hnone b).mpr (hless b (List.mem_append_left _ hb) hlt)

end Publishing

/-! ## Demands -/

/-- What is asked of subscriptions. -/
inductive Demand (κ γ η δ : Type)
  | subscribe (id : κ) (channel : γ) (handler : η)
  | unsubscribe (id : κ) (channel : γ)
  | publish (channel : γ) (data : List δ)

section Serving

variable [Std.TransOrd κ] [Std.TransOrd γ] [Shown κ] [Shown γ]

/-- The answer to a demand, and what it leaves behind. -/
def serve (run : Conduct κ γ η δ σ) : Demand κ γ η δ → Act (PubSub κ γ η × σ) Unit
  | .subscribe id channel handler =>
    (PubSub.subscribe id channel handler).within Prod.fst fun p s => (p, s.2)
  | .unsubscribe id channel =>
    (PubSub.unsubscribe id channel).within Prod.fst fun p s => (p, s.2)
  | .publish channel data => fun s =>
    (publishData run s.1 channel data).within Prod.snd (fun t s => (s.1, t)) s

/-- What demands leave behind, one after the other. -/
def serveAll (run : Conduct κ γ η δ σ) (s : PubSub κ γ η × σ) (ds : List (Demand κ γ η δ)) :
    PubSub κ γ η × σ :=
  ds.foldl (fun s d => (serve run d s).state) s

/-- Demands with their results, one after the other. -/
def history (run : Conduct κ γ η δ σ) (s : PubSub κ γ η × σ) :
    List (Demand κ γ η δ) → List (Demand κ γ η δ × Except Error Unit)
  | [] => []
  | d :: ds => (d, (serve run d s).result) :: history run (serve run d s).state ds

end Serving

/-! ## What is held -/

/-- What is held after one more demand with its result: a pair whose last successful operation was
to subscribe is held with the handler given then. -/
def hold {κ γ : Type} [DecidableEq κ] [DecidableEq γ] (held : κ → γ → Option η) :
    Demand κ γ η δ × Except Error Unit → κ → γ → Option η
  | (.subscribe id channel handler, .ok _) =>
    fun i c => if i = id ∧ c = channel then some handler else held i c
  | (.unsubscribe id channel, .ok _) =>
    fun i c => if i = id ∧ c = channel then none else held i c
  | _ => held

/-- What is held after demands with their results. -/
def replay {κ γ : Type} [DecidableEq κ] [DecidableEq γ] (held : κ → γ → Option η)
    (h : List (Demand κ γ η δ × Except Error Unit)) : κ → γ → Option η :=
  h.foldl hold held

/-- The table lists exactly what is held. -/
structure Shows (p : PubSub κ γ η) (held : κ → γ → Option η) : Prop where
  /-- Each held pair has its handler. -/
  handlers : ∀ id channel, (p.handlers channel).find? id = held id channel
  /-- The subscribers of the held pairs are listed in ascending order, and no others. -/
  subscribers : ∀ id channel, id ∈ p.subscribers channel ↔ (held id channel).isSome
  ascending : ∀ channel, (p.subscribers channel).Pairwise fun a b => compare a b = .lt
  /-- The channels of the held pairs are listed in ascending order, and no others. -/
  channels : ∀ channel, channel ∈ p.channels ↔ ∃ id, (held id channel).isSome
  ascendingChannels : p.channels.Pairwise fun a b => compare a b = .lt

/-- The answer to a demand is told by what is held. -/
def Answers [Std.TransOrd κ] [Std.TransOrd γ] [Shown κ] [Shown γ] (run : Conduct κ γ η δ σ)
    (s : PubSub κ γ η × σ) (held : κ → γ → Option η) (d : Demand κ γ η δ) : Prop :=
  let o := serve run d s
  match d with
  | .subscribe id channel _ =>
    match held id channel with
    | some _ => o.result = .error (.duplicateSubscription id channel) ∧ o.state = s
    | none => o.result = .ok ()
  | .unsubscribe id channel =>
    match held id channel with
    | some _ => o.result = .ok ()
    | none => o.result = .error (.subscriptionNotFound id channel) ∧ o.state = s
  | .publish channel data =>
    let calls := called run s.1 channel data s.2
    publishData run.watched s.1 channel data ⟨s.2, []⟩ =
        ⟨o.result, ⟨o.state.2, calls⟩, o.notes⟩ ∧
      o.state.1 = s.1 ∧
      calls.map Call.id = s.1.subscribers channel ∧
      (∀ c ∈ calls, held c.id channel = some c.handler ∧ c.channel = channel ∧ c.data = data) ∧
      (o.result = .ok () ↔ ∀ c ∈ calls, c.outcome = .ok ()) ∧
      ∀ e, o.result = .error e ↔
        ∃ c ∈ calls, c.outcome = .error e ∧
          ∀ b ∈ calls, compare b.id c.id = .lt → b.outcome = .ok ()

/-- The table stands for what is held, and keeps no channel without subscribers. -/
structure Stands (p : PubSub κ γ η) (held : κ → γ → Option η) : Prop where
  handlers : ∀ id channel, (p.handlers channel).find? id = held id channel
  tight : ∀ channel hs, p.table.find? channel = some hs → hs.isEmpty = false

/-- Nothing is held in the beginning. -/
theorem stands_empty : Stands (empty : PubSub κ γ η) fun _ _ => none where
  handlers := fun _ _ => rfl
  tight := fun _ _ h => nomatch h

variable {p : PubSub κ γ η} {held : κ → γ → Option η} [Std.TransOrd κ] [Std.TransOrd γ]
  [Std.LawfulEqOrd κ]

/-- What is held tells the answer to every demand. -/
theorem Stands.answers [Shown κ] [Shown γ] (run : Conduct κ γ η δ σ) {s : PubSub κ γ η × σ}
    (h : Stands s.1 held) (d : Demand κ γ η δ) : Answers run s held d := by
  have hsubscribed (id : κ) (channel : γ) :
      s.1.isSubscribed id channel = (held id channel).isSome := by
    rw [isSubscribed, Entries.contains, h.handlers]
  cases d with
  | subscribe id channel handler =>
    simp only [Answers, serve, Act.within, subscribe_apply, hsubscribed]
    cases held id channel <;> simp
  | unsubscribe id channel =>
    simp only [Answers, serve, Act.within, unsubscribe_apply, hsubscribed]
    cases held id channel <;> simp
  | publish channel data =>
    refine ⟨publish_watched run s.1 channel data ⟨s.2, []⟩, rfl,
      map_id_called run s.1 channel data s.2, ?_,
      result_publishData_eq_ok_iff run s.1 channel data s.2,
      result_publishData_eq_error_iff run s.1 channel data s.2⟩
    intro c hc
    -- A handler that was called is in the map of the channel, and the map holds what is told.
    obtain ⟨hmem, hchannel, hdata⟩ := mem_called hc
    rw [← h.handlers]
    exact ⟨Entries.find?_eq_some_iff_mem.mpr hmem, hchannel, hdata⟩

variable [Std.LawfulEqOrd γ]

/-- A table that stands for what is held lists it. -/
theorem Stands.shows (h : Stands p held) : Shows p held where
  handlers := h.handlers
  subscribers := by
    intro id channel
    rw [mem_subscribers, isSubscribed, Entries.contains, h.handlers]
  ascending := fun channel => Entries.pairwise_keys (p.handlers channel)
  channels := by
    intro channel
    rw [PubSub.channels, Entries.mem_keys_iff]
    constructor
    · intro hsome
      obtain ⟨hs, hfind⟩ := Option.isSome_iff_exists.mp hsome
      -- A channel is listed only as long as it has subscribers.
      have hne := h.tight channel hs hfind
      cases hs with
      | nil => cases hne
      | cons id handler above rest =>
        refine ⟨id, ?_⟩
        rw [← h.handlers, PubSub.handlers, hfind]
        simp [Entries.find?]
    · rintro ⟨id, hid⟩
      rw [← h.handlers, PubSub.handlers] at hid
      cases hfind : p.table.find? channel with
      | none =>
        rw [hfind] at hid
        cases hid
      | some hs => rfl
  ascendingChannels := Entries.pairwise_keys p.table

section Steps

variable [DecidableEq κ] [DecidableEq γ]

/-- Who subscribes is held from then on. -/
theorem Stands.subscribed (h : Stands p held) (id : κ) (channel : γ) (handler : η) :
    Stands (p.subscribed id channel handler)
      fun i c => if i = id ∧ c = channel then some handler else held i c where
  handlers := by
    intro i c
    rw [handlers_subscribed]
    by_cases hc : c = channel
    · subst hc
      by_cases hi : i = id <;> simp [Entries.find?_insert, hi, h.handlers]
    · simp [hc, h.handlers]
  tight := by
    intro c hs hfind
    simp only [PubSub.subscribed, Entries.find?_insert] at hfind
    split at hfind
    · cases hfind
      -- The channel holds the new handler now, so it cannot be empty.
      cases hempty : ((p.handlers channel).insert id handler).isEmpty with
      | false => rfl
      | true =>
        have hnone := congrArg (Entries.find? id) (Entries.eq_nil_of_isEmpty hempty)
        simp [Entries.find?_insert] at hnone
    · exact h.tight c hs hfind

/-- Who unsubscribes is held no longer. -/
theorem Stands.unsubscribed (h : Stands p held) (id : κ) (channel : γ) :
    Stands (p.unsubscribed id channel)
      fun i c => if i = id ∧ c = channel then none else held i c where
  handlers := by
    intro i c
    rw [handlers_unsubscribed]
    by_cases hc : c = channel
    · subst hc
      by_cases hi : i = id <;> simp [Entries.find?_erase, hi, h.handlers]
    · simp [hc, h.handlers]
  tight := by
    intro c hs hfind
    simp only [PubSub.unsubscribed] at hfind
    split at hfind
    -- The channel has lost its last subscriber and goes with it, or it keeps the others.
    · rw [Entries.find?_erase] at hfind
      split at hfind
      · cases hfind
      · exact h.tight c hs hfind
    · rename_i hrest
      rw [Entries.find?_insert] at hfind
      split at hfind
      · cases hfind
        simpa using hrest
      · exact h.tight c hs hfind

variable [Shown κ] [Shown γ]

/-- What one demand does to the table, it does to what is held. -/
theorem stands_serve (run : Conduct κ γ η δ σ) {s : PubSub κ γ η × σ} (h : Stands s.1 held)
    (d : Demand κ γ η δ) :
    Stands (serve run d s).state.1 (hold held (d, (serve run d s).result)) := by
  cases d with
  | subscribe id channel handler =>
    simp only [serve, Act.within, subscribe_apply]
    split
    · exact h
    -- A refusal changes nothing, on either side.
    · exact h.subscribed id channel handler
  | unsubscribe id channel =>
    simp only [serve, Act.within, unsubscribe_apply]
    split
    · exact h.unsubscribed id channel
    · exact h
  | publish channel data => exact h

/-- What demands do to the table, they do to what is held. -/
theorem stands_serveAll (run : Conduct κ γ η δ σ) {s : PubSub κ γ η × σ} (h : Stands s.1 held)
    (ds : List (Demand κ γ η δ)) :
    Stands (serveAll run s ds).1 (replay held (history run s ds)) := by
  -- The first demand leads from one standing table to another.
  induction ds generalizing s held with
  | nil => exact h
  | cons d ds ih => exact ih (stands_serve run h d)

/-- After every run the table lists exactly the pairs whose last successful operation was to
subscribe, and these tell the answer to whatever is asked next. -/
theorem refines_history (run : Conduct κ γ η δ σ) (s : σ) (ds : List (Demand κ γ η δ))
    (d : Demand κ γ η δ) :
    let now := serveAll run (empty, s) ds
    let held := replay (fun _ _ => none) (history run (empty, s) ds)
    Shows now.1 held ∧ Answers run now held d := by
  intro now held
  have hstands : Stands now.1 held := stands_serveAll run stands_empty ds
  exact ⟨hstands.shows, hstands.answers run d⟩

end Steps

/-- A refused handler does not take the place of the one that is registered, a subscriber that was
removed is not called, and a failure does not keep the handlers behind it from being called. -/
theorem refines_history_refused :
    let run : Conduct Int Int (Except Error Unit) Int Unit := fun _ _ h _ _ => .ofExcept h
    let ds : List (Demand Int Int (Except Error Unit) Int) :=
      [.subscribe 3 0 (.ok ()), .subscribe 1 0 (.error (.internal "late")), .subscribe 2 0 (.ok ()),
        .subscribe 1 0 (.ok ()), .subscribe 2 5 (.ok ()), .unsubscribe 2 0, .unsubscribe 2 5]
    let now := serveAll run (empty, ()) ds
    let held := replay (fun _ _ => none) (history run (empty, ()) ds)
    (Shows now.1 held ∧ Answers run now held (.publish 0 [7])) ∧
      now.1.subscribers 0 = [1, 3] ∧ now.1.channels = [0] ∧
      (serve run (.publish 0 [7]) now).result = .error (.internal "late") ∧
      (called run now.1 0 [7] now.2).map Call.id = [1, 3] :=
  ⟨refines_history _ _ _ _, rfl, rfl, rfl, rfl⟩

end LayeredConfig.PubSub
