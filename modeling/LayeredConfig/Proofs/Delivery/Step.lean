import LayeredConfig.Config.Delivery
import LayeredConfig.Proofs.Delivery.Log

/-!
# What a step of a delivery does

At every moment some calls of observers are due: those of the round that is being delivered, and
those of the rounds that wait.  A step makes a call that is due, or applies a write and with it adds
the calls of one more round at the end, or changes nothing about the calls.

The lock admits one delivery at a time, so the stack has one of eight shapes, and never two calls.

## Key results

- `Config.state_enact`: what a write makes of a configuration
- `Thread.moves_write`: what a write does to the calls that are due
- `Thread.moves_step`: what a step does
- `Thread.Moves.trans`: what steps do one after the other
-/

namespace LayeredConfig

/-! ## Calls that are due -/

namespace Config

variable (observers : PubSub String String Observer)

/-- The calls about a path that a round makes due: none if the values there are equal. -/
def callsAt (round : Round) (path : String) : List (String × String × Change) :=
  let change : Change := ⟨path, round.before.get? path, round.after.get? path⟩
  if change.old == change.new then []
  else (observers.subscribers path).map fun id => (id, path, change)

/-- The calls that a round makes due, path by path. -/
def callsOf (round : Round) : List (String × String × Change) :=
  observers.channels.flatMap (callsAt observers round)

end Config

/-- The calls that a frame has still to make. -/
def Frame.owed (observers : PubSub String String Observer) :
    Frame → List (String × String × Change)
  | .notify round paths => paths.flatMap (Config.callsAt observers round)
  | .publish p => p.rest.map fun o => (o.1, p.path, p.change)
  | .call _ _ p => p.rest.map fun o => (o.1, p.path, p.change)
  | _ => []

/-- Whether a frame is a call of an observer. -/
def Frame.isCall : Frame → Bool
  | .call _ _ _ => true
  | _ => false

namespace Thread

/-- The calls that are due, in order. -/
def owed (t : Thread) : List (String × String × Change) :=
  t.stack.flatMap (Frame.owed t.config.observers) ++
    t.config.pending.flatMap (Config.callsOf t.config.observers)

/-- Whether a call of an observer goes on. -/
def calling (t : Thread) : Bool := t.stack.any Frame.isCall

/-! ## Coherent threads -/

/-- The stacks that occur, with the lock and the queue. -/
inductive Shape : Bool → List Round → List Frame → Prop
  | idle : Shape false [] []
  | dispatching {queue : List Round} : Shape false queue [.dispatch]
  | draining {queue : List Round} : Shape true queue [.drain]
  | leaving : Shape false [] [.leave]
  | notifying {queue : List Round} (round : Round) (paths : List String) :
      Shape true queue [.notify round paths, .drain]
  | publishing {queue : List Round} (p : Publication) (round : Round) (paths : List String) :
      Shape true queue [.publish p, .notify round paths, .drain]
  | calling {queue : List Round} (id : String) (reaction : Reaction) (p : Publication)
      (round : Round) (paths : List String) :
      Shape true queue [.call id reaction p, .notify round paths, .drain]
  /-- A write in a call finds the lock held. -/
  | nested {queue : List Round} (id : String) (reaction : Reaction) (p : Publication)
      (round : Round) (paths : List String) :
      Shape true queue [.dispatch, .call id reaction p, .notify round paths, .drain]

/-- The view is that of the registry, and the stack has one of its shapes. -/
structure Coherent (t : Thread) : Prop where
  view : t.config.merged = t.config.registry.merged
  shape : Shape t.config.dispatching t.config.pending t.stack

/-- When nothing is under way, no round waits and the lock is free. -/
theorem Coherent.idle {t : Thread} (h : t.Coherent) (hidle : t.stack = []) :
    t.config.dispatching = false ∧ t.config.pending = [] := by
  have hshape := h.shape
  rw [hidle] at hshape
  generalize t.config.dispatching = lock, t.config.pending = queue at hshape ⊢
  cases hshape
  exact ⟨rfl, rfl⟩

/-- When nothing is under way, no calls are due. -/
theorem Coherent.owed_eq_nil {t : Thread} (h : t.Coherent) (hidle : t.stack = []) :
    t.owed = [] := by
  simp [owed, hidle, (h.idle hidle).2]

/-! ## Moves -/

/-- What happens on the way from one thread to another, as far as it concerns the writes: a replay
explains it and comes to the same registry. -/
structure Replays (t u : Thread) (log : List Note) : Prop where
  notes : u.notes = t.notes ++ log
  registry : u.config.registry = t.config.registry.after (Log.writes log)
  explained : t.config.registry.Explains log

/-- A replay of some writes goes on with a replay of others. -/
theorem Replays.trans {t u v : Thread} {a b : List Note} (h : Replays t u a)
    (h' : Replays u v b) : Replays t v (a ++ b) where
  notes := by rw [h'.notes, h.notes, List.append_assoc]
  registry := by rw [h'.registry, h.registry, Log.writes_append, Registry.after_append]
  explained := (Registry.explains_append _ _ _).mpr ⟨h.explained, h.registry ▸ h'.explained⟩

/-- What happens besides as far as it concerns the calls of observers. -/
structure Moves (t u : Thread) (log : List Note) : Prop extends Replays t u log where
  observers : u.config.observers = t.config.observers
  /-- The calls that were due are made or still due, and those of new rounds come behind. -/
  calls : Log.begun log ++ u.owed =
    t.owed ++ (t.config.registry.rounds (Log.writes log)).flatMap
      (Config.callsOf t.config.observers)
  calling : Log.going t.calling log = some u.calling

/-- To stay is to move nowhere. -/
theorem Moves.refl (t : Thread) : Moves t t [] where
  notes := (List.append_nil _).symm
  registry := rfl
  explained := trivial
  observers := rfl
  calls := (List.append_nil _).symm
  calling := rfl

/-- Two moves make one. -/
theorem Moves.trans {t u v : Thread} {a b : List Note} (h : Moves t u a) (h' : Moves u v b) :
    Moves t v (a ++ b) where
  toReplays := h.toReplays.trans h'.toReplays
  observers := h'.observers.trans h.observers
  calls := by
    -- What is due in between is what the first part leaves and the second finds.
    have hb := h'.calls
    rw [h.observers, h.registry] at hb
    rw [Log.begun_append, List.append_assoc, hb, ← List.append_assoc, h.calls,
      Log.writes_append, Registry.rounds_append, List.flatMap_append, List.append_assoc]
  calling := by rw [Log.going_append, h.calling, Option.bind_some, h'.calling]

/-- A move without writes. -/
theorem Moves.quiet {t u : Thread} {log : List Note} (hnotes : u.notes = t.notes ++ log)
    (hwrites : Log.writes log = []) (hregistry : u.config.registry = t.config.registry)
    (hobservers : u.config.observers = t.config.observers)
    (hexplained : t.config.registry.Explains log) (hcalls : Log.begun log ++ u.owed = t.owed)
    (hcalling : Log.going t.calling log = some u.calling) : Moves t u log where
  notes := hnotes
  registry := by rw [hwrites, hregistry, Registry.after_nil]
  observers := hobservers
  explained := hexplained
  calls := by rw [hwrites, hcalls]; simp [Registry.rounds]
  calling := hcalling

/-- A move of which nothing is noted. -/
theorem Moves.silent {t u : Thread} (hnotes : u.notes = t.notes)
    (hregistry : u.config.registry = t.config.registry)
    (hobservers : u.config.observers = t.config.observers) (hcalls : u.owed = t.owed)
    (hcalling : u.calling = t.calling) : Moves t u [] :=
  .quiet (by rw [hnotes, List.append_nil]) rfl hregistry hobservers trivial hcalls
    (by rw [hcalling]; rfl)

end Thread

/-! ## Writes -/

namespace Config

/-- A write that does something replaces the registry and the view and queues a round. -/
theorem enact_of_answer {w : Write} {c : Config} (h : c.registry.answer w = .ok true) :
    enact w c = ⟨.ok true, c.rebuild (c.registry.next w),
      .deed (.wrote w (.ok true)) :: (writeEvent? w).toList.map .event⟩ := by
  simp only [enact, Registry.apply_of_answer h]

/-- A write that does nothing only notes its answer. -/
theorem enact_of_answer_ne {w : Write} {c : Config} (h : c.registry.answer w ≠ .ok true) :
    enact w c = ⟨c.registry.answer w, c, [.deed (.wrote w (c.registry.answer w))]⟩ := by
  unfold Registry.answer at h ⊢
  unfold enact
  cases hr : c.registry.apply w with
  | error e => rfl
  | ok r? =>
    cases r? with
    | none => rfl
    | some r' => exact absurd (by rw [hr]; rfl) h

/-- A writer is told what the registry answers. -/
theorem result_enact (w : Write) (c : Config) : (enact w c).result = c.registry.answer w := by
  by_cases h : c.registry.answer w = .ok true
  · rw [enact_of_answer h, h]
  · rw [enact_of_answer_ne h]

/-- A write is noted with its answer, and else only events are noted. -/
theorem notes_enact (w : Write) (c : Config) :
    ∃ es : List Event,
      (enact w c).notes = .deed (.wrote w (c.registry.answer w)) :: es.map .event := by
  -- Only what was done is reported by an event as well.
  by_cases h : c.registry.answer w = .ok true
  · rw [enact_of_answer h, h]
    exact ⟨_, rfl⟩
  · rw [enact_of_answer_ne h]
    exact ⟨[], rfl⟩

/-- Of its notes exactly one is about a write, its own. -/
@[simp] theorem writes_notes_enact (w : Write) (c : Config) : Log.writes (enact w c).notes = [w] := by
  obtain ⟨es, hes⟩ := notes_enact w c
  simp [hes, Log.writes, Log.write?]

/-- What a write does to a configuration: its round goes behind those that wait. -/
theorem state_enact {c : Config} (hview : c.merged = c.registry.merged) (w : Write) :
    (enact w c).state =
      { c with
        registry := c.registry.next w
        merged := (c.registry.next w).merged
        pending := c.pending ++ c.registry.roundOf w } := by
  by_cases h : c.registry.answer w = .ok true
  · rw [enact_of_answer h, Registry.roundOf_of_answer h, ← hview]
    rfl
  -- A write that does nothing leaves even the view, which is the merged one.
  · rw [enact_of_answer_ne h, Registry.roundOf_of_answer_ne h, Registry.next_of_answer_ne h,
      ← hview, List.append_nil]

end Config

namespace Thread

/-- The delivery that a write begins: none if there was nothing to do. -/
def onset : Except Error Bool → List Frame
  | .ok true => [.dispatch]
  | _ => []

/-- A delivery is begun on top of what the writer goes on with. -/
theorem stack_write (w : Write) (resume : Except Error Bool → List Frame) (t : Thread) :
    (t.write w resume).stack =
      onset (t.config.registry.answer w) ++ resume (t.config.registry.answer w) := by
  have hresult := Config.result_enact w t.config
  simp only [write, hresult]
  rcases t.config.registry.answer w with e | (_ | _) <;> rfl

/-- A delivery that only begins has no calls to make yet. -/
@[simp] theorem flatMap_owed_onset (observers : PubSub String String Observer)
    (result : Except Error Bool) : (onset result).flatMap (Frame.owed observers) = [] := by
  unfold onset
  split <;> rfl

@[simp] theorem any_isCall_onset (result : Except Error Bool) :
    (onset result).any Frame.isCall = false := by
  unfold onset
  split <;> rfl

/-- A write is applied at once, and its round goes behind all that is due. -/
theorem moves_write {t : Thread} (hview : t.config.merged = t.config.registry.merged) (w : Write)
    (resume : Except Error Bool → List Frame)
    (howed : ∀ result, (resume result).flatMap (Frame.owed t.config.observers) =
      t.stack.flatMap (Frame.owed t.config.observers))
    (hcalling : ∀ result, (resume result).any Frame.isCall = t.calling) :
    Moves t (t.write w resume) (Config.enact w t.config).notes := by
  have hstate : (t.write w resume).config = _ := Config.state_enact hview w
  have hstack := stack_write w resume t
  obtain ⟨es, hes⟩ := Config.notes_enact w t.config
  exact {
    notes := rfl
    registry := by rw [hstate, Config.writes_notes_enact]; rfl
    explained := by simp [hes, Registry.Explains]
    observers := by rw [hstate]
    calls := by
      -- No call begins in the write, so all that was due is due still, and its round comes behind.
      have hbegun : Log.begun (Config.enact w t.config).notes = [] := by simp [hes, Log.begun?]
      rw [hbegun, Config.writes_notes_enact, Registry.rounds_singleton, owed, owed, hstack, hstate]
      simp [howed]
    calling := by
      have hgoing : Log.going t.calling (Config.enact w t.config).notes = some t.calling := by
        simp [hes, Log.going]
      rw [hgoing, calling.eq_def (t.write w resume), hstack]
      simp [hcalling] }

/-- After a write the view is that of the registry again. -/
theorem view_write {t : Thread} (hview : t.config.merged = t.config.registry.merged) (w : Write)
    (resume : Except Error Bool → List Frame) :
    (t.write w resume).config.merged = (t.write w resume).config.registry.merged := by
  have hstate : (t.write w resume).config = _ := Config.state_enact hview w
  rw [hstate]

/-! ## Steps -/

/-- The lock is held while rounds are delivered. -/
theorem Coherent.dispatching {t : Thread} (h : t.Coherent) (hdrain : Frame.drain ∈ t.stack) :
    t.config.dispatching = true := by
  have hshape := h.shape
  generalize t.config.dispatching = lock, t.config.pending = queue, t.stack = stack
    at hshape hdrain
  cases hshape <;> first | rfl | simp at hdrain

/-- To deliver what waits is to take the oldest round, or to release the lock. -/
theorem moves_drain {t : Thread} (h : t.Coherent) (hstack : t.stack = [.drain]) :
    Moves t t.step [] ∧ t.step.Coherent := by
  obtain ⟨c, stack, notes⟩ := t
  obtain rfl : stack = _ := hstack
  have hlock : c.dispatching = true := h.dispatching (by simp)
  have hview := h.view
  cases hc : c.pending with
  | nil =>
    have hstep : step ⟨c, [.drain], notes⟩ =
        ⟨{ c with dispatching := false }, [.leave], notes⟩ := by simp [step, hc]
    rw [hstep]
    refine ⟨.silent rfl rfl rfl rfl rfl, hview, ?_⟩
    simp only [hc]
    exact .leaving
  | cons round later =>
    -- The calls of the oldest round were due as waiting, and are due as being delivered now.
    have hstep : step ⟨c, [.drain], notes⟩ =
        ⟨{ c with pending := later }, [.notify round c.observers.channels, .drain], notes⟩ := by
      simp [step, hc]
    rw [hstep]
    refine ⟨.silent rfl rfl rfl ?_ rfl, hview, ?_⟩
    · simp [owed, Frame.owed, hc, Config.callsOf]
    · simp only [hlock]
      exact .notifying _ _

/-- To tell about a round is to begin a publication about the next path where the values differ. -/
theorem moves_notify {t : Thread} (h : t.Coherent) {round : Round} {paths : List String}
    (hstack : t.stack = [.notify round paths, .drain]) :
    Moves t t.step [] ∧ t.step.Coherent := by
  obtain ⟨c, stack, notes⟩ := t
  obtain rfl : stack = _ := hstack
  have hlock : c.dispatching = true := h.dispatching (by simp)
  have hview := h.view
  cases paths with
  | nil =>
    refine ⟨.silent rfl rfl rfl rfl rfl, hview, ?_⟩
    simp only [step, hlock]
    exact .draining
  | cons path paths =>
    by_cases heq : (round.before.get? path == round.after.get? path) = true
    -- Equal values make no call due.
    · have hstep : step ⟨c, [.notify round (path :: paths), .drain], notes⟩ =
          ⟨c, [.notify round paths, .drain], notes⟩ := by simp [step, heq]
      rw [hstep]
      refine ⟨.silent rfl rfl rfl ?_ rfl, hview, ?_⟩
      · simp [owed, Frame.owed, Config.callsAt, heq]
      · simp only [hlock]
        exact .notifying _ _
    -- The calls at this path are those of its subscribers, in the order of their ids.
    · have hstep : step ⟨c, [.notify round (path :: paths), .drain], notes⟩ =
          ⟨c, [.publish ⟨path, ⟨path, round.before.get? path, round.after.get? path⟩,
            (c.observers.handlers path).toList, none⟩, .notify round paths, .drain], notes⟩ := by
        simp [step, heq]
      rw [hstep]
      refine ⟨.silent rfl rfl rfl ?_ rfl, hview, ?_⟩
      · simp [owed, Frame.owed, Config.callsAt, heq, PubSub.subscribers, Entries.keys]
      · simp only [hlock]
        exact .publishing _ _ _

/-- To go on with a publication is to begin the next call, or to report and come to the end. -/
theorem moves_publish {t : Thread} (h : t.Coherent) {p : Publication} {round : Round}
    {paths : List String} (hstack : t.stack = [.publish p, .notify round paths, .drain]) :
    ∃ log, Moves t t.step log ∧ t.step.Coherent := by
  obtain ⟨c, stack, notes⟩ := t
  obtain rfl : stack = _ := hstack
  have hlock : c.dispatching = true := h.dispatching (by simp)
  have hview := h.view
  obtain ⟨path, change, rest, failure⟩ := p
  cases rest with
  | nil =>
    refine ⟨_, .quiet rfl ?_ rfl rfl ?_ ?_ ?_, hview, ?_⟩
    · simp
    · simp
    · simp [owed, step, Frame.owed]
    · simp [calling, step, Frame.isCall]
    · simp only [step, hlock]
      exact .notifying _ _
  | cons o rest =>
    obtain ⟨id, observer⟩ := o
    -- The call that begins is noted, and no longer due.
    refine ⟨_, .quiet rfl rfl rfl rfl trivial rfl rfl, hview, ?_⟩
    simp only [step, hlock]
    exact .calling _ _ _ _ _

/-- To go on with a call is to do what the observer wants done next. -/
theorem moves_call {t : Thread} (h : t.Coherent) {id : String} {reaction : Reaction}
    {p : Publication} {round : Round} {paths : List String}
    (hstack : t.stack = [.call id reaction p, .notify round paths, .drain]) :
    ∃ log, Moves t t.step log ∧ t.step.Coherent := by
  obtain ⟨c, stack, notes⟩ := t
  obtain rfl : stack = _ := hstack
  have hlock : c.dispatching = true := h.dispatching (by simp)
  have hview := h.view
  -- Only the last case writes, and the others note what the observer saw, if anything.
  cases reaction with
  | finish outcome =>
    refine ⟨_, .quiet rfl ?_ rfl rfl ?_ ?_ ?_, hview, ?_⟩
    · simp [Log.writes, Log.write?]
    · simp [Registry.Explains]
    · simp [Log.begun?, owed, step, react, Frame.owed]
    · simp [Log.going, calling, step, react, Frame.isCall]
    · simp only [step, react, hlock]
      exact .publishing _ _ _
  | look next =>
    refine ⟨_, .quiet rfl rfl rfl rfl ⟨hview, trivial⟩ rfl rfl, hview, ?_⟩
    simp only [step, react, hlock]
    exact .calling _ _ _ _ _
  | survey next =>
    refine ⟨_, .quiet rfl rfl rfl rfl ⟨rfl, trivial⟩ rfl rfl, hview, ?_⟩
    simp only [step, react, hlock]
    exact .calling _ _ _ _ _
  | remember next =>
    refine ⟨[], .silent rfl rfl rfl rfl rfl, hview, ?_⟩
    simp only [step, react, hlock]
    exact .calling _ _ _ _ _
  | write w next =>
    have hmoves := moves_write hview w
      (fun result => [.call id (next result) p, .notify round paths, .drain])
      (fun _ => rfl) (fun _ => rfl)
    refine ⟨_, hmoves, view_write hview w _, ?_⟩
    -- The lock stays held, and a nested delivery begins only if a round was queued.
    simp only [step, react, stack_write]
    simp only [write, Config.state_enact hview, hlock, onset]
    split
    · exact .nested _ _ _ _ _
    · exact .calling _ _ _ _ _

/-- What a step does, and that it keeps a thread coherent. -/
theorem moves_step {t : Thread} (h : t.Coherent) :
    ∃ log, Moves t t.step log ∧ t.step.Coherent := by
  have hshape := h.shape
  generalize hlock : t.config.dispatching = lock, hqueue : t.config.pending = queue,
    hstack : t.stack = stack at hshape
  -- One case for each shape of the stack.
  cases hshape with
  | idle =>
    have hstep : t.step = t := by simp [step, hstack]
    rw [hstep]
    exact ⟨[], .refl t, h⟩
  | dispatching =>
    -- The lock is free, so the delivery begins.
    have hstep : t.step =
        { t with config := { t.config with dispatching := true }, stack := [.drain] } := by
      simp [step, hstack, hlock]
    rw [hstep]
    refine ⟨[], .silent rfl rfl rfl ?_ ?_, h.view, .draining⟩
    · simp [owed, hstack, Frame.owed]
    · simp [calling, hstack, Frame.isCall]
  | draining => exact ⟨[], moves_drain h hstack⟩
  | leaving =>
    have hstep : t.step = { t with stack := [] } := by simp [step, hstack, hqueue]
    rw [hstep]
    refine ⟨[], .silent rfl rfl rfl ?_ ?_, h.view, ?_⟩
    · simp [owed, hstack, Frame.owed]
    · simp [calling, hstack, Frame.isCall]
    · simp only [hlock, hqueue]
      exact .idle
  | notifying round paths => exact ⟨[], moves_notify h hstack⟩
  | publishing p round paths => exact moves_publish h hstack
  | calling id reaction p round paths => exact moves_call h hstack
  | nested id reaction p round paths =>
    -- The lock is held by the delivery below, which will find the round in the queue.
    have hstep : t.step =
        { t with stack := [.call id reaction p, .notify round paths, .drain] } := by
      simp [step, hstack, hlock]
    rw [hstep]
    refine ⟨[], .silent rfl rfl rfl ?_ ?_, h.view, ?_⟩
    · simp [owed, hstack, Frame.owed]
    · simp [calling, hstack, Frame.isCall]
    · simp only [hlock]
      exact .calling _ _ _ _ _

end Thread
end LayeredConfig
