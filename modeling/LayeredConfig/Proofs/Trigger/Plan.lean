import LayeredConfig.Proofs.Trigger.Course
import LayeredConfig.Trigger.Timeline
import Mathlib.Algebra.BigOperators.Intervals
import Mathlib.Algebra.Order.BigOperators.Group.Finset

/-!
# The plan of a trigger

Delay and handler of a trigger tell when each of its runs is due, and which run is the last one.
What a timer is at some time follows from its plan and from when it was closed.

## Key results

- `Plan.due_succ`: each run is due a delay behind the end of the run in front of it
- `Plan.Stage.close`, `Plan.Stage.ranOut`: what happens to a timer leads to its next stage
- `Plan.Stage.starts_iff`: the runs that a timer counts are those that are due by now
- `Plan.Stage.isRunning_iff`: until when a trigger is running
-/

namespace LayeredConfig

/-! ## Timers -/

namespace Timer

variable (τ : Timer) (now : Nat)

/-- What the trigger was armed with, as it stays for ever. -/
def make : String × Nat × (Nat → Run) := (τ.id, τ.delay, τ.handler)

/-- The timer when its trigger was closed. -/
def closed : Timer := { τ with trigger := τ.trigger.close.2 }

/-- The timer when its task began to wait. -/
def entered : Timer := { τ with trigger := τ.trigger.enter, deadline := some (now + τ.delay) }

/-- The timer when a wait ended. -/
def waited (signal : Trigger.Signal) : Timer :=
  { τ with
    trigger := τ.trigger.endWait signal
    deadline := some (now + (τ.handler (τ.trigger.endWait signal).runs).duration) }

/-- The timer when a run ended. -/
def ranOut : Timer :=
  { τ with
    trigger := τ.trigger.endRun (τ.handler τ.trigger.runs).outcome
    deadline := some (now + τ.delay) }

/-- Whether nothing has to be told to the task: it is not new, and no wake-up waits for it. -/
def Calm : Prop :=
  τ.trigger.task ≠ .spawned ∧
    ¬(τ.trigger.task = .waiting ∧ τ.trigger.wakeUp = true ∧ τ.trigger.state = .closed)

/-- Whether nothing is due for the timer by now. -/
def Ahead : Prop := ∀ d ∈ Timeline.pendingDeadline? τ, now < d

variable {τ now}

/-- A timer is made of its id, its delay and its handler. -/
theorem make_eq_iff {id : String} {delay : Nat} {handler : Nat → Run} :
    τ.make = (id, delay, handler) ↔ τ.id = id ∧ τ.delay = delay ∧ τ.handler = handler := by
  simp [make]

/-- What is not due by now is ahead. -/
theorem Ahead.of_not_due (h : ¬τ.deadline.any (· ≤ now) = true) : τ.Ahead now := by
  intro d hd
  simp only [Timeline.pendingDeadline?, Option.mem_def, Option.ite_none_left_eq_some] at hd
  simpa [hd.2] using h

/-- What has a later deadline is ahead. -/
theorem Ahead.of_deadline {d : Nat} (h : τ.deadline = some d) (hlt : now < d) : τ.Ahead now :=
  .of_not_due (by simpa [h] using hlt)

/-- Nothing is due for a task that is done. -/
theorem Ahead.of_finished (h : τ.trigger.task = .finished) : τ.Ahead now := by
  intro d hd
  simp [Timeline.pendingDeadline?, h] at hd

/-- Nothing has to be told to a task that is done. -/
theorem Calm.of_finished (h : τ.trigger.task = .finished) : τ.Calm := by
  simp [Calm, h]

/-- So it is while a run is going on. -/
theorem Calm.of_running (h : τ.trigger.task = .running) : τ.Calm := by
  simp [Calm, h]

end Timer

/-- A trigger that is armed when a clock starts. -/
structure Plan where
  kind : Trigger.Kind
  id : String
  delay : Nat
  /-- What the n-th run does, counted from one. -/
  handler : Nat → Run

namespace Plan

variable {p : Plan} {closed : Option Nat} {now later i j n : Nat} {τ : Timer}

/-- When the run of a number is due, counted from one: behind as many delays and all runs before. -/
def due (p : Plan) (i : Nat) : Nat :=
  i * p.delay + ∑ j ∈ Finset.Ico 1 i, (p.handler j).duration

/-- When a run is over that starts when it is due. -/
def finish (p : Plan) (i : Nat) : Nat := p.due i + (p.handler i).duration

/-- Whether no other run follows when a run is over, since it failed or is that of a pulse. -/
def Last (p : Plan) (i : Nat) : Prop :=
  p.kind = .pulse ∨ ∃ e, (p.handler i).outcome = .error e

/-- Whether a run closes the trigger when it starts. -/
def ClosesItself (p : Plan) (i : Nat) : Prop := (p.handler i).closes = some p.id

instance : Decidable (p.ClosesItself i) := inferInstanceAs (Decidable (_ = _))

/-- The last run of a plan ends with what is final for the trigger. -/
theorem isFinal_ended_iff (p : Plan) :
    (Trigger.Incident.ended (p.handler i).outcome).IsFinal p.kind ↔ p.Last i := by
  rw [Last]
  cases (p.handler i).outcome <;> simp [Trigger.Incident.IsFinal]

/-- A run that is not the last one is that of a recurring trigger and did not fail. -/
theorem not_last_iff (p : Plan) :
    ¬p.Last i ↔ p.kind = .recurring ∧ (p.handler i).outcome = .ok () := by
  rw [Last]
  cases p.kind <;> cases (p.handler i).outcome <;> simp

/-- Whether a run starts, if the holder closes the trigger at the time `closed`, or never: no run
before it was the last one, and the trigger was not closed before it is due. -/
def Starts (p : Plan) (closed : Option Nat) (i : Nat) : Prop :=
  1 ≤ i ∧ (∀ j, 1 ≤ j → j < i → ¬p.Last j ∧ ¬p.ClosesItself j) ∧ ∀ c ∈ closed, p.due i ≤ c

/-! ## Times -/

/-- The clock starts at zero. -/
theorem due_zero (p : Plan) : p.due 0 = 0 := by simp [due]

/-- The first run is due behind a delay. -/
theorem due_one (p : Plan) : p.due 1 = p.delay := by simp [due]

/-- Behind each run comes a delay. -/
theorem due_succ (p : Plan) (h : 1 ≤ i) : p.due (i + 1) = p.finish i + p.delay := by
  rw [finish, due, due, Finset.sum_Ico_succ_top h, Nat.add_one_mul]
  omega

/-- Later runs are due later. -/
theorem due_le_due (p : Plan) (h : i ≤ j) : p.due i ≤ p.due j := by
  have hdelays : i * p.delay ≤ j * p.delay := Nat.mul_le_mul_right _ h
  have hruns : ∑ k ∈ Finset.Ico 1 i, (p.handler k).duration ≤
      ∑ k ∈ Finset.Ico 1 j, (p.handler k).duration :=
    Finset.sum_le_sum_of_subset (Finset.Ico_subset_Ico_right h)
  exact Nat.add_le_add hdelays hruns

/-- No run is over before it is due. -/
theorem due_le_finish (p : Plan) (i : Nat) : p.due i ≤ p.finish i := Nat.le_add_right ..

/-- A run is due after the one before it is over. -/
theorem finish_lt_due (hdelay : 1 ≤ p.delay) (h : 1 ≤ i) : p.finish i < p.due (i + 1) := by
  rw [due_succ p h]
  omega

/-! ## Runs that start -/

/-- Where a run starts, all runs before it started too. -/
theorem Starts.of_le (h : p.Starts closed j) (hi : 1 ≤ i) (hij : i ≤ j) : p.Starts closed i := by
  obtain ⟨-, hbefore, hclosed⟩ := h
  exact ⟨hi, fun k hk hki => hbefore k hk (by omega),
    fun c hc => (p.due_le_due hij).trans (hclosed c hc)⟩

/-- A pulse has one run at most, which a closing in time prevents. -/
theorem starts_iff_of_pulse (hkind : p.kind = .pulse) :
    p.Starts closed i ↔ i = 1 ∧ ∀ c ∈ closed, p.delay ≤ c := by
  constructor
  · rintro ⟨hi, hbefore, hclosed⟩
    -- The first run of a pulse is the last one.
    obtain rfl : i = 1 := by
      by_contra hne
      exact (hbefore 1 le_rfl (by omega)).1 (.inl hkind)
    exact ⟨rfl, p.due_one ▸ hclosed⟩
  · rintro ⟨rfl, hclosed⟩
    exact ⟨le_rfl, fun j hj hlt => by omega, p.due_one.symm ▸ hclosed⟩

/-- The trigger is running at a time: nobody closed it, and of the runs that started by then none
closed it, and none was the last one and is over. -/
def RunsAt (p : Plan) (closed : Option Nat) (now : Nat) : Prop :=
  closed = none ∧ ∀ i, p.Starts closed i → p.due i ≤ now →
    ¬p.ClosesItself i ∧ (p.Last i → now < p.finish i)

/-- A pulse is running until its run is over. -/
theorem runsAt_iff_of_pulse (hkind : p.kind = .pulse) : p.RunsAt closed now ↔
    closed = none ∧
      (p.delay ≤ now → ¬p.ClosesItself 1 ∧ now < p.delay + (p.handler 1).duration) := by
  refine and_congr_right fun hclosed => ?_
  subst hclosed
  have hover : p.finish 1 = p.delay + (p.handler 1).duration := by rw [finish, p.due_one]
  simp only [starts_iff_of_pulse hkind]
  constructor
  · intro hall hdue
    obtain ⟨hself, hlast⟩ := hall 1 ⟨rfl, nofun⟩ (p.due_one.symm ▸ hdue)
    exact ⟨hself, hover ▸ hlast (.inl hkind)⟩
  · rintro hone i ⟨rfl, -⟩ hdue
    obtain ⟨hself, hlate⟩ := hone (p.due_one ▸ hdue)
    exact ⟨hself, fun _ => hover ▸ hlate⟩

/-! ## Stages -/

/-- What the holder and the task share: a state, unless the trigger was closed. -/
def lifecycle (state : Trigger.State) (closed : Bool) : Lifecycle :=
  if closed then ⟨.closed, true⟩ else ⟨state, false⟩

/-- A timer of the trigger. -/
def timer (p : Plan) (shared : Lifecycle) (task : Trigger.Task) (runs : Nat)
    (deadline : Option Nat) : Timer :=
  ⟨p.id, p.delay, p.handler, { toLifecycle := shared, kind := p.kind, task, runs }, deadline⟩

/-- So many runs started, and the trigger was not closed before the last of them. -/
structure Reached (p : Plan) (closed : Option Nat) (now n : Nat) : Prop where
  before : ∀ j, 1 ≤ j → j < n → ¬p.Last j ∧ ¬p.ClosesItself j
  started : p.due n ≤ now
  closing : ∀ c ∈ closed, p.due n ≤ c ∧ c ≤ now

/-- What a timer can be at some time, if the holder closed the trigger at the time `closed`. -/
inductive Stage (p : Plan) (closed : Option Nat) (now : Nat) : Timer → Prop
  | spawned (hnow : now = 0) (h : p.Reached closed now 0) :
      Stage p closed now (p.timer (lifecycle .armed closed.isSome) .spawned 0 none)
  | waiting {n : Nat} (h : p.Reached closed now n) (hmore : 1 ≤ n → ¬p.Last n ∧ ¬p.ClosesItself n)
      (hnow : now ≤ p.due (n + 1)) (hclosed : ∀ c ∈ closed, c < p.due (n + 1)) :
      Stage p closed now
        (p.timer (lifecycle .armed closed.isSome) .waiting n (some (p.due (n + 1))))
  | running {n : Nat} (hn : 1 ≤ n) (h : p.Reached closed now n) (hnow : now ≤ p.finish n) :
      Stage p closed now
        (p.timer (lifecycle .firing (closed.isSome || decide (p.ClosesItself n))) .running n
          (some (p.finish n)))
  | finished {n : Nat} {wakeUp : Bool} {deadline : Option Nat} (h : p.Reached closed now n)
      (hend : (1 ≤ n ∧ (p.ClosesItself n ∨ p.Last n) ∧ p.finish n ≤ now) ∨
        ∃ c ∈ closed, c < p.due (n + 1)) :
      Stage p closed now (p.timer ⟨.closed, wakeUp⟩ .finished n deadline)

/-- In all its stages the timer is made of the same. -/
theorem Stage.make_eq (h : p.Stage closed now τ) : τ.make = (p.id, p.delay, p.handler) := by
  cases h <;> rfl

/-- To close the timer closes what the holder and the task share. -/
theorem closed_timer {state : Trigger.State} (h : state ≠ .closed) (b : Bool) (task : Trigger.Task)
    (deadline : Option Nat) : (p.timer (lifecycle state b) task n deadline).closed =
      p.timer (lifecycle state true) task n deadline := by
  have hclose : (lifecycle state b).close.2 = lifecycle state true := by
    cases b <;> simp [lifecycle, Lifecycle.close, h]
  simp only [Timer.closed, timer, Trigger.close, hclose]

/-- It is open just where nobody closed it. -/
theorem open_lifecycle_iff {state : Trigger.State} (h : state ≠ .closed) {b : Bool} :
    (lifecycle state b).state ≠ .closed ↔ b = false := by
  cases b <;> simp [lifecycle, h]

namespace Reached

/-- An open trigger reaches its next run when that is due. -/
theorem next (h : p.Reached none now n) (hmore : 1 ≤ n → ¬p.Last n ∧ ¬p.ClosesItself n)
    (hdue : p.due (n + 1) ≤ now) : p.Reached none now (n + 1) := by
  refine ⟨fun j hj hlt => ?_, hdue, nofun⟩
  rcases (Nat.lt_succ_iff.mp hlt).eq_or_lt with rfl | hlt
  · exact hmore hj
  · exact h.before j hj hlt

/-- The number of runs does not change when the trigger is closed. -/
theorem close (h : p.Reached closed now n) : p.Reached (closed.or (some now)) now n := by
  refine ⟨h.before, h.started, fun c hc => ?_⟩
  cases closed with
  | none =>
    obtain rfl := Option.some.inj hc
    exact ⟨h.started, le_rfl⟩
  | some _ => exact h.closing c hc

/-- The number of runs does not change when time passes in between. -/
theorem passed (h : p.Reached closed now n) (hle : now ≤ later) : p.Reached closed later n := by
  refine ⟨h.before, h.started.trans hle, fun c hc => ?_⟩
  obtain ⟨hlow, hhigh⟩ := h.closing c hc
  exact ⟨hlow, hhigh.trans hle⟩

end Reached

/-! ## What happens to a timer -/

namespace Stage

/-- When its task begins, the timer waits for the first run. -/
theorem entered (hdelay : 1 ≤ p.delay) (h : p.Stage closed now τ)
    (htask : τ.trigger.task = .spawned) : p.Stage closed now (τ.entered now) := by
  cases h with
  | spawned hnow h =>
    subst hnow
    have hfirst : p.due (0 + 1) = 0 + p.delay := by rw [p.due_one, Nat.zero_add]
    have hstage := waiting h (by omega) (Nat.zero_le _) fun c hc => by
      have := (h.closing c hc).2
      omega
    rw [hfirst] at hstage
    exact hstage
  | waiting | running | finished => exact nomatch htask

/-- A wake-up ends a wait, and the trigger was closed before the next run was due. -/
theorem woken (h : p.Stage closed now τ) (htask : τ.trigger.task = .waiting)
    (hwake : τ.trigger.wakeUp = true) : p.Stage closed now (τ.waited now .wakeUp) := by
  cases h with
  | @waiting n h hmore hnow hclosed =>
    cases closed with
    | none => exact nomatch hwake
    | some c => exact finished h (.inr ⟨c, rfl, hclosed c rfl⟩)
  | spawned | running | finished => exact nomatch htask

/-- When the time is up, the next run is due and starts. -/
theorem began (h : p.Stage closed now τ) (htask : τ.trigger.task = .waiting)
    (hwake : τ.trigger.wakeUp = false) (hdue : τ.deadline.any (· ≤ now)) :
    (τ.waited now .time).trigger.task = .running ∧
      (τ.waited now .time).trigger.runs = τ.trigger.runs + 1 ∧
      closed = none ∧ now = p.due (τ.trigger.runs + 1) ∧
      p.Stage closed now (if p.ClosesItself (τ.trigger.runs + 1) then (τ.waited now .time).closed
        else τ.waited now .time) := by
  cases h with
  | @waiting n h hmore hnow hclosed =>
    cases closed with
    | some c => exact nomatch hwake
    | none =>
      -- The time was up, but not before the run was due.
      obtain rfl : now = p.due (n + 1) := hnow.antisymm (by simpa [timer] using hdue)
      have hstage := running (Nat.le_add_left 1 n) (h.next hmore le_rfl) (p.due_le_finish _)
      refine ⟨rfl, rfl, rfl, rfl, ?_⟩
      change p.Stage none _ (if p.ClosesItself (n + 1) then _ else _)
      by_cases hself : p.ClosesItself (n + 1)
      · rw [decide_eq_true hself] at hstage
        rw [if_pos hself]
        exact hstage
      · rw [decide_eq_false hself] at hstage
        rw [if_neg hself]
        exact hstage
  | spawned | running | finished => exact nomatch htask

/-- When a run is over, the trigger waits for the next one, unless this was the last one or the
trigger was closed. -/
theorem ranOut (hdelay : 1 ≤ p.delay) (h : p.Stage closed now τ)
    (htask : τ.trigger.task = .running) (hdue : τ.deadline.any (· ≤ now)) :
    p.Stage closed now (τ.ranOut now) := by
  cases h with
  | @running n hn h hnow =>
    obtain rfl : now = p.finish n := hnow.antisymm (by simpa [timer] using hdue)
    have hnext : p.finish n < p.due (n + 1) := p.finish_lt_due hdelay hn
    -- The last run, a run that closed its trigger, and one during which the holder did: only behind
    -- any other run does another wait begin.
    by_cases hlast : p.Last n
    · rw [Timer.ranOut, Trigger.endRun_of_last (.inr (p.isFinal_ended_iff.mpr hlast))]
      exact finished h (.inl ⟨hn, .inr hlast, le_rfl⟩)
    by_cases hself : p.ClosesItself n
    · rw [decide_eq_true hself, Bool.or_true, Timer.ranOut, Trigger.endRun_of_last (.inl rfl)]
      exact finished h (.inl ⟨hn, .inl hself, le_rfl⟩)
    cases closed with
    | some c =>
      rw [Timer.ranOut, Trigger.endRun_of_last (.inl rfl)]
      exact finished h (.inr ⟨c, rfl, (h.closing c rfl).2.trans_lt hnext⟩)
    | none =>
      obtain ⟨hkind, houtcome⟩ := p.not_last_iff.mp hlast
      have hwait := waiting h (fun _ => ⟨hlast, hself⟩) hnext.le nofun
      rw [p.due_succ hn] at hwait
      rw [decide_eq_false hself, Timer.ranOut]
      change p.Stage none _ (Timer.mk _ _ _ (Trigger.endRun _ (p.handler n).outcome) _)
      rw [houtcome, Trigger.endRun_of_firing rfl hkind]
      exact hwait
  | spawned | waiting | finished => exact nomatch htask

/-- The holder closes the trigger while nothing is due. -/
theorem close (h : p.Stage closed now τ) (hahead : τ.Ahead now) :
    p.Stage (closed.or (some now)) now τ.closed := by
  have hsome : (closed.or (some now)).isSome = true := by cases closed <;> rfl
  cases h with
  | spawned hnow h =>
    have hstage := spawned hnow h.close
    rw [hsome] at hstage
    rw [closed_timer]
    exacts [hstage, nofun]
  | @waiting n h hmore hnow hclosed =>
    -- The next run is due later, so that the holder closes the trigger before it.
    have hstage := waiting h.close hmore hnow fun c hc => by
      cases closed with
      | none =>
        obtain rfl := Option.some.inj hc
        exact hahead _ rfl
      | some _ => exact hclosed c hc
    rw [hsome] at hstage
    rw [closed_timer]
    exacts [hstage, nofun]
  | running hn h hnow =>
    have hstage := running hn h.close hnow
    rw [hsome, Bool.true_or] at hstage
    rw [closed_timer]
    exacts [hstage, nofun]
  | @finished n w deadline h hend =>
    refine finished h.close (hend.imp_right fun ⟨c, hc, hlt⟩ => ⟨c, ?_, hlt⟩)
    rw [Option.mem_def.mp hc]
    rfl

/-- Time passes, but not beyond what is due next. -/
theorem passed (h : p.Stage closed now τ) (hcalm : τ.Calm) (hle : now ≤ later)
    (hpending : ∀ d ∈ Timeline.pendingDeadline? τ, later ≤ d) : p.Stage closed later τ := by
  cases h with
  -- A new task has to be polled before time passes.
  | spawned => exact absurd rfl hcalm.1
  | waiting h hmore hnow hclosed => exact waiting (h.passed hle) hmore (hpending _ rfl) hclosed
  | running hn h hnow => exact running hn (h.passed hle) (hpending _ rfl)
  | finished h hend =>
    exact finished (h.passed hle) (hend.imp_left fun ⟨hn, hlast, hover⟩ => ⟨hn, hlast, hover.trans hle⟩)

end Stage

/-! ## What a stage tells -/

/-- The runs that started are those that are due by now, if the next one is not. -/
theorem Reached.starts_iff (h : p.Reached closed now n)
    (hnext : p.Starts closed (n + 1) → now < p.due (n + 1)) :
    p.Starts closed i ∧ p.due i ≤ now ↔ 1 ≤ i ∧ i ≤ n := by
  constructor
  · rintro ⟨hstarts, hdue⟩
    refine ⟨hstarts.1, ?_⟩
    by_contra hlt
    have hn : n + 1 ≤ i := by omega
    have hlate := hnext (hstarts.of_le (Nat.le_add_left ..) hn)
    have hle := p.due_le_due hn
    omega
  · rintro ⟨hi, hin⟩
    have hdue : p.due i ≤ p.due n := p.due_le_due hin
    exact ⟨⟨hi, fun j hj hlt => h.before j hj (by omega),
      fun c hc => hdue.trans (h.closing c hc).1⟩, hdue.trans h.started⟩

/-- Of the runs that started, only the last one can have stopped the trigger. -/
theorem Reached.runsAt_iff (h : p.Reached closed now n)
    (hnext : p.Starts closed (n + 1) → now < p.due (n + 1)) :
    p.RunsAt closed now ↔
      closed = none ∧ (1 ≤ n → ¬p.ClosesItself n ∧ (p.Last n → now < p.finish n)) := by
  refine and_congr_right fun _ => ⟨fun hall hn => ?_, fun hlast i hi hdue => ?_⟩
  · obtain ⟨hstarts, hdue⟩ := (h.starts_iff hnext).mpr ⟨hn, le_rfl⟩
    exact hall n hstarts hdue
  · obtain ⟨hpos, hle⟩ := (h.starts_iff hnext).mp ⟨hi, hdue⟩
    rcases hle.eq_or_lt with rfl | hlt
    · exact hlast hpos
    · obtain ⟨hnotLast, hnotSelf⟩ := h.before i hpos hlt
      exact ⟨hnotSelf, fun h => absurd h hnotLast⟩

namespace Stage

/-- Where nothing is due, the next run that starts is later. -/
theorem reached (hdelay : 1 ≤ p.delay) (h : p.Stage closed now τ) (hahead : τ.Ahead now) :
    p.Reached closed now τ.trigger.runs ∧
      (p.Starts closed (τ.trigger.runs + 1) → now < p.due (τ.trigger.runs + 1)) := by
  cases h with
  | spawned hnow h =>
    refine ⟨h, fun _ => ?_⟩
    change now < p.due 1
    rw [p.due_one]
    omega
  | waiting h => exact ⟨h, fun _ => hahead _ rfl⟩
  | running hn h => exact ⟨h, fun _ => (hahead _ rfl).trans (p.finish_lt_due hdelay hn)⟩
  -- Behind its end no run starts: the run in front of it was the last one, or the trigger was
  -- closed.
  | @finished n w deadline h hend =>
    refine ⟨h, fun ⟨_, hbefore, hclosed⟩ => ?_⟩
    rcases hend with ⟨hn, hlast, -⟩ | ⟨c, hc, hlt⟩
    · obtain ⟨hnotLast, hnotSelf⟩ := hbefore n hn n.lt_succ_self
      exact (hlast.elim hnotSelf hnotLast).elim
    · exact absurd (hclosed c hc) (Nat.not_le.mpr hlt)

/-- The runs of a timer are those that start by now. -/
theorem starts_iff (hdelay : 1 ≤ p.delay) (h : p.Stage closed now τ) (hahead : τ.Ahead now) :
    p.Starts closed i ∧ p.due i ≤ now ↔ 1 ≤ i ∧ i ≤ τ.trigger.runs :=
  (h.reached hdelay hahead).1.starts_iff (h.reached hdelay hahead).2

/-- The trigger is running just while its plan says so. -/
theorem isRunning_iff (hdelay : 1 ≤ p.delay) (h : p.Stage closed now τ) (hahead : τ.Ahead now) :
    τ.trigger.isRunning = true ↔ p.RunsAt closed now := by
  obtain ⟨hreached, hnext⟩ := h.reached hdelay hahead
  rw [hreached.runsAt_iff hnext, Trigger.isRunning_eq, decide_eq_true_iff]
  cases h with
  | spawned hnow h =>
    refine (open_lifecycle_iff (nofun : Trigger.State.armed ≠ .closed)).trans ?_
    rw [Option.isSome_eq_false_iff, Option.isNone_iff_eq_none]
    exact (and_iff_left fun hn => absurd hn (Nat.not_succ_le_zero 0)).symm
  -- Between two runs it is running unless its holder closed it.
  | waiting h hmore =>
    refine (open_lifecycle_iff (nofun : Trigger.State.armed ≠ .closed)).trans ?_
    rw [Option.isSome_eq_false_iff, Option.isNone_iff_eq_none]
    exact (and_iff_left fun hn => ⟨(hmore hn).2, fun hlast => absurd hlast (hmore hn).1⟩).symm
  -- In a run it is running unless its holder or the run itself closed it.
  | @running n hn h hnow =>
    refine (open_lifecycle_iff (nofun : Trigger.State.firing ≠ .closed)).trans ?_
    rw [Bool.or_eq_false_iff, Option.isSome_eq_false_iff, Option.isNone_iff_eq_none,
      decide_eq_false_iff_not]
    exact and_congr_right fun _ =>
      ⟨fun hself _ => ⟨hself, fun _ => hahead _ rfl⟩, fun hlast => (hlast hn).1⟩
  | @finished n w deadline h hend =>
    refine iff_of_false (fun h => h rfl) ?_
    rintro ⟨rfl, hlast⟩
    rcases hend with ⟨hn, hend, hover⟩ | ⟨c, hc, -⟩
    · obtain ⟨hnotSelf, hlate⟩ := hlast hn
      exact (hend.resolve_left hnotSelf |> hlate).not_ge hover
    · exact nomatch hc

end Stage

end Plan
end LayeredConfig
