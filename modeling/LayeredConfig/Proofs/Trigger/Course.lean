import LayeredConfig.Trigger.Lifecycle
import Mathlib.Data.List.Induction

/-!
# The course of a trigger

Between two waits of its task, a trigger can be closed, dropped and asked at any time and in any
order, also by its own handler.  A course is what can happen that way, one incident after the other;
where both the time is up and a wake-up came, either ends the wait.

## Key results

- `Trigger.Orderly.step`: what the task does and what the holder sees fit together at any time
- `Trigger.Step.of_closed`: a closed trigger stays closed, whatever happens to it
- `Trigger.Course.completed`: closing does not end a run
- `Trigger.course_safe`: nothing starts behind the end of a trigger, and no run beside another
-/

namespace LayeredConfig.Trigger

/-! ## Incidents and steps -/

/-- Something that happens to a trigger. -/
inductive Incident
  /-- The task began its first wait. -/
  | entered
  /-- A wait ended and nothing runs any more. -/
  | stopped
  /-- A wait ended and a run started. -/
  | started
  | ended (outcome : Except Error Unit)
  /-- The holder closed the trigger and was told whether that was the first time. -/
  | closed (first : Bool)
  | dropped (first : Bool)
  /-- The holder asked whether the trigger is running. -/
  | asked (running : Bool)

namespace Incident

def isStart : Incident → Bool
  | .started => true
  | _ => false

def isEnd : Incident → Bool
  | .ended _ => true
  | _ => false

/-- Whether the holder closed the trigger and was told that it had been open. -/
def isFirst : Incident → Bool
  | .closed first | .dropped first => first
  | _ => false

/-- The end of all runs of a trigger of this kind. -/
def IsFinal (kind : Kind) : Incident → Prop
  | .closed _ | .dropped _ | .ended (.error _) => True
  | .ended (.ok _) => kind = .pulse
  | _ => False

/-- What may happen to a closed trigger: nothing starts, nothing closes it, and nobody is told that
it is running. -/
def Quiet : Incident → Prop
  | .started | .closed true | .dropped true | .asked true => False
  | _ => True

variable {e : Incident}

/-- What may happen to a closed trigger does not close it. -/
theorem Quiet.isFirst_eq (h : e.Quiet) : e.isFirst = false := by
  cases e with
  | closed first | dropped first =>
    cases first
    · rfl
    · exact h.elim
  | _ => rfl

end Incident

open Incident

/-- What can happen next.  A wait ends by a wake-up that came, or because the time is up, which may
be so at any time. -/
inductive Step : Trigger → Incident → Trigger → Prop
  | enter {t} (h : t.task = .spawned) : Step t .entered t.enter
  | stop {t signal} (h : t.task = .waiting) (hsignal : signal = .wakeUp → t.wakeUp = true)
      (hstop : (t.endWait signal).task ≠ .running) : Step t .stopped (t.endWait signal)
  | start {t signal} (h : t.task = .waiting) (hsignal : signal = .wakeUp → t.wakeUp = true)
      (hstart : (t.endWait signal).task = .running) : Step t .started (t.endWait signal)
  | finish {t} (outcome) (h : t.task = .running) : Step t (.ended outcome) (t.endRun outcome)
  | close {t} : Step t (.closed t.close.1) t.close.2
  | drop {t} : Step t (.dropped t.close.1) t.close.2
  | ask {t} : Step t (.asked t.isRunning) t

/-- What can happen to a trigger in a while, and the trigger afterwards. -/
inductive Course : Trigger → List Incident → Trigger → Prop
  | nil {t} : Course t [] t
  | snoc {t u v es e} (h : Course t es u) (hstep : Step u e v) : Course t (es ++ [e]) v

variable {kind : Kind} {t u v : Trigger} {e : Incident} {es later : List Incident}
  {signal : Signal} {outcome : Except Error Unit}

/-- One course after the other is a course. -/
theorem Course.append (h : Course t es u) (hlater : Course u later v) :
    Course t (es ++ later) v := by
  induction hlater with
  | nil => rwa [List.append_nil]
  | snoc _ hstep ih => exact List.append_assoc .. ▸ .snoc ih hstep

/-- A step is a course of one incident. -/
theorem Step.course (h : Step t e u) : Course t [e] u := .snoc .nil h

/-- Each incident of a course is a step from what came before to what comes after. -/
theorem Course.split (h : Course t (es ++ e :: later) v) :
    ∃ u w, Course t es u ∧ Step u e w ∧ Course w later v := by
  generalize hall : es ++ e :: later = all at h
  -- From the end, since a course grows there: the incident is the last one or one before it.
  induction h generalizing later with
  | nil => simp at hall
  | @snoc u v before e' hbefore hstep ih =>
    cases later using List.reverseRecOn with
    | nil =>
      obtain ⟨rfl, he⟩ := List.append_inj' hall rfl
      obtain rfl := List.singleton_inj.mp he
      exact ⟨u, v, hbefore, hstep, .nil⟩
    | append_singleton rest last =>
      rw [← List.cons_append, ← List.append_assoc] at hall
      obtain ⟨hrest, he⟩ := List.append_inj' hall rfl
      obtain rfl := List.singleton_inj.mp he
      obtain ⟨u', w, hu', hw, hlater⟩ := ih hrest
      exact ⟨u', w, hu', hw, .snoc hlater hstep⟩

/-! ## What each step does -/

/-- A trigger is running unless it is closed. -/
theorem isRunning_eq (t : Trigger) : t.isRunning = decide (t.state ≠ .closed) := by
  cases h : t.state <;> simp [Lifecycle.isRunning, h]

/-- Closing a closed trigger changes nothing. -/
theorem close_of_closed (h : t.state = .closed) : t.close = (false, t) := by
  simp only [close, Lifecycle.close, if_pos h]

/-- To close an open trigger leaves a wake-up for its task. -/
theorem close_of_open (h : t.state ≠ .closed) :
    t.close = (true, { t with state := .closed, wakeUp := true }) := by
  simp only [close, Lifecycle.close, if_neg h]

/-- Behind a call that closes it, a trigger is closed. -/
theorem close_state (t : Trigger) : t.close.2.state = .closed := by
  by_cases h : t.state = .closed
  · rw [close_of_closed h, h]
  · rw [close_of_open h]

/-- A wait ends with a run, or there is none any more. -/
theorem endWait_task (t : Trigger) (signal : Signal) :
    (t.endWait signal).task = .running ∨ (t.endWait signal).task = .finished := by
  simp only [endWait]
  split
  · exact .inr rfl
  · split
    · exact .inr rfl
    · exact .inl rfl

/-- A run ends with another wait of an armed trigger, or there is none any more. -/
theorem endRun_task (t : Trigger) (outcome : Except Error Unit) :
    ((t.endRun outcome).task = .waiting ∧ (t.endRun outcome).state = .armed) ∨
      (t.endRun outcome).task = .finished := by
  simp only [endRun]
  split
  · split
    · rename_i l hl
      obtain ⟨-, hrearm⟩ := Option.ite_none_right_eq_some.mp hl
      obtain rfl := Option.some.inj hrearm
      exact .inl ⟨rfl, rfl⟩
    · exact .inr rfl
  · exact .inr rfl

/-- The end of a run starts none. -/
theorem endRun_runs (t : Trigger) (outcome : Except Error Unit) :
    (t.endRun outcome).runs = t.runs := by
  simp only [endRun]
  split
  · split <;> rfl
  · rfl

/-- A wait that ends in time while the trigger is armed is followed by a run. -/
theorem endWait_of_armed (h : t.state = .armed) :
    t.endWait .time = { t with state := .firing, task := .running, runs := t.runs + 1 } := by
  have hrunning : t.isRunning = true := by simp [isRunning_eq, h]
  simp only [endWait, Lifecycle.waited, hrunning, Lifecycle.beginFiring?, h, if_true]

/-- However the wait of a closed trigger ends, nothing runs any more. -/
theorem endWait_of_closed (h : t.state = .closed) (signal : Signal) :
    ∃ w, t.endWait signal = { t with state := .closed, wakeUp := w, task := .finished } := by
  cases signal with
  | time =>
    have hrunning : t.isRunning = false := by simp [isRunning_eq, h]
    exact ⟨t.wakeUp, by simp only [endWait, Lifecycle.waited, hrunning, ← h]⟩
  | wakeUp => exact ⟨false, by simp only [endWait, Lifecycle.waited, ← h]⟩

/-- A recurring trigger that is still firing waits again if its handler did not fail. -/
theorem endRun_of_firing (h : t.state = .firing) (hkind : t.kind = .recurring) :
    t.endRun (.ok ()) = { t with state := .armed, task := .waiting } := by
  simp [endRun, Lifecycle.rearm?, h, hkind]

/-- A run of a closed trigger, and a run that is final for its kind, is the last one. -/
theorem endRun_of_last (h : t.state = .closed ∨ (Incident.ended outcome).IsFinal t.kind) :
    t.endRun outcome = { t with state := .closed, task := .finished } := by
  cases outcome with
  | error e => cases hkind : t.kind <;> simp only [endRun, Lifecycle.shut, hkind]
  | ok =>
    cases hkind : t.kind with
    | pulse => simp only [endRun, Lifecycle.shut, hkind]
    | recurring =>
      rcases h with hclosed | hpulse
      · simp only [endRun, hkind, Lifecycle.rearm?, hclosed, reduceCtorEq, if_false]
        rw [← hclosed]
      · simp [IsFinal, hkind] at hpulse

/-! ## The task and what the holder sees -/

/-- What the task does and what the holder sees fit together. -/
structure Orderly (t : Trigger) : Prop where
  before : t.task = .spawned ∨ t.task = .waiting → t.state ≠ .firing
  within : t.task = .running → t.state ≠ .armed
  behind : t.task = .finished → t.state = .closed
  wakeUp : t.wakeUp = true → t.state = .closed
  /-- A pulse never waits behind a run. -/
  sole : t.kind = .pulse → t.runs = 0 ∨ t.runs = 1 ∧ (t.task = .running ∨ t.task = .finished)

/-- A new trigger is orderly. -/
theorem orderly_arm (kind : Kind) : Orderly (arm kind) where
  before _ := by simp [arm, Lifecycle.new]
  within h := by simp [arm] at h
  behind h := by simp [arm] at h
  wakeUp h := by simp [arm, Lifecycle.new] at h
  sole _ := .inl rfl

/-- The end of a trigger is orderly. -/
theorem Orderly.end (h : Orderly t) (w : Bool) :
    Orderly { t with state := .closed, wakeUp := w, task := .finished } where
  before := by simp
  within := by simp
  behind := by simp
  wakeUp := by simp
  sole hk := (h.sole hk).imp id fun ⟨hruns, _⟩ => ⟨hruns, .inr rfl⟩

/-- To close a trigger leaves it orderly. -/
theorem Orderly.close (h : Orderly t) : Orderly t.close.2 := by
  by_cases hstate : t.state = .closed
  · rwa [close_of_closed hstate]
  · rw [close_of_open hstate]
    exact ⟨by simp, by simp, by simp, by simp, h.sole⟩

/-- A wait ends with a run if the trigger is armed, and then the time is up. -/
theorem Orderly.endWait_cases (h : Orderly t) (htask : t.task = .waiting)
    (hsignal : signal = .wakeUp → t.wakeUp = true) :
    (t.state = .armed ∧
        t.endWait signal = { t with state := .firing, task := .running, runs := t.runs + 1 }) ∨
      t.state = .closed ∧
        ∃ w, t.endWait signal = { t with state := .closed, wakeUp := w, task := .finished } := by
  cases hstate : t.state with
  | firing => exact absurd hstate (h.before (.inr htask))
  | closed => exact .inr ⟨rfl, endWait_of_closed hstate signal⟩
  | armed =>
    cases signal with
    | time => exact .inl ⟨rfl, endWait_of_armed hstate⟩
    -- A wake-up comes with a closing only.
    | wakeUp =>
      rw [h.wakeUp (hsignal rfl)] at hstate
      cases hstate

/-- A run is the last one unless the trigger is recurring and open and its handler did not fail. -/
theorem Orderly.endRun_cases (h : Orderly t) (htask : t.task = .running)
    (outcome : Except Error Unit) :
    (t.kind = .recurring ∧ t.state = .firing ∧
        t.endRun outcome = { t with state := .armed, task := .waiting }) ∨
      t.endRun outcome = { t with state := .closed, task := .finished } := by
  -- What keeps a trigger from going on is that it was closed meanwhile or that the run was its
  -- last.
  by_cases hlast : t.state = .closed ∨ (Incident.ended outcome).IsFinal t.kind
  · exact .inr (endRun_of_last hlast)
  · obtain ⟨hopen, hfinal⟩ := not_or.mp hlast
    have hstate : t.state = .firing := by
      cases hs : t.state with
      | armed => exact absurd hs (h.within htask)
      | firing => rfl
      | closed => exact absurd hs hopen
    cases outcome with
    | error e => exact absurd trivial hfinal
    | ok =>
      have hkind : t.kind = .recurring := by
        cases hk : t.kind with
        | pulse => exact absurd hk hfinal
        | recurring => rfl
      exact .inl ⟨hkind, hstate, endRun_of_firing hstate hkind⟩

/-- A run that starts leaves the trigger orderly. -/
theorem Orderly.start (h : Orderly t) (htask : t.task = .waiting) (hstate : t.state = .armed) :
    Orderly { t with state := .firing, task := .running, runs := t.runs + 1 } where
  before := by simp
  within := by simp
  behind := by simp
  wakeUp hw := by
    have hclosed := h.wakeUp hw
    simp [hstate] at hclosed
  sole hk := by
    -- A pulse that waits did not run yet.
    rcases h.sole hk with hruns | ⟨-, hrunning | hfinished⟩
    · exact .inr ⟨by simp only [hruns], .inl rfl⟩
    · simp [htask] at hrunning
    · simp [htask] at hfinished

/-- Whatever happens next, all fits together again. -/
theorem Orderly.step (h : Orderly t) (hstep : Step t e u) : Orderly u := by
  cases hstep with
  | enter htask =>
    refine ⟨fun _ => h.before (.inl htask), by simp [enter], by simp [enter], h.wakeUp, fun hk => ?_⟩
    rcases h.sole hk with hruns | ⟨-, hrunning | hfinished⟩
    · exact .inl hruns
    · simp [hrunning] at htask
    · simp [hfinished] at htask
  -- Whatever ended the wait, the trigger fires now or comes to its end.
  | stop htask hsignal | start htask hsignal =>
    rcases h.endWait_cases htask hsignal with ⟨hstate, hend⟩ | ⟨-, w, hend⟩
    · rw [hend]
      exact h.start htask hstate
    · rw [hend]
      exact h.end w
  -- A recurring trigger may go back to waiting, and only then is it not closed.
  | finish outcome htask =>
    rcases h.endRun_cases htask outcome with ⟨hkind, hstate, hend⟩ | hend
    · rw [hend]
      refine ⟨by simp, by simp, by simp, fun hw => ?_, fun hk => ?_⟩
      · have hclosed := h.wakeUp hw
        simp [hstate] at hclosed
      · simp [hkind] at hk
    · rw [hend]
      exact h.end t.wakeUp
  | close | drop => exact h.close
  | ask => exact h

/-- A trigger keeps its kind in each step. -/
theorem Step.kind_eq (h : Step t e u) : u.kind = t.kind := by
  cases h with
  | enter | close | drop | ask => rfl
  | stop | start =>
    simp only [endWait]
    split
    · rfl
    · split <;> rfl
  | finish =>
    simp only [endRun]
    split
    · split <;> rfl
    · rfl

/-- A trigger keeps its kind all the way. -/
theorem Course.kind_eq (h : Course t es u) : u.kind = t.kind := by
  induction h with
  | nil => rfl
  | snoc _ hstep ih => rw [hstep.kind_eq, ih]

/-- So a trigger stays orderly in its course. -/
theorem Course.orderly (h : Course t es u) (ht : Orderly t) : Orderly u := by
  induction h with
  | nil => exact ht
  -- Orderly is the invariant: each step leads from one orderly trigger to another.
  | snoc _ hstep ih => exact ih.step hstep

/-! ## Runs -/

/-- The number of the runs that are going on. -/
def inRun (t : Trigger) : Nat := if t.task = .running then 1 else 0

/-- A run starts only where none is going on, and goes on until it ends. -/
theorem Orderly.step_inRun (h : Orderly t) (hstep : Step t e u) :
    t.inRun + e.isStart.toNat = u.inRun + e.isEnd.toNat := by
  cases hstep with
  | enter htask => simp [inRun, enter, htask, isStart, isEnd]
  | stop htask _ hstop => simp [inRun, htask, hstop, isStart, isEnd]
  | start htask _ hstart => simp [inRun, htask, hstart, isStart, isEnd]
  | finish outcome htask =>
    rcases h.endRun_cases htask outcome with ⟨-, -, hend⟩ | hend <;>
      simp [inRun, htask, hend, isStart, isEnd]
  | close | drop | ask => rfl

/-- The runs that are counted are those that started. -/
theorem Orderly.step_runs (h : Orderly t) (hstep : Step t e u) :
    u.runs = t.runs + e.isStart.toNat := by
  cases hstep with
  | enter | close | drop | ask => rfl
  | stop htask hsignal hstop =>
    rcases h.endWait_cases htask hsignal with ⟨-, hend⟩ | ⟨-, w, hend⟩
    · simp [hend] at hstop
    · simp [hend, isStart]
  | start htask hsignal hstart =>
    rcases h.endWait_cases htask hsignal with ⟨-, hend⟩ | ⟨-, w, hend⟩
    · simp [hend, isStart]
    · simp [hend] at hstart
  | finish outcome htask =>
    rcases h.endRun_cases htask outcome with ⟨-, -, hend⟩ | hend <;> simp [hend, isStart]

/-- Starts and ends of runs take turns. -/
theorem Course.countP_isStart (h : Course t es u) (ht : Orderly t) :
    t.inRun + es.countP isStart = u.inRun + es.countP isEnd := by
  induction h with
  | nil => rfl
  | @snoc u v es e hcourse hstep ih =>
    -- One more start makes a run, and one more end takes it away.
    have hturn := (hcourse.orderly ht).step_inRun hstep
    rw [List.countP_append, List.countP_append, List.countP_singleton, List.countP_singleton]
    cases hs : e.isStart <;> cases he : e.isEnd <;> rw [hs, he] at hturn <;>
      simp only [Bool.toNat_true, Bool.toNat_false, Bool.false_eq_true, if_true, if_false] at hturn ⊢ <;>
      omega

/-- The number of runs is that of their starts. -/
theorem Course.runs_eq (h : Course t es u) (ht : Orderly t) :
    u.runs = t.runs + es.countP isStart := by
  induction h with
  | nil => rfl
  | @snoc u v es e hcourse hstep ih =>
    rw [(hcourse.orderly ht).step_runs hstep, ih, List.countP_append, List.countP_singleton]
    cases e.isStart <;> rfl

/-! ## The end -/

/-- A closed trigger stays closed, whatever happens to it, and nothing happens that may not. -/
theorem Step.of_closed (h : Step t e u) (hstate : t.state = .closed) :
    u.state = .closed ∧ e.Quiet := by
  cases h with
  | enter => exact ⟨hstate, trivial⟩
  | stop =>
    obtain ⟨w, hend⟩ := endWait_of_closed hstate _
    exact ⟨by rw [hend], trivial⟩
  | @start signal _ _ hstart =>
    obtain ⟨w, hend⟩ := endWait_of_closed hstate signal
    simp [hend] at hstart
  | finish outcome => exact ⟨by rw [endRun_of_last (.inl hstate)], trivial⟩
  | close | drop =>
    rw [close_of_closed hstate]
    exact ⟨hstate, trivial⟩
  | ask =>
    rw [isRunning_eq, decide_eq_false (not_not.mpr hstate)]
    exact ⟨hstate, trivial⟩

/-- So it is all the way. -/
theorem Course.of_closed (h : Course t es u) (hstate : t.state = .closed) :
    u.state = .closed ∧ ∀ e ∈ es, e.Quiet := by
  induction h with
  | nil => exact ⟨hstate, fun e he => absurd he List.not_mem_nil⟩
  | snoc _ hstep ih =>
    obtain ⟨hclosed, hquiet⟩ := hstep.of_closed ih.1
    refine ⟨hclosed, fun e he => ?_⟩
    rcases List.mem_append.mp he with hbefore | hlast
    · exact ih.2 e hbefore
    · exact List.mem_singleton.mp hlast ▸ hquiet

/-- What is final closes the trigger. -/
theorem Step.of_isFinal (h : Step t e u) (hfinal : e.IsFinal t.kind) : u.state = .closed := by
  cases h with
  | enter | stop | start | ask => exact hfinal.elim
  | finish outcome => rw [endRun_of_last (.inr hfinal)]
  | close | drop => exact close_state t

/-- Who is told to have closed a trigger closed it. -/
theorem Step.of_isFirst (h : Step t e u) (hfirst : e.isFirst = true) : u.state = .closed := by
  cases h with
  | enter | stop | start | finish | ask => simp [isFirst] at hfirst
  | close | drop => exact close_state t

/-- One call at most closes a trigger. -/
theorem Course.countP_isFirst (h : Course t es u) :
    es.countP isFirst ≤ 1 ∧ (es.countP isFirst = 1 → u.state = .closed) := by
  induction h with
  | nil => simp
  | @snoc u v es e _ hstep ih =>
    simp only [List.countP_append, List.countP_singleton]
    -- A closed trigger cannot be closed again, and before it was closed nobody closed it.
    by_cases hstate : u.state = .closed
    · obtain ⟨hclosed, hquiet⟩ := hstep.of_closed hstate
      rw [hquiet.isFirst_eq]
      exact ⟨ih.1, fun _ => hclosed⟩
    · have hnone : es.countP isFirst = 0 := by
        by_contra hsome
        exact hstate (ih.2 (by omega))
      cases hfirst : e.isFirst with
      | true => simp [hnone, hstep.of_isFirst hfirst]
      | false => simp [hnone]

/-- A task that is done stays so. -/
theorem Step.of_finished (h : Step t e u) (htask : t.task = .finished) :
    u.task = .finished ∧ e.isEnd = false := by
  cases h with
  | enter hother | stop hother | start hother | finish _ hother => simp [htask] at hother
  | close | drop | ask => exact ⟨htask, rfl⟩

/-- Nothing but its end stops a run. -/
theorem Step.of_running (h : Step t e u) (hstate : t.state = .closed) (htask : t.task = .running) :
    (u.task = .running ∧ e.isEnd = false) ∨ (u.task = .finished ∧ e.isEnd = true) := by
  cases h with
  | enter hother | stop hother | start hother => simp [htask] at hother
  | finish outcome => exact .inr ⟨by rw [endRun_of_last (.inl hstate)], rfl⟩
  | close | drop | ask => exact .inl ⟨htask, rfl⟩

/-- A run of a closed trigger goes on until it ends, and then the task is done. -/
theorem Course.completed (h : Course t es u) (hstate : t.state = .closed)
    (htask : t.task = .running) :
    (u.task = .running ∧ es.countP isEnd = 0) ∨ (u.task = .finished ∧ es.countP isEnd = 1) := by
  induction h with
  | nil => exact .inl ⟨htask, rfl⟩
  | snoc hcourse hstep ih =>
    rw [List.countP_append, List.countP_singleton]
    rcases ih with ⟨hrunning, hnone⟩ | ⟨hfinished, hone⟩
    · rcases hstep.of_running (hcourse.of_closed hstate).1 hrunning with ⟨hu, he⟩ | ⟨hu, he⟩
      · exact .inl ⟨hu, by simp [hnone, he]⟩
      · exact .inr ⟨hu, by simp [hnone, he]⟩
    · obtain ⟨hu, he⟩ := hstep.of_finished hfinished
      exact .inr ⟨hu, by simp [hone, he]⟩

/-! ## Safety -/

/-- What a trigger guarantees to its holder, after all these incidents. -/
structure Safe (kind : Kind) (es : List Incident) (t : Trigger) : Prop where
  /-- No run starts before the one in front of it ended. -/
  single : es.countP isStart = es.countP isEnd + t.inRun
  sole : kind = .pulse → es.countP isStart ≤ 1
  /-- One call closed the trigger at most, and each one behind it changes nothing. -/
  first : es.countP isFirst ≤ 1
  again : t.state = .closed → t.close = (false, t)
  /-- After a call that closes it, a run that failed and the run of a pulse, the trigger is closed
  and nothing starts. -/
  final : ∀ before e after, es = before ++ e :: after → e.IsFinal kind →
    t.state = .closed ∧ ∀ e' ∈ after, e'.Quiet
  /-- A closed trigger stays closed, whatever may happen. -/
  closed : t.state = .closed → ∀ later u, Course t later u →
    u.state = .closed ∧ u.isRunning = false ∧ ∀ e ∈ later, e.Quiet
  /-- A run that is going on while the trigger is closed goes on, until it ends as its handler
  wants, and no other run follows. -/
  completed : t.task = .running → ∀ later u, Course t.close.2 later u →
    (∀ e ∈ later, e.Quiet) ∧
      ((u.task = .running ∧ later.countP isEnd = 0 ∧
          ∀ outcome, Step u (.ended outcome) (u.endRun outcome)) ∨
        (u.task = .finished ∧ later.countP isEnd = 1))

/-- Behind the end of a trigger nothing starts, runs never overlap, and one call at most is told
that it closed the trigger. -/
theorem course_safe (h : Course (arm kind) es t) : Safe kind es t where
  single := by
    have hturns := h.countP_isStart (orderly_arm kind)
    have hnone : (arm kind).inRun = 0 := rfl
    omega
  sole hk := by
    have hruns := h.runs_eq (orderly_arm kind)
    have hnone : (arm kind).runs = 0 := rfl
    have hsole := (h.orderly (orderly_arm kind)).sole (h.kind_eq.trans hk)
    omega
  first := h.countP_isFirst.1
  again := close_of_closed
  final before e after hes hfinal := by
    subst hes
    -- The incident closes the trigger, whatever was before it.
    obtain ⟨u, w, hbefore, hstep, hafter⟩ := h.split
    exact hafter.of_closed (hstep.of_isFinal (hbefore.kind_eq ▸ hfinal))
  closed hstate later u hlater := by
    obtain ⟨hclosed, hquiet⟩ := hlater.of_closed hstate
    exact ⟨hclosed, by simp [isRunning_eq, hclosed], hquiet⟩
  completed htask later u hlater := by
    refine ⟨(hlater.of_closed (close_state t)).2, ?_⟩
    rcases hlater.completed (close_state t) htask with ⟨hu, hnone⟩ | hdone
    · exact .inl ⟨hu, hnone, fun outcome => .finish outcome hu⟩
    · exact .inr hdone

/-- A recurring trigger that is closed in its second run, by its handler, and dropped behind it. -/
def closedWithin : List Incident :=
  [.entered, .started, .ended (.ok ()), .started, .closed true, .asked false, .ended (.ok ()),
    .dropped false]

/-- The second run is completed, and it is the last one. -/
theorem course_safe_closedWithin :
    Course (arm .recurring) closedWithin ⟨⟨.closed, true⟩, .recurring, .finished, 2⟩ ∧
      Safe .recurring closedWithin ⟨⟨.closed, true⟩, .recurring, .finished, 2⟩ := by
  have hfirst : Course (arm .recurring) [.entered, .started, .ended (.ok ())]
      ⟨⟨.armed, false⟩, .recurring, .waiting, 1⟩ :=
    .snoc (.snoc (.snoc .nil (.enter rfl)) (@Step.start _ .time rfl nofun rfl))
      (.finish (.ok ()) rfl)
  have hsecond : Course (arm .recurring) closedWithin
      ⟨⟨.closed, true⟩, .recurring, .finished, 2⟩ :=
    .snoc (.snoc (.snoc (.snoc (.snoc hfirst (@Step.start _ .time rfl nofun rfl)) .close) .ask)
      (.finish (.ok ()) rfl)) .drop
  exact ⟨hsecond, course_safe hsecond⟩

end LayeredConfig.Trigger
