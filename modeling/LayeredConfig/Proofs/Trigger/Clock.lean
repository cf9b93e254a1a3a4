import LayeredConfig.Proofs.Actions
import LayeredConfig.Proofs.Trigger.Course
import LayeredConfig.Trigger.Timeline

/-!
# Triggers on the clock

Whatever is done on the clock, each trigger takes its course.  Holders and handlers close triggers
and leave their tasks to themselves, and only the polls of a task end its waits and its runs.

## Key results

- `Timeline.follows_poll`: what a task does at one time
- `Timeline.follows_sleep`: what all tasks do in a while
- `Timeline.Reachable.course`: every trigger on a clock took its course
-/

namespace LayeredConfig.Timeline

open Trigger (Course Incident Step Signal)

/-- Every trigger went on from where it was, and new ones from where they were armed. -/
structure Follows (t t' : Timeline) : Prop where
  kept : ∀ {place : Nat} {timer : Timer}, t.timers[place]? = some timer →
    ∃ timer' es, t'.timers[place]? = some timer' ∧ Course timer.trigger es timer'.trigger
  added : ∀ {place : Nat} {timer' : Timer}, t.timers[place]? = none →
    t'.timers[place]? = some timer' → ∃ kind es, Course (.arm kind) es timer'.trigger

variable {t t' t'' : Timeline} {place : Nat} {timer timer' : Timer}

/-- Where no trigger was touched, each went on by no incidents. -/
theorem Follows.of_timers_eq (h : t'.timers = t.timers) : Follows t t' where
  kept htimer := ⟨_, [], h ▸ htimer, .nil⟩
  added hnone hsome := by simp [h, hnone] at hsome

theorem Follows.refl (t : Timeline) : Follows t t := .of_timers_eq rfl

/-- What follows what follows a clock follows the clock. -/
theorem Follows.trans (h : Follows t t') (h' : Follows t' t'') : Follows t t'' where
  kept htimer := by
    obtain ⟨timer', es, htimer', hcourse⟩ := h.kept htimer
    obtain ⟨timer'', later, htimer'', hlater⟩ := h'.kept htimer'
    exact ⟨timer'', es ++ later, htimer'', hcourse.append hlater⟩
  added {place timer''} hnone htimer'' := by
    -- A trigger that is new in the end was armed in the second part, or in the first one and went
    -- on.
    cases hplace : t'.timers[place]? with
    | none => exact h'.added hplace htimer''
    | some timer' =>
      obtain ⟨kind, es, hcourse⟩ := h.added hnone hplace
      obtain ⟨timer, later, htimer, hlater⟩ := h'.kept hplace
      obtain rfl := Option.some.inj (htimer''.symm.trans htimer)
      exact ⟨kind, es ++ later, hcourse.append hlater⟩

/-- The trigger at a place goes on. -/
theorem Follows.set {es : List Incident} (h : t.timers[place]? = some timer)
    (hcourse : Course timer.trigger es timer'.trigger) :
    Follows t { t with timers := t.timers.set place timer' } where
  kept {other timer₁} hother := by
    by_cases heq : other = place
    · subst heq
      obtain rfl := Option.some.inj (h.symm.trans hother)
      have hlt : other < t.timers.length := (List.getElem?_eq_some_iff.mp h).1
      exact ⟨timer', es, List.getElem?_set_self hlt, hcourse⟩
    · exact ⟨timer₁, [], (List.getElem?_set_ne (Ne.symm heq)).trans hother, .nil⟩
  added {other timer₁} hnone hsome := by
    have hlt := (List.getElem?_eq_some_iff.mp hsome).1
    rw [List.length_set] at hlt
    have hge := List.getElem?_eq_none_iff.mp hnone
    omega

/-- A new trigger. -/
theorem Follows.append {kind : Trigger.Kind} (h : timer.trigger = .arm kind)
    (htimers : t'.timers = t.timers ++ [timer]) : Follows t t' where
  kept {place old} hold := by
    have hlt := (List.getElem?_eq_some_iff.mp hold).1
    exact ⟨old, [], by rw [htimers, List.getElem?_append_left hlt, hold], .nil⟩
  added {place new} hnone hnew := by
    -- The only place beyond the old ones is that of the new trigger.
    rw [htimers, List.getElem?_append_right (List.getElem?_eq_none_iff.mp hnone)] at hnew
    obtain rfl := List.mem_singleton.mp (List.mem_of_getElem? hnew)
    exact ⟨kind, [], h ▸ .nil⟩

/-- Every trigger went on, but no task did anything. -/
structure Aside (t t' : Timeline) : Prop extends Follows t t' where
  tasks : t'.timers.map (·.trigger.task) = t.timers.map (·.trigger.task)

/-- What touches no trigger touches no task. -/
theorem Aside.of_timers_eq (h : t'.timers = t.timers) : Aside t t' :=
  ⟨.of_timers_eq h, by rw [h]⟩

/-- Two such changes make another one. -/
theorem Aside.trans (h : Aside t t') (h' : Aside t' t'') : Aside t t'' :=
  ⟨h.toFollows.trans h'.toFollows, h'.tasks.trans h.tasks⟩

/-- So the task at a place is what it was. -/
theorem Aside.getElem? (h : Aside t t') (htimer : t.timers[place]? = some timer) :
    ∃ timer', t'.timers[place]? = some timer' ∧ timer'.trigger.task = timer.trigger.task := by
  have hplace := congrArg (·[place]?) h.tasks
  simp only [List.getElem?_map, htimer, Option.map_some, Option.map_eq_some_iff] at hplace
  exact hplace

/-- To set what a function takes for the same changes nothing for this function. -/
theorem map_set_of_eq {α β : Type} {f : α → β} {xs : List α} {i : Nat} {a a' : α}
    (h : xs[i]? = some a) (hf : f a' = f a) : (xs.set i a').map f = xs.map f := by
  obtain ⟨hlt, rfl⟩ := List.getElem?_eq_some_iff.mp h
  have hlt' : i < (xs.map f).length := by rwa [List.length_map]
  rw [List.map_set, hf, ← List.getElem_map f (h := hlt'), List.set_getElem_self]

/-! ## Actions -/

section Respects

variable {R : Timeline → Timeline → Prop} {α β : Type}

/-- What is done with the present state only has to be right for this state. -/
theorem respects_current {f : Timeline → Act Timeline β} (h : ∀ t, R t (f t t).state) :
    Act.Respects R (Act.current >>= f) := h

/-- What is done next goes on from what was done first. -/
theorem follows_bind {x : Act Timeline α} {f : α → Act Timeline β} (hx : Follows t (x t).state)
    (hf : ∀ a, Act.Respects Follows (f a)) : Follows t ((x >>= f) t).state :=
  Act.Respects.after (fun h h' => h.trans h') hx hf

/-- Two actions in a row leave the tasks to themselves if both do. -/
theorem aside_bind {x : Act Timeline α} {f : α → Act Timeline β} (hx : Aside t (x t).state)
    (hf : ∀ a, Act.Respects Aside (f a)) : Aside t ((x >>= f) t).state :=
  Act.Respects.after (fun h h' => h.trans h') hx hf

/-- A change of anything but the triggers leaves the tasks to themselves. -/
theorem aside_modify {f : Timeline → Timeline} (h : ∀ t, (f t).timers = t.timers) :
    Act.Respects Aside (Act.modify f) := fun t => .of_timers_eq (h t)

theorem aside_of_blind {x : Act Timeline α} (h : x.Blind) : Act.Respects Aside x :=
  h.respects fun _ => .of_timers_eq rfl

end Respects

/-- An entry in the journal touches no trigger. -/
theorem aside_record (timer : Timer) (moment : Moment) : Act.Respects Aside (record timer moment) :=
  aside_modify fun _ => rfl

/-- A report touches nothing. -/
theorem blind_report (severity : Severity) (timer : Timer) (pulse recurring : String)
    (fields : List (String × String)) :
    (report severity timer pulse recurring fields).Blind := by
  unfold report
  cases timer.trigger.kind <;> exact Act.blind_report ..

/-! ## Holders -/

/-- To close a trigger is a step of its course, and its task is told but does nothing yet. -/
theorem aside_closeAt (place : Nat) : Act.Respects Aside (closeAt place) := by
  refine respects_current fun t => ?_
  cases htimer : t.timers[place]? with
  | none => exact .of_timers_eq rfl
  | some timer =>
    by_cases hfirst : timer.trigger.close.1 = true
    · simp only [hfirst, Bool.not_true, Bool.false_eq_true, if_false]
      have hput : Aside t { t with
          timers := t.timers.set place { timer with trigger := timer.trigger.close.2 } } :=
        ⟨.set htimer (Step.course .close), map_set_of_eq htimer rfl⟩
      refine aside_bind hput fun _ => ?_
      split
      · exact fun t => aside_bind (.of_timers_eq rfl) (fun _ => aside_of_blind (Act.blind_pure _))
      · exact aside_of_blind (Act.blind_pure _)
    -- The trigger was closed before.
    · simp only [hfirst, Bool.not_false, if_true]
      exact .of_timers_eq rfl

/-- Closing a trigger leaves the tasks of all triggers to themselves. -/
theorem aside_close (id : String) : Act.Respects Aside (close id) := by
  refine respects_current fun t => ?_
  cases t.held.find? id with
  | none => exact .of_timers_eq rfl
  | some place =>
    refine aside_bind (aside_closeAt place t) fun closed => ?_
    cases closed with
    | none => exact aside_of_blind (Act.blind_pure _)
    | some timer =>
      exact aside_of_blind (.bind (Act.blind_report ..) fun _ => Act.blind_pure _)

/-- A trigger that is dropped is closed first. -/
theorem follows_drop (id : String) : Act.Respects Follows (drop id) := by
  refine respects_current fun t => ?_
  cases t.held.find? id with
  | none => exact .refl t
  | some place =>
    refine follows_bind (aside_closeAt place t).toFollows fun _ t => ?_
    exact follows_bind (.of_timers_eq rfl) fun _ => .refl

/-- A new trigger is armed, and the one that had the id is dropped. -/
theorem follows_arm (kind : Trigger.Kind) (id : String) (delay : Nat) (handler : Nat → Run) :
    Act.Respects Follows (arm kind id delay handler) := by
  refine respects_current fun t => ?_
  have hnew : Follows t { t with
      timers := t.timers ++ [⟨id, delay, handler, .arm kind, none⟩]
      ready := t.ready ++ [t.timers.length] } := .append rfl rfl
  refine follows_bind hnew fun _ t => ?_
  refine follows_bind (.refl t) fun _ t => ?_
  refine follows_bind (follows_drop id t) fun _ t => ?_
  exact .of_timers_eq rfl

/-! ## Tasks -/

/-- A trigger at a place goes on, and what is done next finds it there. -/
theorem follows_put {α : Type} {f : Unit → Act Timeline α} {es : List Incident}
    (h : t.timers[place]? = some timer) (hcourse : Course timer.trigger es timer'.trigger)
    (hf : ∀ t, t.timers[place]? = some timer' → Follows t (f () t).state) :
    Follows t ((put place timer' >>= f) t).state := by
  rw [Act.state_bind]
  have hlt := (List.getElem?_eq_some_iff.mp h).1
  exact (Follows.set h hcourse).trans (hf _ (List.getElem?_set_self hlt))

/-- A run is going on at a place. -/
def Runs (place : Nat) (t : Timeline) : Prop :=
  ∃ timer, t.timers[place]? = some timer ∧ timer.trigger.task = .running

/-- What leaves all tasks to themselves ends no run. -/
theorem Runs.bind {α β : Type} {x : Act Timeline α} {f : α → Act Timeline β} (h : Runs place t)
    (hx : Act.Respects Aside x) (hf : ∀ a t, Runs place t → Follows t (f a t).state) :
    Follows t ((x >>= f) t).state := by
  obtain ⟨timer, htimer, htask⟩ := h
  -- The trigger may have been closed meanwhile, but its task still runs.
  have haside := hx t
  obtain ⟨timer', htimer', htask'⟩ := haside.getElem? htimer
  rw [Act.state_bind]
  cases (x t).result with
  | error e => exact haside.toFollows
  | ok a => exact haside.toFollows.trans (hf a _ ⟨timer', htimer', htask'.trans htask⟩)

/-- A run that goes on ends. -/
theorem Runs.follows_finishRun (h : Runs place t) : Follows t (finishRun place t).state := by
  obtain ⟨timer, htimer, htask⟩ := h
  rw [finishRun, Act.state_bind]
  simp only [Act.current, htimer]
  refine follows_bind (.set htimer (Step.course (.finish _ htask))) fun _ t => ?_
  -- What the run came to is only told.
  cases (timer.handler timer.trigger.runs).outcome with
  | error e =>
    refine (aside_bind (aside_record _ _ t) fun _ => ?_).toFollows
    exact aside_of_blind (blind_report ..)
  | ok =>
    refine (aside_bind (aside_record _ _ t) fun _ => ?_).toFollows
    split
    · exact aside_of_blind (blind_report ..)
    · exact aside_of_blind (Act.blind_pure _)

/-- A wait ends, and a run may follow that ends at once. -/
theorem follows_finishWait {signal : Signal} (htimer : t.timers[place]? = some timer)
    (htask : timer.trigger.task = .waiting)
    (hsignal : signal = .wakeUp → timer.trigger.wakeUp = true) :
    Follows t (finishWait place signal t).state := by
  rw [finishWait, Act.state_bind]
  simp only [Act.current, htimer]
  rcases timer.trigger.endWait_task signal with hrun | hdone
  · simp only [hrun, reduceCtorEq, if_false]
    refine follows_put htimer (Step.course (.start htask hsignal hrun)) fun t htimer => ?_
    -- From here on the run is going on, and its handler may close any trigger, also its own.
    refine Runs.bind ⟨_, htimer, hrun⟩ (aside_record _ _) fun _ t h => ?_
    generalize timer.handler (timer.trigger.endWait signal).runs = run
    have hend : ∀ t, Runs place t →
        Follows t ((if run.duration = 0 then finishRun place else pure ()) t).state := by
      intro t h
      split
      · exact h.follows_finishRun
      · exact .refl t
    cases run.closes with
    | none => exact hend t h
    | some id => exact h.bind (aside_close id) fun _ => hend
  · simp only [hdone, if_true]
    have hstop : (timer.trigger.endWait signal).task ≠ .running := by simp [hdone]
    refine follows_put htimer (Step.course (.stop htask hsignal hstop)) fun t _ => ?_
    exact (aside_of_blind (blind_report ..) t).toFollows

/-- What a task does at one time is part of the course of its trigger. -/
theorem follows_poll (place : Nat) : Act.Respects Follows (poll place) := by
  refine respects_current fun t => ?_
  cases htimer : t.timers[place]? with
  | none => exact .refl t
  | some timer =>
    cases htask : timer.trigger.task with
    -- The first poll enters the wait, and a signal that is there already ends it at once.
    | spawned =>
      simp only [htask]
      refine follows_put htimer (Step.course (.enter htask)) fun t htimer => ?_
      split
      · rename_i hwake
        exact follows_finishWait htimer rfl fun _ => hwake
      · exact .refl t
    | waiting =>
      simp only [htask]
      split
      · rename_i hwake
        exact follows_finishWait htimer htask fun _ => hwake
      · split
        -- The time is up, and no signal has come.
        · exact follows_finishWait htimer htask nofun
        · exact .refl t
    | running =>
      simp only [htask]
      split
      · exact Runs.follows_finishRun ⟨timer, htimer, htask⟩
      · exact .refl t
    | finished =>
      simp only [htask]
      exact .refl t

/-- So it is with all tasks that are ready. -/
theorem follows_settle (limit : Nat) : Act.Respects Follows (settle limit) := by
  -- On the number of polls that are left.
  induction limit with
  | zero => exact .refl
  | succ limit ih =>
    refine respects_current fun t => ?_
    cases t.ready with
    | nil => exact .refl t
    | cons place rest =>
      refine follows_bind (.of_timers_eq rfl) fun _ t => ?_
      exact follows_bind (follows_poll place t) fun _ => ih

/-- So it is with the tasks at several places. -/
theorem follows_pollAll (places : List Nat) : Act.Respects Follows (pollAll places) := by
  induction places with
  | nil => exact .refl
  | cons place rest ih =>
    intro t
    refine follows_bind (follows_poll place t) fun _ => respects_current fun t => ?_
    exact follows_bind (follows_settle _ t) fun _ => ih

/-- So it is with those that are due until some time. -/
theorem follows_passUntil (target limit : Nat) : Act.Respects Follows (passUntil target limit) := by
  -- On the number of stops that are left.
  induction limit with
  | zero => exact fun t => .of_timers_eq rfl
  | succ limit ih =>
    refine respects_current fun t => ?_
    cases earliest? (t.timers.filterMap pendingDeadline?) with
    | none => exact .of_timers_eq rfl
    | some time =>
      by_cases hdue : time ≤ target
      · simp only [if_pos hdue]
        refine follows_bind (.of_timers_eq rfl) fun _ t => ?_
        exact follows_bind (follows_pollAll _ t) fun _ => ih
      · simp only [if_neg hdue]
        exact .of_timers_eq rfl

/-- So it is with what happens in a while. -/
theorem follows_sleep (ms : Nat) : Act.Respects Follows (sleep ms) := by
  intro t
  rw [sleep]
  split
  · exact .refl t
  · refine respects_current (fun t => ?_) t
    exact follows_bind (follows_settle _ t) fun _ => follows_passUntil _ _

/-! ## Clocks -/

/-- The clocks on which triggers are armed, closed and dropped while time passes. -/
inductive Reachable : Timeline → Prop
  | empty : Reachable empty
  | arm {t : Timeline} (h : Reachable t) (kind : Trigger.Kind) (id : String) (delay : Nat)
      (handler : Nat → Run) : Reachable (arm kind id delay handler t).state
  | close {t : Timeline} (h : Reachable t) (id : String) : Reachable (close id t).state
  | drop {t : Timeline} (h : Reachable t) (id : String) : Reachable (drop id t).state
  | sleep {t : Timeline} (h : Reachable t) (ms : Nat) : Reachable (sleep ms t).state

/-- All that is done on a clock leaves its triggers to their courses. -/
theorem Reachable.follows (h : Reachable t) : Follows Timeline.empty t := by
  induction h with
  | empty => exact .refl Timeline.empty
  | arm _ kind id delay handler ih => exact ih.trans (follows_arm kind id delay handler _)
  | close _ id ih => exact ih.trans (aside_close id _).toFollows
  | drop _ id ih => exact ih.trans (follows_drop id _)
  | sleep _ ms ih => exact ih.trans (follows_sleep ms _)

/-- Whatever was done on a clock, each of its triggers took its course since it was armed. -/
theorem Reachable.course (h : Reachable t) (htimer : t.timers[place]? = some timer) :
    ∃ kind es, Course (.arm kind) es timer.trigger :=
  h.follows.added rfl htimer

end LayeredConfig.Timeline
