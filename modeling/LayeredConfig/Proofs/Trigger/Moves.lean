import LayeredConfig.Proofs.Actions
import LayeredConfig.Proofs.Trigger.Plan
import LayeredConfig.SortedMap.Lemmas
import LayeredConfig.Trigger.Timeline
import Mathlib.Logic.Relation

/-!
# What a task does at one time

A poll of a task is a few moves: its task begins to wait, a wait ends with or without a run, a run
ends.  All that the polls of a while leave alone is what each of these moves leaves alone.

## Key results

- `Timeline.ensures_close`, `Timeline.ensures_drop`: what is left where a trigger is closed
- `Timeline.ensures_poll`: a poll is made of moves, and behind it nothing is due for its task
-/

namespace LayeredConfig.Timeline

open Act (Ensures ensures_pure ensures_current_bind ensures_modify ensures_modify_bind)
open Trigger (Signal)

variable {t t' t'' : Timeline} {place other : Nat} {τ τ' : Timer}

/-! ## Changes -/

/-- The clock with another timer at a place. -/
def placed (t : Timeline) (place : Nat) (τ : Timer) : Timeline :=
  { t with timers := t.timers.set place τ }

/-- The clock with another entry in its journal, about the present run of a trigger. -/
def noted (t : Timeline) (τ : Timer) (moment : Moment) : Timeline :=
  { t with journal := t.journal ++ [⟨t.now, τ.id, τ.trigger.runs, moment⟩] }

/-- Whether the task at a place has to be told when its trigger is closed. -/
def waits (t : Timeline) (place : Nat) : Bool :=
  (t.timers[place]?).any fun τ => τ.trigger.isRunning && decide (τ.trigger.task = .waiting)

/-- The clock where the trigger at a place was closed. -/
def closedAt (t : Timeline) (place : Nat) : Timeline :=
  { t with
    timers := t.timers.modify place Timer.closed
    ready := if t.waits place = true ∧ place ∉ t.ready then t.ready ++ [place] else t.ready }

/-- The clock where the trigger of an id was closed, if there is one. -/
def closedBy (t : Timeline) (id : Option String) : Timeline :=
  match id.bind (t.held.find? ·) with
  | none => t
  | some place => t.closedAt place

/-! ## Holders -/

/-- To close a closed timer changes nothing. -/
theorem closed_eq_self (h : τ.trigger.state = .closed) : τ.closed = τ := by
  rw [Timer.closed, Trigger.close_of_closed h]

/-- To close a timer puts the closed one in its place. -/
theorem modify_closed (h : t.timers[place]? = some τ) :
    t.timers.modify place Timer.closed = t.timers.set place τ.closed := by
  rw [List.modify_eq_set_getElem?, h]
  rfl

/-- Where there is no trigger nothing is closed. -/
theorem closedAt_of_none (h : t.timers[place]? = none) : t.closedAt place = t := by
  simp [closedAt, waits, h, List.modify_eq_self (List.getElem?_eq_none_iff.mp h)]

/-- To close a closed trigger changes nothing. -/
theorem closedAt_of_closed (h : t.timers[place]? = some τ) (hclosed : τ.trigger.state = .closed) :
    t.closedAt place = t := by
  have htimers : t.timers.modify place Timer.closed = t.timers := by
    obtain ⟨hlt, rfl⟩ := List.getElem?_eq_some_iff.mp h
    rw [modify_closed h, closed_eq_self hclosed, List.set_getElem_self]
  have hwaits : t.waits place = false := by
    simp [waits, h, Trigger.isRunning_eq, hclosed]
  simp [closedAt, htimers, hwaits]

/-- What is left where the trigger at a place is closed. -/
theorem ensures_closeAt (place : Nat) (t : Timeline) :
    Ensures (closeAt place) t fun _ t' => t' = t.closedAt place := by
  refine ensures_current_bind ?_
  cases hτ : t.timers[place]? with
  | none => exact ensures_pure (closedAt_of_none hτ).symm
  | some τ =>
    -- Only an open trigger is touched, and its task is told if it waits.
    by_cases hclosed : τ.trigger.state = .closed
    · simp only [Trigger.close_of_closed hclosed]
      exact ensures_pure (closedAt_of_closed hτ hclosed).symm
    · simp only [Trigger.close_of_open hclosed]
      have hwaits : t.waits place = decide (τ.trigger.task = .waiting) := by
        simp [waits, hτ, Trigger.isRunning_eq, hclosed]
      have hτ' : t.timers.modify place Timer.closed = t.timers.set place
          { τ with trigger := { τ.trigger with state := .closed, wakeUp := true } } := by
        rw [modify_closed hτ, Timer.closed, Trigger.close_of_open hclosed]
      simp only [closedAt, hwaits, hτ', decide_eq_true_iff]
      refine ensures_modify_bind ?_
      split
      · exact ensures_modify_bind (ensures_pure rfl)
      · exact ensures_pure rfl

/-- What is left where the trigger of an id is closed. -/
theorem ensures_close (id : String) (t : Timeline) :
    Ensures (close id) t fun _ t' => t' = t.closedBy (some id) := by
  refine ensures_current_bind ?_
  simp only [closedBy, Option.bind_some]
  cases t.held.find? id with
  | none => exact ensures_pure rfl
  | some place =>
    refine (ensures_closeAt place t).bind fun first t' ht' => ?_
    cases first with
    | none => exact ensures_pure ht'
    | some τ => exact (Act.ensures_report ht').bind fun _ _ h => ensures_pure h

/-- What is left where the trigger of an id is dropped. -/
theorem ensures_drop (id : String) (t : Timeline) :
    Ensures (drop id) t fun _ t' =>
      t' = { t.closedBy (some id) with held := t.held.erase id } := by
  refine ensures_current_bind ?_
  simp only [closedBy, Option.bind_some]
  cases hplace : t.held.find? id with
  | none =>
    refine ensures_pure ?_
    rw [Entries.erase_eq_self hplace]
  | some place =>
    refine (ensures_closeAt place t).bind fun _ t' ht' => ?_
    subst ht'
    exact ensures_modify_bind (ensures_pure rfl)

/-- The clock with another trigger. -/
def armed (t : Timeline) (τ : Timer) : Timeline :=
  { t with timers := t.timers ++ [τ], ready := t.ready ++ [t.timers.length] }

/-- The trigger that had the id is closed. -/
theorem ensures_arm (kind : Trigger.Kind) (id : String) (delay : Nat) (handler : Nat → Run)
    (t : Timeline) :
    Ensures (arm kind id delay handler) t fun _ t' =>
      let t₁ := (t.armed ⟨id, delay, handler, .arm kind, none⟩).closedBy (some id)
      t' = { t₁ with held := (t.held.erase id).insert id t.timers.length } := by
  refine ensures_current_bind (ensures_modify_bind ?_)
  refine (Act.ensures_report (Q := fun _ t₁ => t₁ = t.armed _) rfl).bind fun _ t₁ ht₁ => ?_
  refine (ensures_drop id t₁).bind fun _ t₂ ht₂ => ensures_modify ?_
  rw [ht₂, ht₁]
  rfl

/-- What is at a place where a trigger was closed. -/
theorem getElem?_closedBy (t : Timeline) (id : Option String) (place : Nat) :
    (t.closedBy id).timers[place]? = (t.timers[place]?).map fun τ =>
      if id.bind (t.held.find? ·) = some place then τ.closed else τ := by
  rw [closedBy]
  cases id.bind (t.held.find? ·) with
  | none => simp
  | some other => simp [closedAt, List.getElem?_modify]

/-- What is the same for a timer whose trigger was closed is the same at all places. -/
theorem map_closedBy {α : Type} {f : Timer → α} (t : Timeline) (id : Option String) (place : Nat)
    (hf : ∀ τ, f τ.closed = f τ) :
    ((t.closedBy id).timers[place]?).map f = (t.timers[place]?).map f := by
  rw [getElem?_closedBy, Option.map_map]
  congr 1
  funext τ
  rw [Function.comp_apply, apply_ite f, hf, ite_self]

/-- To close a trigger takes no time. -/
@[simp] theorem now_closedBy (t : Timeline) (id : Option String) : (t.closedBy id).now = t.now := by
  rw [closedBy]
  split <;> rfl

/-! ## Moves -/

/-- Whether a signal ends the wait of a timer. -/
def Ends (now : Nat) (τ : Timer) : Signal → Prop
  | .wakeUp => τ.trigger.wakeUp = true
  | .time => τ.trigger.wakeUp = false ∧ τ.deadline.any (· ≤ now) = true

/-- One thing that the task at a place does at one time. -/
inductive Move (place : Nat) (t : Timeline) : Timeline → Prop
  /-- It begins to wait for the first time. -/
  | enter {τ : Timer} (h : t.timers[place]? = some τ) (htask : τ.trigger.task = .spawned) :
      Move place t (t.placed place (τ.entered t.now))
  /-- A wait ends and nothing runs any more. -/
  | stop {τ : Timer} {signal : Signal} (h : t.timers[place]? = some τ)
      (htask : τ.trigger.task = .waiting) (hends : Ends t.now τ signal)
      (hstop : (τ.waited t.now signal).trigger.task = .finished) :
      Move place t (t.placed place (τ.waited t.now signal))
  /-- A wait ends and a run starts, which may close a trigger. -/
  | start {τ : Timer} {signal : Signal} (h : t.timers[place]? = some τ)
      (htask : τ.trigger.task = .waiting) (hends : Ends t.now τ signal)
      (hstart : (τ.waited t.now signal).trigger.task = .running) :
      Move place t
        (((t.placed place (τ.waited t.now signal)).noted (τ.waited t.now signal) .start).closedBy
          (τ.handler (τ.waited t.now signal).trigger.runs).closes)
  /-- A run ends. -/
  | finish {τ : Timer} {moment : Moment} (h : t.timers[place]? = some τ)
      (htask : τ.trigger.task = .running) (hdue : τ.deadline.any (· ≤ t.now) = true)
      (hmoment : moment ≠ .start) :
      Move place t ((t.placed place (τ.ranOut t.now)).noted τ moment)

/-- What the task at a place does at one time, in one go. -/
abbrev Moves (place : Nat) : Timeline → Timeline → Prop := Relation.ReflTransGen (Move place)

/-- Nothing is left to do for the task at a place by now, if its waits take time. -/
def Rests (t : Timeline) (place : Nat) : Prop :=
  ∀ τ, t.timers[place]? = some τ → τ.Calm ∧ (1 ≤ τ.delay → τ.Ahead t.now)

/-- It is enough that this holds of the timer at the place. -/
theorem Rests.of_eq (h : t.timers[place]? = some τ)
    (hτ : τ.Calm ∧ (1 ≤ τ.delay → τ.Ahead t.now)) : t.Rests place := by
  intro τ' hτ'
  obtain rfl := Option.some.inj (h.symm.trans hτ')
  exact hτ

/-- When a run ended, the next wait takes time, or there is none. -/
theorem rests_ranOut (h : t.timers[place]? = some (τ.ranOut t.now)) : t.Rests place := by
  refine .of_eq h ⟨?_, fun hdelay => .of_deadline rfl ?_⟩
  -- A trigger that waits again is armed, so no wake-up is left for it.
  · rcases τ.trigger.endRun_task (τ.handler τ.trigger.runs).outcome with ⟨hwait, harmed⟩ | hdone
    · simp [Timer.Calm, Timer.ranOut, hwait, harmed]
    · exact .of_finished hdone
  · exact Nat.lt_add_of_pos_right hdelay

/-! ## Polls -/

/-- What is put at a place is found there. -/
theorem getElem?_placed (h : t.timers[place]? = some τ) (τ' : Timer) :
    (t.placed place τ').timers[place]? = some τ' :=
  List.getElem?_set_self (List.getElem?_eq_some_iff.mp h).1

/-- A report leaves the clock as it is. -/
theorem ensures_report {severity : Severity} {pulse recurring : String}
    {fields : List (String × String)} {Q : Unit → Timeline → Prop} (h : Q () t) :
    Ensures (report severity τ pulse recurring fields) t Q := by
  unfold report
  cases τ.trigger.kind <;> exact Act.ensures_report h

/-- A run that is over ends. -/
theorem ensures_finishRun (h : t.timers[place]? = some τ) (htask : τ.trigger.task = .running)
    (hdue : τ.deadline.any (· ≤ t.now) = true) :
    Ensures (finishRun place) t fun _ t' => Moves place t t' ∧ t'.Rests place := by
  have hend {moment : Moment} (hmoment : moment ≠ .start) :
      Moves place t ((t.placed place (τ.ranOut t.now)).noted τ moment) ∧
        ((t.placed place (τ.ranOut t.now)).noted τ moment).Rests place :=
    ⟨.single (.finish h htask hdue hmoment), rests_ranOut (getElem?_placed h _)⟩
  refine ensures_current_bind ?_
  simp only [h]
  refine ensures_modify_bind ?_
  change Ensures _ (t.placed place (τ.ranOut t.now)) _
  cases (τ.handler τ.trigger.runs).outcome with
  | error e => exact ensures_modify_bind (ensures_report (hend nofun))
  | ok =>
    refine ensures_modify_bind ?_
    split
    · exact ensures_report (hend nofun)
    · exact ensures_pure (hend nofun)

/-- A run that started ends at once if it takes no time. -/
theorem ensures_ifOver {duration : Nat} (h : t.timers[place]? = some τ)
    (htask : τ.trigger.task = .running) (hdeadline : τ.deadline = some (t.now + duration)) :
    Ensures (if duration = 0 then finishRun place else pure ()) t fun _ t' =>
      Moves place t t' ∧ t'.Rests place := by
  split
  · rename_i hzero
    exact ensures_finishRun h htask (by simp [hdeadline, hzero])
  -- A run that takes time is over later.
  · refine ensures_pure ⟨.refl, .of_eq h ⟨.of_running htask, fun _ => .of_deadline hdeadline ?_⟩⟩
    omega

/-- When a run starts, it closes what it is to close, and ends at once if it takes no time. -/
theorem ensures_starts (run : Run) (h : t.timers[place]? = some τ)
    (htask : τ.trigger.task = .running) (hdeadline : τ.deadline = some (t.now + run.duration)) :
    Ensures (do
        match run.closes with
        | some id => let _ ← close id
        | none => pure ()
        if run.duration = 0 then finishRun place) t fun _ t' =>
      Moves place (t.closedBy run.closes) t' ∧ t'.Rests place := by
  -- The run may close its own trigger, and it goes on all the same.
  have hclosed := getElem?_closedBy t run.closes place
  rw [h, Option.map_some] at hclosed
  have hrest := ensures_ifOver hclosed (by split <;> exact htask)
    (by rw [now_closedBy]; split <;> exact hdeadline)
  cases hcloses : run.closes with
  | none =>
    rw [hcloses] at hrest
    exact hrest
  | some id =>
    rw [hcloses] at hrest
    refine (ensures_close id t).bind fun _ t' ht' => ?_
    rw [ht']
    exact hrest

/-- A wait that a signal ends is followed by a run, or by nothing. -/
theorem ensures_finishWait (signal : Signal) (h : t.timers[place]? = some τ)
    (htask : τ.trigger.task = .waiting) (hends : Ends t.now τ signal) :
    Ensures (finishWait place signal) t fun _ t' => Moves place t t' ∧ t'.Rests place := by
  refine ensures_current_bind ?_
  simp only [h]
  refine ensures_modify_bind ?_
  change Ensures _ (t.placed place (τ.waited t.now signal)) _
  rcases τ.trigger.endWait_task signal with hrun | hdone
  · simp only [hrun, reduceCtorEq, if_false]
    refine ensures_modify_bind ?_
    change Ensures _ ((t.placed place (τ.waited t.now signal)).noted _ .start) _
    refine Ensures.mono (ensures_starts _ (getElem?_placed h _) hrun rfl) ?_
    exact fun _ t' ⟨hmoves, hrests⟩ => ⟨.head (.start h htask hends hrun) hmoves, hrests⟩
  · simp only [hdone, if_true]
    refine ensures_report ⟨.single (.stop h htask hends hdone), ?_⟩
    exact .of_eq (getElem?_placed h _) ⟨.of_finished hdone, fun _ => .of_finished hdone⟩

/-- Whatever there is to do for a task by now is done when it was polled. -/
theorem ensures_poll (place : Nat) (t : Timeline) :
    Ensures (poll place) t fun _ t' => Moves place t t' ∧ t'.Rests place := by
  refine ensures_current_bind ?_
  cases h : t.timers[place]? with
  | none => exact ensures_pure ⟨.refl, fun τ hτ => nomatch h.symm.trans hτ⟩
  | some τ =>
    cases htask : τ.trigger.task with
    | spawned =>
      simp only [htask]
      refine ensures_modify_bind ?_
      change Ensures _ (t.placed place (τ.entered t.now)) _
      have hentered := getElem?_placed h (τ.entered t.now)
      have hmove := Move.enter h htask
      -- A trigger that was closed before its task began to wait is told so at once.
      split
      · rename_i hwake
        refine (ensures_finishWait .wakeUp hentered rfl hwake).mono ?_
        exact fun _ t' ⟨hmoves, hrests⟩ => ⟨.head hmove hmoves, hrests⟩
      · rename_i hwake
        refine ensures_pure ⟨.single hmove, .of_eq hentered ⟨?_, fun hdelay => ?_⟩⟩
        · exact ⟨nofun, fun h => hwake h.2.1⟩
        · exact .of_deadline rfl (Nat.lt_add_of_pos_right hdelay)
    | waiting =>
      simp only [htask]
      split
      · rename_i hwake
        exact ensures_finishWait .wakeUp h htask hwake
      · rename_i hwake
        split
        · rename_i hdue
          exact ensures_finishWait .time h htask ⟨by simpa using hwake, hdue⟩
        · rename_i hdue
          refine ensures_pure ⟨.refl, .of_eq h ⟨?_, fun _ => .of_not_due hdue⟩⟩
          exact ⟨by simp [htask], fun h => hwake h.2.1⟩
    | running =>
      simp only [htask]
      split
      · rename_i hdue
        exact ensures_finishRun h htask hdue
      · rename_i hdue
        exact ensures_pure ⟨.refl, .of_eq h ⟨.of_running htask, fun _ => .of_not_due hdue⟩⟩
    | finished =>
      simp only [htask]
      exact ensures_pure ⟨.refl, .of_eq h ⟨.of_finished htask, fun _ => .of_finished htask⟩⟩

/-! ## What moves leave alone -/

/-- Two clocks with the same triggers, as they were armed. -/
def Alike (t t' : Timeline) : Prop :=
  ∀ r : Nat, (t'.timers[r]?).map Timer.make = (t.timers[r]?).map Timer.make

/-- This goes both ways. -/
theorem Alike.symm (h : Alike t t') : Alike t' t := fun r => (h r).symm

/-- Each trigger of the one clock is found on the other. -/
theorem Alike.exists (h : Alike t t') (hτ : t'.timers[place]? = some τ) :
    ∃ τ', t.timers[place]? = some τ' ∧ τ.id = τ'.id ∧ τ.delay = τ'.delay ∧
      τ.handler = τ'.handler := by
  have hmake := h place
  rw [hτ, Option.map_some] at hmake
  obtain ⟨τ', hτ', hmake⟩ := Option.map_eq_some_iff.mp hmake.symm
  exact ⟨τ', hτ', Timer.make_eq_iff.mp hmake.symm⟩

/-- What the moves at a place leave alone: clock, holders, the tasks that are ready already, all
that triggers were armed with, and what is due for the triggers at other places. -/
structure Beside (place : Nat) (t t' : Timeline) : Prop where
  now : t'.now = t.now
  held : t'.held = t.held
  ready : t.ready <+: t'.ready
  makes : Alike t t'
  pending : ∀ r : Nat, r ≠ place →
    (t'.timers[r]?).map pendingDeadline? = (t.timers[r]?).map pendingDeadline?

theorem Beside.refl (place : Nat) (t : Timeline) : Beside place t t :=
  ⟨rfl, rfl, List.prefix_rfl, fun _ => rfl, fun _ _ => rfl⟩

/-- What is beside a place twice is beside it. -/
theorem Beside.trans (h : Beside place t t') (h' : Beside place t' t'') : Beside place t t'' where
  now := h'.now.trans h.now
  held := h'.held.trans h.held
  ready := h.ready.trans h'.ready
  makes r := (h'.makes r).trans (h.makes r)
  pending r hr := (h'.pending r hr).trans (h.pending r hr)

/-- What is put at the place leaves the others alone. -/
theorem beside_placed (h : t.timers[place]? = some τ) (hmake : τ'.make = τ.make) :
    Beside place t (t.placed place τ') := by
  refine ⟨rfl, rfl, List.prefix_rfl, fun r => ?_, fun r hr => ?_⟩
  · by_cases hr : r = place
    · rw [hr, getElem?_placed h, h, Option.map_some, hmake, Option.map_some]
    · rw [placed, List.getElem?_set_ne (Ne.symm hr)]
  · rw [placed, List.getElem?_set_ne (Ne.symm hr)]

/-- An entry in the journal leaves all places alone. -/
theorem beside_noted (place : Nat) (t : Timeline) (τ : Timer) (moment : Moment) :
    Beside place t (t.noted τ moment) :=
  ⟨rfl, rfl, List.prefix_rfl, fun _ => rfl, fun _ _ => rfl⟩

/-- To close a trigger leaves what is due for it to its task. -/
theorem beside_closedBy (place : Nat) (t : Timeline) (id : Option String) :
    Beside place t (t.closedBy id) where
  now := now_closedBy t id
  held := by
    rw [closedBy]
    split <;> rfl
  ready := by
    rw [closedBy]
    split
    · exact List.prefix_rfl
    · rw [closedAt]
      split
      · exact List.prefix_append ..
      · exact List.prefix_rfl
  makes r := map_closedBy t id r fun _ => rfl
  pending r _ := map_closedBy t id r fun _ => rfl

/-- Each move leaves the other places alone. -/
theorem Move.beside (h : Move place t t') : Beside place t t' := by
  cases h with
  | enter h | stop h => exact beside_placed h rfl
  | start h =>
    refine ((beside_placed h ?_).trans (beside_noted ..)).trans (beside_closedBy ..)
    rfl
  | finish h =>
    refine (beside_placed h ?_).trans (beside_noted ..)
    rfl

/-- All moves of a poll leave the other places alone. -/
theorem Moves.beside (h : Moves place t t') : Beside place t t' := by
  induction h with
  | refl => exact .refl place t
  | tail _ hmove ih => exact ih.trans hmove.beside

/-- Nothing is due by now for the trigger at a place. -/
def AheadAt (t : Timeline) (place : Nat) : Prop :=
  ∀ τ, t.timers[place]? = some τ → τ.Ahead t.now

/-- Nothing has to be told to the task at a place. -/
def CalmAt (t : Timeline) (place : Nat) : Prop := ∀ τ, t.timers[place]? = some τ → τ.Calm

/-- So nothing gets due elsewhere. -/
theorem AheadAt.beside (h : t.AheadAt other) (hbeside : Beside place t t') (hne : other ≠ place) :
    t'.AheadAt other := by
  intro τ hτ
  have hpending := hbeside.pending other hne
  rw [hτ, Option.map_some] at hpending
  obtain ⟨τ', hτ', hsame⟩ := Option.map_eq_some_iff.mp hpending.symm
  rw [Timer.Ahead, hbeside.now, ← hsame]
  exact h τ' hτ'

/-- Who closes a trigger tells its task. -/
theorem calmAt_or_mem_ready_closedBy (id : Option String) (h : t.CalmAt place ∨ place ∈ t.ready) :
    (t.closedBy id).CalmAt place ∨ place ∈ (t.closedBy id).ready := by
  rcases h with hcalm | hready
  · rw [closedBy]
    cases id.bind (t.held.find? ·) with
    | none => exact .inl hcalm
    | some other =>
      -- Only a task that waits has to be told, and then it is ready.
      by_cases hwaits : other = place ∧ t.waits place = true
      · obtain ⟨rfl, hwaits⟩ := hwaits
        refine .inr ?_
        by_cases hmem : other ∈ t.ready <;> simp [closedAt, hwaits, hmem]
      · refine .inl fun τ' hτ' => ?_
        simp only [closedAt, List.getElem?_modify] at hτ'
        obtain ⟨τ, hτ, rfl⟩ := Option.map_eq_some_iff.mp hτ'
        have hτcalm := hcalm τ hτ
        split
        · rename_i hplace
          by_cases hclosed : τ.trigger.state = .closed
          · rwa [closed_eq_self hclosed]
          · have htask : τ.trigger.task ≠ .waiting := fun htask =>
              hwaits ⟨hplace, by simp [waits, hτ, Trigger.isRunning_eq, hclosed, htask]⟩
            exact ⟨hτcalm.1, fun h => htask h.1⟩
        · exact hτcalm
  · exact .inr ((beside_closedBy place t id).ready.subset hready)

/-- A move touches the trigger at another place only where its run closes it. -/
theorem Move.getElem?_of_ne (h : Move place t t') (hne : other ≠ place) :
    t'.timers[other]? = t.timers[other]? ∨
      ∃ τ n id, t.timers[place]? = some τ ∧ (τ.handler n).closes = some id ∧
        t.held.find? id = some other := by
  have hset (τ' : Timer) : (t.placed place τ').timers[other]? = t.timers[other]? :=
    List.getElem?_set_ne (Ne.symm hne)
  cases h with
  | enter | stop | finish => exact .inl (hset _)
  | @start τ signal h =>
    -- The run closes the trigger at the other place, or it touches nothing there.
    by_cases hother : ((τ.handler (τ.waited t.now signal).trigger.runs).closes).bind
        (t.held.find? ·) = some other
    · obtain ⟨id, hid, hplace⟩ := Option.bind_eq_some_iff.mp hother
      exact .inr ⟨τ, _, id, h, hid, hplace⟩
    · refine .inl ((getElem?_closedBy ..).trans ?_)
      simp only [noted, placed, hother, if_false, Option.map_id']
      exact hset _

end LayeredConfig.Timeline
