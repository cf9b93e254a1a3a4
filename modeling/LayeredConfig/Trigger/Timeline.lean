import LayeredConfig.Act
import LayeredConfig.SortedMap.Basic
import LayeredConfig.Trigger.Lifecycle

/-! # Triggers on a virtual clock

The clock counts milliseconds and moves only while someone sleeps.  What falls due on the way
happens in order of time.

* `Timeline`          clock, triggers and the journal of their runs
* `Timeline.arm`      arm a trigger under an id
* `Timeline.close`    close the trigger of an id
* `Timeline.drop`     close it and give up the id
* `Timeline.sleep`    let time pass -/

namespace LayeredConfig

/-- What one run of a handler does. -/
structure Run where
  /-- The id of a trigger that the run closes when it starts. -/
  closes : Option String
  /-- How long the run takes. -/
  duration : Nat
  outcome : Except Error Unit

/-- A trigger on the clock. -/
structure Timer where
  /-- The id under which the trigger was armed. -/
  id : String
  delay : Nat
  /-- What the n-th run does, counted from one. -/
  handler : Nat → Run
  trigger : Trigger
  /-- The end of the present wait or run; nothing before the first wait. -/
  deadline : Option Nat

/-- Something that the journal tells of a run. -/
inductive Moment
  | start
  | done
  | failed
deriving DecidableEq, Repr

/-- An entry of the journal: what happened when to which run. -/
structure Occurrence where
  time : Nat
  id : String
  run : Nat
  moment : Moment
deriving DecidableEq, Repr

/-- Clock, triggers and the journal of their runs. -/
structure Timeline where
  now : Nat
  /-- All triggers in the order in which they were armed. -/
  timers : List Timer
  /-- The triggers that can be closed, as places in `timers`, by id. -/
  held : SortedMap String Nat
  /-- The places of triggers whose task has something to do before time may pass. -/
  ready : List Nat
  journal : List Occurrence

namespace Timeline

/-- The clock at zero, without triggers. -/
def empty : Timeline := ⟨0, [], .nil, [], []⟩

/-- The triggers that can be closed, and whether they are running. -/
def running (t : Timeline) : List (String × Bool) :=
  t.held.toList.map fun h => (h.1, (t.timers[h.2]?).any fun timer => timer.trigger.isRunning)

/-! ## Reports -/

/-- Decimals without the zeros at their end. -/
def dropZeros (digits : List Char) : List Char := (digits.reverse.dropWhile (· = '0')).reverse

/-- A number of milliseconds with a unit: milliseconds below a second, then seconds. -/
def durationText (ms : Nat) : String :=
  if ms = 0 then "0ns"
  else if ms < 1000 then toString ms ++ "ms"
  else
    let decimals := dropZeros ((toString (1000 + ms % 1000)).toList.drop 1)
    let fraction := if decimals.isEmpty then "" else "." ++ .ofList decimals
    toString (ms / 1000) ++ fraction ++ "s"

/-- Report an event of a trigger, in the words for its kind. -/
def report (severity : Severity) (timer : Timer) (pulse recurring : String)
    (fields : List (String × String)) : Act Timeline Unit :=
  let delay := ("delay", durationText timer.delay)
  let runs := ("runs", toString timer.trigger.runs)
  match timer.trigger.kind with
  | .pulse => Act.report severity pulse (delay :: fields)
  | .recurring => Act.report severity recurring (delay :: runs :: fields)

/-! ## Holding triggers -/

/-- Replace the trigger at a place. -/
def put (place : Nat) (timer : Timer) : Act Timeline Unit :=
  Act.modify fun t => { t with timers := t.timers.set place timer }

/-- Close the trigger at a place.  A task that waits gets to know.  The result is the trigger, if
this closed it. -/
def closeAt (place : Nat) : Act Timeline (Option Timer) := do
  let t ← Act.current
  match t.timers[place]? with
  | none => return none
  | some timer =>
    let (first, trigger) := timer.trigger.close
    if !first then return none
    put place { timer with trigger }
    -- A task that runs finds out by itself when its run ends.
    if trigger.task = .waiting ∧ place ∉ t.ready then
      Act.modify fun t => { t with ready := t.ready ++ [place] }
    return some timer

/-- Close the trigger of an id, if there is one. -/
def close (id : String) : Act Timeline Bool := do
  match (← Act.current).held.find? id with
  | none => return false
  | some place =>
    match ← closeAt place with
    | none => pure ()
    | some timer =>
      let message := match timer.trigger.kind with
        | .pulse => "pulse closed"
        | .recurring => "recurring trigger closed"
      Act.report .debug message [("delay", durationText timer.delay)]
    return true

/-- Close the trigger of an id without a word and give up the id. -/
def drop (id : String) : Act Timeline Bool := do
  match (← Act.current).held.find? id with
  | none => return false
  | some place =>
    let _ ← closeAt place
    Act.modify fun t => { t with held := t.held.erase id }
    return true

/-- Arm a trigger under an id, in place of an earlier one. -/
def arm (kind : Trigger.Kind) (id : String) (delay : Nat) (handler : Nat → Run) :
    Act Timeline Unit := do
  let place := (← Act.current).timers.length
  Act.modify fun t => { t with
    timers := t.timers ++ [⟨id, delay, handler, .arm kind, none⟩], ready := t.ready ++ [place] }
  let message := match kind with
    | .pulse => "pulse armed"
    | .recurring => "recurring trigger armed"
  Act.report .debug message [("delay", durationText delay)]
  -- The new trigger is armed before the one that it replaces goes.
  let _ ← drop id
  Act.modify fun t => { t with held := t.held.insert id place }

/-! ## Passing time -/

/-- Write an entry about the present run of a trigger. -/
def record (timer : Timer) (moment : Moment) : Act Timeline Unit :=
  Act.modify fun t => { t with
    journal := t.journal ++ [⟨t.now, timer.id, timer.trigger.runs, moment⟩] }

/-- End the run of the trigger at a place. -/
def finishRun (place : Nat) : Act Timeline Unit := do
  let t ← Act.current
  match t.timers[place]? with
  | none => return
  | some timer =>
    let outcome := (timer.handler timer.trigger.runs).outcome
    let trigger := timer.trigger.endRun outcome
    put place { timer with trigger, deadline := some (t.now + timer.delay) }
    match outcome with
    | .error e =>
      record timer .failed
      report .warn timer "pulse handler failed" "recurring handler failed, stopping"
        [("error", e.message)]
    | .ok _ =>
      record timer .done
      if trigger.task = .finished ∧ trigger.kind = .recurring then
        report .debug timer "" "recurring trigger stopped" []

/-- End the wait of the trigger at a place. -/
def finishWait (place : Nat) (signal : Trigger.Signal) : Act Timeline Unit := do
  let t ← Act.current
  match t.timers[place]? with
  | none => return
  | some timer =>
    let timer := { timer with trigger := timer.trigger.endWait signal }
    let run := timer.handler timer.trigger.runs
    put place { timer with deadline := some (t.now + run.duration) }
    if timer.trigger.task = .finished then
      report .debug timer "pulse cancelled" "recurring trigger stopped" []
    else
      record timer .start
      -- A run may close its own trigger, which then is done when the run ends.
      match run.closes with
      | some id => let _ ← close id
      | none => pure ()
      if run.duration = 0 then finishRun place

/-- Let the task at a place do what it can at this time. -/
def poll (place : Nat) : Act Timeline Unit := do
  let t ← Act.current
  match t.timers[place]? with
  | none => return
  | some timer =>
    let due := timer.deadline.any (· ≤ t.now)
    match timer.trigger.task with
    | .spawned =>
      put place { timer with trigger := timer.trigger.enter, deadline := some (t.now + timer.delay) }
      if timer.trigger.wakeUp then finishWait place .wakeUp
    | .waiting =>
      if timer.trigger.wakeUp then finishWait place .wakeUp
      else if due then finishWait place .time
    | .running => if due then finishRun place
    | .finished => return

/-- Poll the ready tasks, at most `limit` of them, and those that get ready on the way. -/
def settle : Nat → Act Timeline Unit
  | 0 => pure ()
  | limit + 1 => do
    let t ← Act.current
    match t.ready with
    | [] => return
    | place :: rest =>
      Act.replace { t with ready := rest }
      poll place
      settle limit

/-- Poll tasks, one after the other, each followed by the tasks that it makes ready.  No poll makes
more of them ready than there are. -/
def pollAll : List Nat → Act Timeline Unit
  | [] => pure ()
  | place :: rest => do
    poll place
    settle (← Act.current).timers.length
    pollAll rest

/-- The end of the present wait or run of a trigger that is not done. -/
def pendingDeadline? (timer : Timer) : Option Nat :=
  if timer.trigger.task = .finished then none else timer.deadline

/-- The least of some times. -/
def earliest? : List Nat → Option Nat
  | [] => none
  | time :: rest =>
    match earliest? rest with
    | some other => some (min time other)
    | none => some time

/-- The places of the triggers that are due at a time, from a place on. -/
def dueFrom (time place : Nat) : List Timer → List Nat
  | [] => []
  | timer :: rest =>
    if pendingDeadline? timer = some time then place :: dueFrom time (place + 1) rest
    else dueFrom time (place + 1) rest

/-- Set the clock to a later time. -/
def advance (time : Nat) : Act Timeline Unit :=
  Act.modify fun t => { t with now := max t.now time }

/-- Let time pass until `target`, with at most `limit` stops on the way. -/
def passUntil (target : Nat) : Nat → Act Timeline Unit
  | 0 => advance target
  | limit + 1 => do
    let t ← Act.current
    match earliest? (t.timers.filterMap pendingDeadline?) with
    | none => advance target
    | some time =>
      if time ≤ target then
        advance time
        pollAll (dueFrom time 0 t.timers)
        passUntil target limit
      else advance target

/-- Let `ms` milliseconds pass.  Two stops at one time are enough as long as runs or delays take
time, so the limit is never reached unless the clock would stand still for ever. -/
def sleep (ms : Nat) : Act Timeline Unit := do
  if ms = 0 then return
  let t ← Act.current
  settle (t.ready.length + t.timers.length)
  passUntil (t.now + ms) (2 * ms + 2)

end Timeline
end LayeredConfig
