import LayeredConfig.Config.Basic

/-!
# Logs of what happened

The notes of a run are read in three ways: as the history of its writes, as the calls of observers
that began, and as an account of the registry, which a replay of the writes can check.

## Key results

- `Registry.explains_append`: a replay goes on where it stopped
- `Registry.rounds_append`: the rounds of more writes
- `Log.going_append`: calls that do not overlap, log after log
-/

namespace LayeredConfig

/-! ## Replaying writes -/

namespace Registry

/-- What a writer is told. -/
def answer (r : Registry) (w : Write) : Except Error Bool := (r.apply w).map Option.isSome

/-- The registry after a write, which may change nothing. -/
def next (r : Registry) (w : Write) : Registry :=
  match r.apply w with
  | .ok (some r') => r'
  | _ => r

/-- The registry after writes. -/
def after (r : Registry) (ws : List Write) : Registry := ws.foldl next r

/-- The rounds that a write queues: one if there is anything to do. -/
def roundOf (r : Registry) (w : Write) : List Round :=
  match r.answer w with
  | .ok true => [⟨r.merged, (r.next w).merged⟩]
  | _ => []

/-- The rounds that writes queue, one write after the other. -/
def rounds (r : Registry) : List Write → List Round
  | [] => []
  | w :: ws => r.roundOf w ++ (r.next w).rounds ws

/-- Where there is something to do, the registry after the write is the one that comes of it. -/
theorem apply_of_answer {r : Registry} {w : Write} (h : r.answer w = .ok true) :
    r.apply w = .ok (some (r.next w)) := by
  unfold answer at h
  unfold next
  -- Only a registry that was changed gives this answer.
  cases hr : r.apply w with
  | error e => rw [hr] at h; exact nomatch h
  | ok r? =>
    cases r? with
    | none => rw [hr] at h; exact nomatch h
    | some r' => rfl

/-- A write that does nothing leaves the registry as it is. -/
theorem next_of_answer_ne {r : Registry} {w : Write} (h : r.answer w ≠ .ok true) :
    r.next w = r := by
  unfold next
  unfold answer at h
  split
  · rename_i r' hr
    exact absurd (by rw [hr]; rfl) h
  · rfl

/-- A write that does something queues the views before and after it. -/
theorem roundOf_of_answer {r : Registry} {w : Write} (h : r.answer w = .ok true) :
    r.roundOf w = [⟨r.merged, (r.next w).merged⟩] := by
  simp only [roundOf, h]

/-- A write that does nothing queues nothing. -/
theorem roundOf_of_answer_ne {r : Registry} {w : Write} (h : r.answer w ≠ .ok true) :
    r.roundOf w = [] := by
  unfold roundOf
  split
  · rename_i hr
    exact absurd hr h
  · rfl

@[simp] theorem rounds_singleton (r : Registry) (w : Write) : r.rounds [w] = r.roundOf w := by
  simp [rounds]

@[simp] theorem after_nil (r : Registry) : r.after [] = r := rfl

@[simp] theorem after_cons (r : Registry) (w : Write) (ws : List Write) :
    r.after (w :: ws) = (r.next w).after ws := rfl

/-- What writes make of a registry, later writes go on with. -/
theorem after_append (r : Registry) (ws vs : List Write) :
    r.after (ws ++ vs) = (r.after ws).after vs := List.foldl_append

/-- Later writes queue their rounds behind, from the registry that the earlier ones left. -/
theorem rounds_append (r : Registry) (ws vs : List Write) :
    r.rounds (ws ++ vs) = r.rounds ws ++ (r.after ws).rounds vs := by
  induction ws generalizing r with
  | nil => rfl
  | cons w ws ih => simp [rounds, ih]

end Registry

/-! ## Reading logs -/

/-- A write with what its writer was told. -/
abbrev History : Type := List (Write × Except Error Bool)

namespace Log

/-- The write that a note is about. -/
def write? : Note → Option (Write × Except Error Bool)
  | .deed (.wrote w result) => some (w, result)
  | _ => none

/-- The call that begins with a note: of whom, where it is registered, and what it is told. -/
def begun? : Note → Option (String × String × Change)
  | .began id channel change => some (id, channel, change)
  | _ => none

/-- The writes in a log with what the writers were told, in the order in which they were applied. -/
def history (log : List Note) : History := log.filterMap write?

/-- The writes in a log. -/
def writes (log : List Note) : List Write := (history log).map Prod.fst

/-- The calls that began, in order. -/
def begun (log : List Note) : List (String × String × Change) := log.filterMap begun?

/-- Whether a call goes on after a log, given whether one goes on before it.  There is no answer
for a log in which calls overlap. -/
def going : Bool → List Note → Option Bool
  | running, [] => some running
  | running, .began _ _ _ :: log => if running then none else going true log
  | running, .ended _ :: log => if running then going false log else none
  | running, .event _ :: log => going running log
  | running, .deed _ :: log => going running log

@[simp] theorem history_nil : history [] = [] := rfl

@[simp] theorem history_cons (n : Note) (log : List Note) :
    history (n :: log) = (write? n).toList ++ history log := by
  cases h : write? n <;> simp [history, h]

@[simp] theorem begun_cons (n : Note) (log : List Note) :
    begun (n :: log) = (begun? n).toList ++ begun log := by
  cases h : begun? n <;> simp [begun, h]

/-- The history of two logs is that of one and then that of the other. -/
@[simp] theorem history_append (a b : List Note) : history (a ++ b) = history a ++ history b :=
  List.filterMap_append

@[simp] theorem writes_append (a b : List Note) : writes (a ++ b) = writes a ++ writes b := by
  simp [writes]

@[simp] theorem begun_append (a b : List Note) : begun (a ++ b) = begun a ++ begun b :=
  List.filterMap_append

/-- Whether a call goes on after two logs is told by the second from where the first has ended. -/
theorem going_append (running : Bool) (a b : List Note) :
    going running (a ++ b) = (going running a).bind fun running => going running b := by
  induction a generalizing running with
  | nil => rfl
  | cons n a ih => cases n <;> cases running <;> simp [going, ih]

/-! ## Events -/

/-- Events are no writes. -/
@[simp] theorem history_events (es : List Event) : history (es.map .event) = [] := by
  simp [history, List.filterMap_map, Function.comp_def, write?]

@[simp] theorem writes_events (es : List Event) : writes (es.map .event) = [] := by
  simp [writes]

/-- Events begin no calls. -/
@[simp] theorem begun_events (es : List Event) : begun (es.map .event) = [] := by
  simp [begun, List.filterMap_map, Function.comp_def, begun?]

/-- Events end no call. -/
@[simp] theorem going_events (running : Bool) (es : List Event) :
    going running (es.map .event) = some running := by
  induction es with
  | nil => rfl
  | cons e es ih => exact ih

end Log

/-! ## Checking logs -/

namespace Registry

/-- Whether a registry explains a log: when the writes are replayed, every writer is told what the
registry answers then, and whoever looks sees the registry and the view of then. -/
def Explains (r : Registry) : List Note → Prop
  | [] => True
  | .deed (.wrote w result) :: log => result = r.answer w ∧ (r.next w).Explains log
  | .deed (.saw view) :: log => view = r.merged ∧ r.Explains log
  | .deed (.surveyed registry) :: log => registry = r ∧ r.Explains log
  | _ :: log => r.Explains log

/-- A replay goes on with the second log where the writes of the first have led. -/
theorem explains_append (r : Registry) (a b : List Note) :
    r.Explains (a ++ b) ↔ r.Explains a ∧ (r.after (Log.writes a)).Explains b := by
  induction a generalizing r with
  | nil => simp [Explains, Log.writes]
  | cons n a ih =>
    -- Only deeds are checked, and only a write changes the registry for the rest.
    cases n with
    | deed d =>
      cases d <;> simp [Explains, Log.writes, Log.write?, ih, and_assoc]
    | _ => simp [Explains, Log.writes, Log.write?, ih]

/-- There is nothing about events to explain. -/
@[simp] theorem explains_events (r : Registry) (es : List Event) : r.Explains (es.map .event) := by
  induction es with
  | nil => trivial
  | cons e es ih => exact ih

end Registry
end LayeredConfig
