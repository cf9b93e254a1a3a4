import LayeredConfig.Proofs.Delivery.Reach

/-!
# The trace of a write

A write that comes to an end has delivered one round for each change of the view, its own and those
of the writes of observers, in the order in which they were applied.

## Key results

- `Thread.settle_eq_iterate`: settling is to make steps until nothing is under way
- `Config.write_of_stack_eq_nil`: a write is steps until nothing is under way
- `Thread.Reaches.config_write`: what a thread reaches, it also reaches with a whole write behind it
- `Config.traced_of_settles`: the trace of a write
- `Thread.traced`: the same for reachable configurations
-/

namespace LayeredConfig

namespace Thread

/-! ## Settling -/

/-- Where nothing is under way, settling is over. -/
theorem settle_of_stack_eq_nil {t : Thread} (h : t.stack = []) : t.settle = t := by
  rw [settle, repeatM_eq_of_monadTail]
  simp [repeatM.body, h]

/-- Where something is under way, settling is one step and then the rest. -/
theorem settle_of_stack_ne_nil {t : Thread} (h : t.stack ≠ []) : t.settle = t.step.settle := by
  rw [settle, repeatM_eq_of_monadTail]
  simp [repeatM.body, h, settle]

/-- Settling is to make steps until nothing is under way. -/
theorem settle_eq_iterate {t : Thread} {n : Nat} (h : (step^[n] t).stack = []) :
    t.settle = step^[n] t := by
  induction n generalizing t with
  | zero => exact settle_of_stack_eq_nil h
  | succ n ih =>
    rw [Function.iterate_succ_apply] at h ⊢
    by_cases hnil : t.stack = []
    · -- There is nothing to do, so the steps change nothing.
      have hstep : t.step = t := by simp [step, hnil]
      rw [hstep] at h ⊢
      exact ih h
    · rw [settle_of_stack_ne_nil hnil, ih h]

/-! ## Writes from beginning to end -/

/-- The thread as if other notes had been made before. -/
def behind (notes : List Note) (t : Thread) : Thread := { t with notes := notes ++ t.notes }

/-- A write does not depend on what was noted before. -/
theorem write_behind (notes : List Note) (w : Write) (resume : Except Error Bool → List Frame)
    (t : Thread) : (t.behind notes).write w resume = (t.write w resume).behind notes := by
  simp only [write, behind, List.append_assoc]

/-- Steps do not depend on what was noted before. -/
theorem step_behind (notes : List Note) (t : Thread) :
    (t.behind notes).step = t.step.behind notes := by
  obtain ⟨c, stack, own⟩ := t
  -- The cases are those of a step: what is under way decides, and notes are only added to.
  rcases stack with _ | ⟨frame, below⟩
  · rfl
  cases frame with
  | dispatch => cases hlock : c.dispatching <;> simp [step, behind, hlock]
  | drain => cases hqueue : c.pending <;> simp [step, behind, hqueue]
  | leave => rfl
  | notify round paths =>
    cases paths with
    | nil => rfl
    | cons path paths =>
      simp only [step, behind]
      cases round.before.get? path == round.after.get? path <;> rfl
  | publish p =>
    obtain ⟨path, change, rest, failure⟩ := p
    cases rest <;> simp only [step, behind, List.append_assoc]
  | call id reaction p =>
    cases reaction with
    | write w next =>
      exact write_behind notes w (fun result => .call id (next result) p :: below)
        ⟨c, .call id (.write w next) p :: below, own⟩
    | _ => simp only [step, react, behind, List.append_assoc]

/-- Nor do any number of steps. -/
theorem steps_behind (notes : List Note) (n : Nat) (t : Thread) :
    step^[n] (t.behind notes) = (step^[n] t).behind notes :=
  (Function.Semiconj.iterate_right (fun t => (step_behind notes t).symm) n t).symm

end Thread

namespace Config

/-- The thread of a write after `n` steps. -/
def writing (w : Write) (n : Nat) (c : Config) : Thread := (Thread.start c).perform n (.write w)

/-- Whether the delivery that a write begins comes to an end. -/
def Settles (c : Config) (w : Write) : Prop := ∃ n, (c.writing w n).stack = []

/-- A write is steps until nothing is under way. -/
theorem write_of_stack_eq_nil {c : Config} {w : Write} {n : Nat}
    (h : (c.writing w n).stack = []) :
    Config.write w c = ⟨c.registry.answer w, (c.writing w n).config, (c.writing w n).notes⟩ := by
  -- The write was enacted, and settling does the rest.
  have hsettle : (Thread.write w (fun _ => []) ⟨c, [], []⟩).settle = c.writing w n :=
    Thread.settle_eq_iterate h
  rw [Config.write, hsettle, result_enact]

end Config

namespace Thread

/-- What a thread reaches, it also reaches with a whole write behind it. -/
theorem Reaches.config_write {allowed : Request → Prop} {t u : Thread} (h : Reaches allowed t u)
    (hidle : u.stack = []) {w : Write} (hw : allowed (.write w)) (hends : u.config.Settles w) :
    Reaches allowed t ⟨(Config.write w u.config).state, [],
      u.notes ++ (Config.write w u.config).notes⟩ := by
  obtain ⟨n, hstack⟩ := hends
  -- An idle thread is a start with its configuration, behind other notes.
  have hu : u = (start u.config).behind u.notes := by
    obtain ⟨c, stack, notes⟩ := u
    simp only at hidle
    simp [behind, start, hidle]
  have hserve : u.serve (.write w) = ((start u.config).serve (.write w)).behind u.notes := by
    rw [serve, serve, ← write_behind, ← hu]
  have hreach := h.perform n hidle hw
  rw [Thread.perform, hserve, steps_behind] at hreach
  rw [Config.write_of_stack_eq_nil hstack, ← hstack]
  exact hreach

end Thread

/-! ## Traces -/

namespace Config

/-- What a write leaves behind that begins at a configuration where nothing is under way. -/
structure Traced (c : Config) (w : Write) (o : Outcome Config Bool) : Prop where
  /-- The calls are those of the rounds, in the order in which the writes were applied. -/
  calls : Log.begun o.notes =
    (c.registry.rounds (Log.writes o.notes)).flatMap (callsOf c.observers)
  /-- Paths are taken in ascending order. -/
  paths : c.observers.channels.Pairwise (· < ·)
  /-- So are the observers of a path. -/
  subscribers : ∀ path, (c.observers.subscribers path).Pairwise (· < ·)
  /-- No call begins while another goes on, and each comes to its end. -/
  apart : Log.going false o.notes = some false
  /-- Every writer is told what the registry answers, and whoever looks sees what the latest write
  left, whatever observers came to. -/
  explained : c.registry.Explains o.notes
  first : (Log.writes o.notes).head? = some w
  result : o.result = c.registry.answer w
  registry : o.state.registry = c.registry.after (Log.writes o.notes)
  view : o.state.merged = o.state.registry.merged
  observers : o.state.observers = c.observers
  /-- Every round was delivered. -/
  pending : o.state.pending = []
  dispatching : o.state.dispatching = false

/-- A write that comes to an end is a move to a thread where nothing is under way. -/
theorem moves_of_settles {c : Config} (h : (Thread.start c).Coherent) {w : Write}
    (hends : c.Settles w) :
    ∃ t : Thread, t.stack = [] ∧ t.Coherent ∧
      Config.write w c = ⟨c.registry.answer w, t.config, t.notes⟩ ∧
      Thread.Moves (Thread.start c) t t.notes ∧ (Log.writes t.notes).head? = some w := by
  obtain ⟨n, hidle⟩ := hends
  have hserve := Thread.moves_serve_write h rfl w
  obtain ⟨log, hsteps, hcoherent⟩ := Thread.moves_steps (h.serve_write rfl w) n
  -- The request itself and then the steps, in one move.
  have hmoves := hserve.trans hsteps
  have hnotes := hmoves.notes.trans (List.nil_append _)
  refine ⟨c.writing w n, hidle, hcoherent, write_of_stack_eq_nil hidle, ?_, ?_⟩
  · rw [writing, Thread.perform, hnotes]
    exact hmoves
  · rw [writing, Thread.perform, hnotes, Log.writes_append, writes_notes_enact]
    rfl

/-- The trace of a write. -/
theorem traced_of_settles {c : Config} (h : (Thread.start c).Coherent) {w : Write}
    (hends : c.Settles w) : Traced c w (Config.write w c) := by
  obtain ⟨t, hidle, hcoherent, hwrite, hmoves, hfirst⟩ := moves_of_settles h hends
  -- Nothing was due before the write, and nothing is due after it.
  have hcalls := hmoves.calls
  rw [h.owed_eq_nil rfl, hcoherent.owed_eq_nil hidle, List.append_nil, List.nil_append] at hcalls
  have hapart := hmoves.calling
  rw [Thread.calling, Thread.calling, hidle] at hapart
  obtain ⟨hlock, hqueue⟩ := hcoherent.idle hidle
  rw [hwrite]
  exact {
    calls := hcalls
    paths := Entries.pairwise_lt_keys _
    subscribers := fun path => Entries.pairwise_lt_keys _
    apart := hapart
    explained := hmoves.explained
    first := hfirst
    result := rfl
    registry := hmoves.registry
    view := hcoherent.view
    observers := hmoves.observers
    pending := hqueue
    dispatching := hlock }

end Config

namespace Thread

/-- Whatever happened to a configuration before, a write to it that comes to an end has its exact
trace. -/
theorem traced {t : Thread} (h : t.Reachable) (hidle : t.stack = []) {w : Write}
    (hends : t.config.Settles w) : Config.Traced t.config w (Config.write w t.config) := by
  have hcoherent := h.coherent .start_empty
  -- Between requests a reachable configuration is a coherent start.
  refine Config.traced_of_settles ⟨hcoherent.view, ?_⟩ hends
  obtain ⟨hlock, hqueue⟩ := hcoherent.idle hidle
  rw [start, hlock, hqueue]
  exact .idle

/-- An observer that writes to another path and fails: the round of its write comes behind its own,
and its failure is nobody else's. -/
theorem traced_nested :
    ∃ (t : Thread) (w : Write), t.Reachable ∧ t.config.Settles w ∧
      (Config.write w t.config).result = .ok true ∧
      Log.begun (Config.write w t.config).notes =
        [("o", "x", ⟨"x", none, some (.int 1)⟩), ("p", "x", ⟨"x", none, some (.int 1)⟩),
          ("p", "y", ⟨"y", none, some (.int 2)⟩)] := by
  have h₁ := (Reaches.refl : Reachable (start .empty)).perform 0
    (q := .observe "o" "x" fun _ =>
      .write (.set "y" (.int 2)) fun _ => .finish (.error (.invalidPath "y"))) rfl trivial
  have h₂ := h₁.perform 0 (q := .observe "p" "x" fun _ => .finish (.ok ())) rfl trivial
  have h := h₂.perform 0 (q := .observe "p" "y" fun _ => .finish (.ok ())) rfl trivial
  have htraced := traced h rfl (w := .set "x" (.int 1)) ⟨24, rfl⟩
  refine ⟨_, _, h, ⟨24, rfl⟩, htraced.result.trans rfl, ?_⟩
  rw [htraced.calls, Config.write_of_stack_eq_nil (n := 24) rfl]
  rfl

end Thread
end LayeredConfig
