import LayeredConfig.Proofs.Delivery.Step
import LayeredConfig.Proofs.PubSub.Handlers
import Mathlib.Logic.Function.Iterate

/-!
# Runs

A thread takes requests when nothing is under way and makes steps otherwise.  What it reaches in
this way includes every moment in the middle of a delivery, before and after each write of an
observer.

## Key results

- `Thread.moves_steps`: what steps do
- `Thread.Reaches.coherent`: what a thread reaches is coherent
- `Thread.Reaches.replayed`: a replay of the writes explains all that happened
-/

namespace LayeredConfig

/-- What is asked of a configuration from outside any delivery. -/
inductive Request
  | write (w : Write)
  | observe (id path : String) (observer : Observer)
  | unobserve (id path : String)

namespace Config

/-- What happens to observers leaves all else alone, and only events are noted. -/
structure Regards (c : Config) (o : Outcome Config Unit) : Prop where
  state : o.state = { c with observers := o.state.observers }
  notes : o.notes = o.events.map .event

/-- An observer is registered at a path unless its id stands there already. -/
theorem observe_of_parse? {id path : String} {observer : Observer} {q : Path}
    (h : Path.parse? path = some q) (c : Config) :
    Config.observe id path observer c =
      if c.observers.isSubscribed id path then ⟨.error (.duplicateSubscription id path), c, []⟩
      else ⟨.ok (), { c with observers := c.observers.subscribed id path observer },
        [.event ⟨.debug, "subscribed", [("id", shown id), ("channel", shown path)]⟩]⟩ := by
  simp only [Config.observe, h, onObservers, Act.within, PubSub.subscribe_apply]
  split <;> rfl

/-- At what is no path nobody is registered. -/
theorem observe_of_parse?_eq_none {id path : String} {observer : Observer}
    (h : Path.parse? path = none) (c : Config) :
    Config.observe id path observer c = ⟨.error (.invalidPath path), c, []⟩ := by
  simp only [Config.observe, h, Act.fail]

/-- An observer is taken off if it stands there. -/
theorem unobserve_apply (id path : String) (c : Config) :
    Config.unobserve id path c =
      if c.observers.isSubscribed id path then
        ⟨.ok (), { c with observers := c.observers.unsubscribed id path },
          [.event ⟨.debug, "unsubscribed", [("id", shown id), ("channel", shown path)]⟩]⟩
      else ⟨.error (.subscriptionNotFound id path), c, []⟩ := by
  simp only [Config.unobserve, onObservers, Act.within, PubSub.unsubscribe_apply]
  split <;> rfl

/-- To register an observer or to take one off concerns the observers alone. -/
theorem regards_observe (id path : String) (observer : Observer) (c : Config) :
    Regards c (Config.observe id path observer c) := by
  cases h : Path.parse? path with
  | none => rw [observe_of_parse?_eq_none h]; exact ⟨rfl, rfl⟩
  | some q => rw [observe_of_parse? h]; split <;> exact ⟨rfl, rfl⟩

theorem regards_unobserve (id path : String) (c : Config) :
    Regards c (Config.unobserve id path c) := by
  rw [unobserve_apply]
  split <;> exact ⟨rfl, rfl⟩

end Config

namespace Thread

/-! ## Requests -/

/-- Go on as an action on the configuration has it. -/
def take (o : Outcome Config Unit) (t : Thread) : Thread :=
  { t with config := o.state, notes := t.notes ++ o.notes }

/-- Take a request. -/
def serve (t : Thread) : Request → Thread
  | .write w => t.write w fun _ => []
  | .observe id path observer => t.take (Config.observe id path observer t.config)
  | .unobserve id path => t.take (Config.unobserve id path t.config)

/-- The thread of a configuration to which nothing happened yet. -/
def start (c : Config) : Thread := ⟨c, [], []⟩

/-- `Reaches allowed t u`: the thread `t` may come to `u` by steps and by requests that `allowed`
admits. -/
inductive Reaches (allowed : Request → Prop) (t : Thread) : Thread → Prop
  | refl : Reaches allowed t t
  | request {u : Thread} (q : Request) : Reaches allowed t u → u.stack = [] → allowed q →
      Reaches allowed t (u.serve q)
  | step {u : Thread} : Reaches allowed t u → Reaches allowed t u.step

/-- What a fresh configuration may come to, by any requests. -/
abbrev Reachable (t : Thread) : Prop := Reaches (fun _ => True) (start .empty) t

/-- What is reached leads on by any number of steps. -/
theorem Reaches.steps {allowed : Request → Prop} {t u : Thread} (h : Reaches allowed t u) (n : Nat) :
    Reaches allowed t (Thread.step^[n] u) := by
  induction n with
  | zero => exact h
  | succ n ih =>
    rw [Function.iterate_succ_apply']
    exact .step ih

/-- Take a request and make steps. -/
def perform (n : Nat) (t : Thread) (q : Request) : Thread := step^[n] (t.serve q)

/-- What a request and steps after it make of a thread is reached if the thread was. -/
theorem Reaches.perform {allowed : Request → Prop} {t u : Thread} (h : Reaches allowed t u) (n : Nat)
    {q : Request} (hidle : u.stack = []) (hq : allowed q) : Reaches allowed t (u.perform n q) :=
  (h.request q hidle hq).steps n

/-- An empty configuration is a coherent start. -/
theorem Coherent.start_empty : (start .empty).Coherent := ⟨rfl, .idle⟩

/-- Between requests a configuration is as good as a fresh start with it. -/
theorem Coherent.start_config {t : Thread} (h : t.Coherent) (hidle : t.stack = []) :
    (start t.config).Coherent := by
  obtain ⟨hlock, hqueue⟩ := h.idle hidle
  refine ⟨h.view, ?_⟩
  rw [start, hlock, hqueue]
  exact .idle

/-- What a request to write does to an idle thread. -/
theorem moves_serve_write {t : Thread} (h : t.Coherent) (hidle : t.stack = []) (w : Write) :
    Moves t (t.serve (.write w)) (Config.enact w t.config).notes :=
  moves_write h.view w (fun _ => []) (fun _ => by rw [hidle]) (fun _ => by rw [calling, hidle])

/-- A write that an idle thread takes up leaves it coherent. -/
theorem Coherent.serve_write {t : Thread} (h : t.Coherent) (hidle : t.stack = []) (w : Write) :
    (t.serve (.write w)).Coherent := by
  refine ⟨view_write h.view w _, ?_⟩
  obtain ⟨hlock, hqueue⟩ := h.idle hidle
  simp only [serve, stack_write]
  simp only [write, Config.state_enact h.view, hlock, hqueue, onset]
  -- A round is waiting now if the write did something, and none otherwise.
  split
  · exact .dispatching
  · rename_i hne
    rw [Registry.roundOf_of_answer_ne hne]
    exact .idle

/-- What steps do, and that they keep a thread coherent. -/
theorem moves_steps {t : Thread} (h : t.Coherent) (n : Nat) :
    ∃ log, Moves t (step^[n] t) log ∧ (step^[n] t).Coherent := by
  -- Coherence is what each step needs and gives back.
  induction n with
  | zero => exact ⟨[], .refl t, h⟩
  | succ n ih =>
    obtain ⟨a, ha, hcoherent⟩ := ih
    obtain ⟨b, hb, hcoherent'⟩ := moves_step hcoherent
    rw [Function.iterate_succ_apply']
    exact ⟨a ++ b, ha.trans hb, hcoherent'⟩

/-- What concerns observers alone leaves a thread coherent. -/
theorem Coherent.take {t : Thread} (h : t.Coherent) {o : Outcome Config Unit}
    (ho : Config.Regards t.config o) : (t.take o).Coherent := by
  have hview := h.view
  have hshape := h.shape
  constructor
  · rw [Thread.take, ho.state]
    exact hview
  · rw [Thread.take, ho.state]
    exact hshape

/-- So does any request that an idle thread takes up. -/
theorem Coherent.serve {t : Thread} (h : t.Coherent) (hidle : t.stack = []) (q : Request) :
    (t.serve q).Coherent := by
  cases q with
  | write w => exact h.serve_write hidle w
  | observe id path observer => exact h.take (Config.regards_observe id path observer t.config)
  | unobserve id path => exact h.take (Config.regards_unobserve id path t.config)

/-- What a coherent thread reaches is coherent. -/
theorem Reaches.coherent {allowed : Request → Prop} {t u : Thread} (h : Reaches allowed t u)
    (ht : t.Coherent) : u.Coherent := by
  induction h with
  | refl => exact ht
  | request q _ hidle _ ih => exact ih.serve hidle q
  | step _ ih => exact (moves_step ih).choose_spec.2

/-! ## Replays -/

/-- Actions on observers write nothing. -/
theorem replays_take {t : Thread} {o : Outcome Config Unit} (ho : Config.Regards t.config o) :
    Replays t (t.take o) o.notes where
  notes := rfl
  registry := by
    rw [take, ho.state, ho.notes, Log.writes_events]
    rfl
  explained := by
    rw [ho.notes]
    exact Registry.explains_events _ _

/-- Whatever an idle thread takes up is explained by a replay. -/
theorem replays_serve {t : Thread} (h : t.Coherent) (hidle : t.stack = []) (q : Request) :
    ∃ log, Replays t (t.serve q) log := by
  cases q with
  | write w => exact ⟨_, (moves_serve_write h hidle w).toReplays⟩
  | observe id path observer => exact ⟨_, replays_take (Config.regards_observe id path observer _)⟩
  | unobserve id path => exact ⟨_, replays_take (Config.regards_unobserve id path _)⟩

/-- A replay of the writes explains all that happened. -/
theorem Reaches.replayed {allowed : Request → Prop} {t u : Thread} (h : Reaches allowed t u)
    (ht : t.Coherent) : ∃ log, Replays t u log := by
  -- Each request and each step adds to the log what it notes, and coherence says that this is
  -- explained.
  induction h with
  | refl => exact ⟨[], (List.append_nil _).symm, rfl, trivial⟩
  | request q hreach hidle _ ih =>
    obtain ⟨a, ha⟩ := ih
    obtain ⟨b, hb⟩ := replays_serve (hreach.coherent ht) hidle q
    exact ⟨a ++ b, ha.trans hb⟩
  | step hreach ih =>
    obtain ⟨a, ha⟩ := ih
    obtain ⟨b, hb, -⟩ := moves_step (hreach.coherent ht)
    exact ⟨a ++ b, ha.trans hb.toReplays⟩

end Thread
end LayeredConfig
