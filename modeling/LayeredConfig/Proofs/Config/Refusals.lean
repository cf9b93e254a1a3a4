import LayeredConfig.Proofs.Actions
import LayeredConfig.Proofs.Bag.Paths
import LayeredConfig.Proofs.Config.MergeOrder
import LayeredConfig.Proofs.Delivery.Trace

/-!
# What a configuration refuses

A request is refused for what it asks and for what is registered, and for nothing else.  A refusal
is told to whoever asked, and that is all: the configuration stays as it is, nothing is delivered,
and all that comes later comes as if nobody had asked.  So it is with the writes of observers, too.

## Key results

- `Config.result_request`: the exact answer to a request
- `Config.request_of_refused`: what a refused request leaves
- `Thread.run_behind`: what comes does not depend on what was noted before
- `Thread.refuses`: all of this at any moment
-/

namespace LayeredConfig

/-- What is noted of a request that is refused: a write is noted like any other. -/
def Request.noted : Request → Except Error Bool → List Note
  | .write w, result => [.deed (.wrote w result)]
  | _, _ => []

namespace Config

/-! ## Answers -/

/-- The answer to a request.  All but success is a refusal; to remove what is not there is refused
without an error. -/
def answer (c : Config) : Request → Except Error Bool
  | .write (.addSource id _ _) =>
    if id ∈ c.sources.map Prod.fst then .error (.duplicateResource "config source" id)
    else .ok true
  | .write (.removeSource id) => .ok (decide (id ∈ c.sources.map Prod.fst))
  | .write (.setPriority id _) =>
    if id ∈ c.sources.map Prod.fst then .ok true
    else .error (.unknownResource "config source" id)
  | .write (.set path _) =>
    if Path.Malformed path then .error (.invalidPath path) else .ok true
  | .observe id path _ =>
    if Path.Malformed path then .error (.invalidPath path)
    else if id ∈ c.observers.subscribers path then .error (.duplicateSubscription id path)
    else .ok true
  | .unobserve id path =>
    if id ∈ c.observers.subscribers path then .ok true
    else .error (.subscriptionNotFound id path)

/-- Serve a request from beginning to end.  The result tells whether there was anything to do. -/
def request : Request → Act Config Bool
  | .write w => write w
  | .observe id path observer => do
    observe id path observer
    return true
  | .unobserve id path => do
    unobserve id path
    return true

variable (c : Config)

/-- An id is registered if it is listed among the sources. -/
theorem has_eq_decide (id : String) :
    c.registry.has id = decide (id ∈ c.sources.map Prod.fst) := by
  -- The listed sources are those of the registry in another order.
  have hmem : c.registry.has id = true ↔ id ∈ c.sources.map Prod.fst := by
    simp [sources, Registry.has, Registry.find?, Registry.mem_ordered]
  rw [Bool.eq_iff_iff, hmem, decide_eq_true_iff]

/-- A registry answers a write as its configuration does. -/
theorem registry_answer (w : Write) : c.registry.answer w = c.answer (.write w) := by
  -- Each kind of write has its own reason to be refused.
  cases w with
  | addSource id priority bag =>
    by_cases h : id ∈ c.sources.map Prod.fst <;>
      simp [Registry.answer, Registry.apply, has_eq_decide, answer, h, Except.map]
  | removeSource id =>
    by_cases h : id ∈ c.sources.map Prod.fst <;>
      simp [Registry.answer, Registry.apply, has_eq_decide, answer, h, Except.map]
  | setPriority id priority =>
    by_cases h : id ∈ c.sources.map Prod.fst <;>
      simp [Registry.answer, Registry.apply, has_eq_decide, answer, h, Except.map]
  | set path v =>
    -- The overrides refuse a path exactly if it is malformed.
    have hpath : Path.parse? path = none ↔ Path.Malformed path := Path.parse?_eq_none_iff
    cases hp : Path.parse? path with
    | none => simp [Registry.answer, Registry.apply, Bag.set?, hp, answer, hpath.mp hp, Except.map]
    | some p =>
      have hwell : ¬ Path.Malformed path := by
        rw [← hpath, hp]
        exact nofun
      simp [Registry.answer, Registry.apply, Bag.set?, hp, answer, hwell, Except.map]

/-- An observer is registered, or it is refused and nothing happens. -/
theorem observe_answered (id path : String) (observer : Observer) :
    (c.answer (.observe id path observer) = .ok true ∧
        (observe id path observer c).result = .ok ()) ∨
      ∃ e, c.answer (.observe id path observer) = .error e ∧
        observe id path observer c = ⟨.error e, c, []⟩ := by
  -- The path is looked at before the id.
  by_cases hpath : Path.Malformed path
  · have hobserve : observe id path observer c = ⟨.error (.invalidPath path), c, []⟩ :=
      observe_of_parse?_eq_none (Path.parse?_eq_none_iff.mpr hpath) c
    exact .inr ⟨_, if_pos hpath, hobserve⟩
  · obtain ⟨q, hq⟩ := Path.exists_parse? hpath
    rw [answer, if_neg hpath, observe_of_parse? hq]
    by_cases hid : id ∈ c.observers.subscribers path
    · rw [if_pos hid, if_pos (PubSub.mem_subscribers.mp hid)]
      exact .inr ⟨_, rfl, rfl⟩
    · rw [if_neg hid, if_neg fun h => hid (PubSub.mem_subscribers.mpr h)]
      exact .inl ⟨rfl, rfl⟩

/-- An observer is taken off, or it is not there and nothing happens. -/
theorem unobserve_answered (id path : String) :
    (c.answer (.unobserve id path) = .ok true ∧ (unobserve id path c).result = .ok ()) ∨
      ∃ e, c.answer (.unobserve id path) = .error e ∧
        unobserve id path c = ⟨.error e, c, []⟩ := by
  rw [answer, unobserve_apply]
  by_cases hid : id ∈ c.observers.subscribers path
  · rw [if_pos hid, if_pos (PubSub.mem_subscribers.mp hid)]
    exact .inl ⟨rfl, rfl⟩
  · rw [if_neg hid, if_neg fun h => hid (PubSub.mem_subscribers.mpr h)]
    exact .inr ⟨_, rfl, rfl⟩

end Config

namespace Thread

/-! ## Refusals -/

/-- A write that is refused begins no delivery. -/
theorem write_of_refused {t : Thread} {w : Write} (h : t.config.answer (.write w) ≠ .ok true)
    (resume : Except Error Bool → List Frame) :
    t.write w resume = { t with
      stack := resume (t.config.answer (.write w))
      notes := t.notes ++ [.deed (.wrote w (t.config.answer (.write w)))] } := by
  rw [← Config.registry_answer] at h ⊢
  -- A refused write changes nothing and queues no round.
  simp only [write, Config.enact_of_answer_ne h]

/-- A request that is refused leaves but its note. -/
theorem serve_of_refused {t : Thread} (hidle : t.stack = []) {q : Request}
    (h : t.config.answer q ≠ .ok true) :
    t.serve q = { t with notes := t.notes ++ q.noted (t.config.answer q) } := by
  cases q with
  | write w => rw [serve, write_of_refused h, ← hidle, Request.noted]
  | observe id path observer =>
    obtain ⟨hok, -⟩ | ⟨e, -, hobserve⟩ := t.config.observe_answered id path observer
    · exact absurd hok h
    · rw [serve, take, hobserve]
      rfl
  | unobserve id path =>
    obtain ⟨hok, -⟩ | ⟨e, -, hunobserve⟩ := t.config.unobserve_answered id path
    · exact absurd hok h
    · rw [serve, take, hunobserve]
      rfl

end Thread

namespace Config

/-- Every request gets its answer, whatever observers come to. -/
theorem result_request (q : Request) (c : Config) : (request q c).result = c.answer q := by
  cases q with
  | write w => exact (result_enact w c).trans (c.registry_answer w)
  | observe id path observer =>
    rw [request, Act.result_bind]
    -- Whatever the answer is, the request passes it on.
    obtain ⟨hok, hobserve⟩ | ⟨e, herror, hobserve⟩ := c.observe_answered id path observer
    · rw [hok, hobserve]
      rfl
    · rw [herror, hobserve]
      rfl
  | unobserve id path =>
    rw [request, Act.result_bind]
    obtain ⟨hok, hunobserve⟩ | ⟨e, herror, hunobserve⟩ := c.unobserve_answered id path
    · rw [hok, hunobserve]
      rfl
    · rw [herror, hunobserve]
      rfl

/-- A request that is refused comes to an end at once and leaves the configuration as it is.  No
observer is called. -/
theorem request_of_refused {q : Request} {c : Config} (h : c.answer q ≠ .ok true) :
    request q c = ⟨c.answer q, c, q.noted (c.answer q)⟩ := by
  cases q with
  | write w =>
    -- The refused write is at its end before the first step.
    have hserve := Thread.serve_of_refused (t := Thread.start c) rfl h
    have hwriting : c.writing w 0 =
        ⟨c, [], Request.noted (.write w) (c.answer (.write w))⟩ := hserve
    rw [request, write_of_stack_eq_nil (n := 0) (by rw [hwriting]), hwriting, registry_answer]
  | observe id path observer =>
    obtain ⟨hok, -⟩ | ⟨e, herror, hobserve⟩ := c.observe_answered id path observer
    · exact absurd hok h
    · rw [request, Act.bind_apply, hobserve, herror]
      rfl
  | unobserve id path =>
    obtain ⟨hok, -⟩ | ⟨e, herror, hunobserve⟩ := c.unobserve_answered id path
    · exact absurd hok h
    · rw [request, Act.bind_apply, hunobserve, herror]
      rfl

end Config

namespace Thread

/-! ## What comes later -/

/-- Make steps, and then take requests, one after the other, with steps after each. -/
def run (n : Nat) (later : List (Request × Nat)) (t : Thread) : Thread :=
  later.foldl (fun t r => t.perform r.2 r.1) (step^[n] t)

/-- Requests do not depend on what was noted before. -/
theorem serve_behind (notes : List Note) (t : Thread) (q : Request) :
    (t.behind notes).serve q = (t.serve q).behind notes := by
  cases q with
  | write w => exact write_behind notes w (fun _ => []) t
  | observe id path observer => simp only [serve, take, behind, List.append_assoc]
  | unobserve id path => simp only [serve, take, behind, List.append_assoc]

/-- Nothing that comes depends on what was noted before. -/
theorem run_behind (notes : List Note) (n : Nat) (later : List (Request × Nat)) (t : Thread) :
    (t.behind notes).run n later = (t.run n later).behind notes := by
  rw [run, run, steps_behind]
  -- The induction is on the requests, from any thread that the first steps came to.
  generalize step^[n] t = u
  induction later generalizing u with
  | nil => rfl
  | cons r later ih =>
    have hperform : (u.behind notes).perform r.2 r.1 = (u.perform r.2 r.1).behind notes := by
      rw [perform, perform, serve_behind, steps_behind]
    rw [List.foldl_cons, List.foldl_cons, hperform, ih]

/-- All that comes after `u` is what comes after `t`, though more notes were made before: the
configuration, what is under way and all that is noted from then on. -/
def Echoes (more : List Note) (t u : Thread) : Prop :=
  ∀ (n : Nat) (later : List (Request × Nat)), ∃ v : Thread,
    t.run n later = v.behind t.notes ∧ u.run n later = v.behind (t.notes ++ more)

/-- A note more makes no difference to what comes later. -/
theorem echoes_notes (t : Thread) (more : List Note) :
    Echoes more t { t with notes := t.notes ++ more } := by
  intro n later
  -- Both are the same thread behind other notes.
  have ht : t = behind t.notes ⟨t.config, t.stack, []⟩ := by simp [behind]
  have hu : { t with notes := t.notes ++ more } =
      behind (t.notes ++ more) ⟨t.config, t.stack, []⟩ := by simp [behind]
  refine ⟨run n later ⟨t.config, t.stack, []⟩, ?_, ?_⟩
  · rw [← run_behind, ← ht]
  · rw [← run_behind, ← hu]

/-- How requests are answered and refused at a moment, be it in the middle of a delivery. -/
structure Refuses (t : Thread) : Prop where
  result : ∀ q, (Config.request q t.config).result = t.config.answer q
  /-- A refusal leaves the whole configuration as it is, and its note is the only one. -/
  refusal : ∀ q, t.config.answer q ≠ .ok true →
    Config.request q t.config = ⟨t.config.answer q, t.config, q.noted (t.config.answer q)⟩
  /-- What comes later comes as if nobody had asked. -/
  outside : t.stack = [] → ∀ q, t.config.answer q ≠ .ok true →
    Echoes (q.noted (t.config.answer q)) t (t.serve q)
  /-- An observer that writes goes on with the answer, as if it had got that without a write. -/
  inside : ∀ {id w next p below}, t.stack = .call id (.write w next) p :: below →
    t.config.answer (.write w) ≠ .ok true →
      Echoes [.deed (.wrote w (t.config.answer (.write w)))]
        { t with stack := .call id (next (t.config.answer (.write w))) p :: below } t.step

/-- At any moment, requests are answered exactly and refused without a trace. -/
theorem refuses (t : Thread) : t.Refuses where
  result q := Config.result_request q t.config
  refusal _ h := Config.request_of_refused h
  outside hidle q h := by
    rw [serve_of_refused hidle h]
    exact echoes_notes t _
  inside {id w next p below} hstack h := by
    -- The step of an observer that writes is that write, with the call behind it.
    have hstep : t.step = t.write w fun result => .call id (next result) p :: below := by
      simp only [step, hstack, react]
    rw [hstep, write_of_refused h]
    exact echoes_notes { t with stack := .call id (next (t.config.answer (.write w))) p :: below } _

/-- Every kind of refusal in one configuration, which stays as it is. -/
theorem refuses_each :
    ∃ t : Thread, t.Reachable ∧ t.stack = [] ∧
      (Config.request (.write (.addSource "a" 7 .nil)) t.config).result =
        .error (.duplicateResource "config source" "a") ∧
      (Config.request (.write (.removeSource "b")) t.config).result = .ok false ∧
      (Config.request (.write (.setPriority "b" 1)) t.config).result =
        .error (.unknownResource "config source" "b") ∧
      (Config.request (.write (.set "x..y" .null)) t.config).result =
        .error (.invalidPath "x..y") ∧
      (Config.request (.observe "o" "" fun _ => .finish (.ok ())) t.config).result =
        .error (.invalidPath "") ∧
      (Config.request (.observe "o" "x" fun _ => .finish (.ok ())) t.config).result =
        .error (.duplicateSubscription "o" "x") ∧
      (Config.request (.unobserve "o" "y") t.config).result =
        .error (.subscriptionNotFound "o" "y") ∧
      Echoes [.deed (.wrote (.removeSource "b") (.ok false))] t
        (t.serve (.write (.removeSource "b"))) := by
  have h₁ := (Reaches.refl : Reachable (start .empty)).perform 0
    (q := .observe "o" "x" fun _ => .finish (.ok ())) rfl trivial
  have h := h₁.perform 9 (q := .write (.addSource "a" 0 (.ofList [("x", .int 1)]))) rfl trivial
  -- All answers are read off the configuration, and none is a success.
  obtain ⟨hresult, -, houtside, -⟩ := refuses (((start .empty).perform 0
    (.observe "o" "x" fun _ => .finish (.ok ()))).perform 9
      (.write (.addSource "a" 0 (.ofList [("x", .int 1)]))))
  refine ⟨_, h, rfl, (hresult _).trans rfl, (hresult _).trans rfl, (hresult _).trans rfl,
    (hresult _).trans rfl, (hresult _).trans rfl, (hresult _).trans rfl, (hresult _).trans rfl, ?_⟩
  exact houtside rfl (.write (.removeSource "b")) nofun

end Thread
end LayeredConfig
