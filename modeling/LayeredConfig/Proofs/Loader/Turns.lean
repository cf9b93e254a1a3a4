import LayeredConfig.Loader
import LayeredConfig.Proofs.Config.Refusals
import LayeredConfig.Proofs.Config.Registration
import LayeredConfig.Proofs.Delivery.Ending
import LayeredConfig.Proofs.Source.Steady

/-!
# Adding sources one after the other

Each source has its turn.  Its priority is read in the view of that moment, then the source is
built, and then it is added unless its id is taken; the first of these that fails ends it all.  What
was added before stays, and what comes after is not even tried.  Drivers may write to the
configuration while they build a source; what the configuration gains is told for those that do not.

## Key results

- `Loader.declaredPriority_cases`: the priority of a source, exact or refused
- `Loader.turn_addSource`: what one turn comes to
- `Loader.runs_addSources`: what all the turns come to
- `Loader.Turns.gains`: what they leave of the configuration
-/

namespace LayeredConfig

/-! ## Writes to the overrides -/

/-- Whether a write leaves the sources alone. -/
def Write.OfOverrides : Write → Prop
  | .set _ _ => True
  | _ => False

/-- Writes to the overrides leave the sources as they are. -/
theorem Registry.sources_after_of_overrides {r : Registry} {ws : List Write}
    (h : ∀ w ∈ ws, w.OfOverrides) : (r.after ws).sources = r.sources := by
  induction ws generalizing r with
  | nil => rfl
  | cons w ws ih =>
    obtain ⟨hw, hws⟩ := List.forall_mem_cons.mp h
    rw [after_cons, ih hws]
    cases w with
    | set path v => rw [next_set_eq]
    | _ => exact hw.elim

namespace Loader

/-! ## Priorities -/

/-- A view ranks a source: by the integer that it holds for the id, which has to fit into 32 bits,
or by zero where it holds nothing. -/
inductive Ranks (view : Bag) (id : String) : Int32 → Prop
  | unset (h : view.get? ("config.sources." ++ id ++ ".priority") = none) : Ranks view id 0
  | set {v : Value} {i : Int64} {priority : Int32}
      (h : view.get? ("config.sources." ++ id ++ ".priority") = some v) (hi : v.int? = some i)
      (hpriority : priority.toInt = i.toInt) : Ranks view id priority

/-- A view ranks a source by what it is given, or the source is refused. -/
theorem declaredPriority_cases (view : Bag) (id : String) :
    (∃ priority, declaredPriority view id = .ok priority ∧ Ranks view id priority) ∨
      declaredPriority view id = .error (.invalidConfig id "priority") ∧
        ∀ priority, ¬ Ranks view id priority := by
  rw [declaredPriority, join_priority]
  -- Nothing there, something that is no integer, an integer of 32 bits, or a greater one.
  cases hv : view.get? ("config.sources." ++ id ++ ".priority") with
  | none => exact .inl ⟨0, rfl, .unset hv⟩
  | some v =>
    cases hi : v.int? with
    | none =>
      refine .inr ⟨by simp only [hi], ?_⟩
      rintro priority (h | ⟨h, hi', -⟩)
      · rw [hv] at h
        cases h
      · rw [hv] at h
        cases h
        rw [hi] at hi'
        cases hi'
    | some i =>
      by_cases hrange : -2147483648 ≤ i.toInt ∧ i.toInt < 2147483648
      · refine .inl ⟨.ofInt i.toInt, by simp only [hi, if_pos hrange], .set hv hi ?_⟩
        exact Int32.toInt_ofInt_of_le hrange.1 hrange.2
      · -- No number of 32 bits stands for an integer out of their range.
        refine .inr ⟨by simp only [hi, if_neg hrange], ?_⟩
        rintro priority (h | ⟨h, hi', hpriority⟩)
        · rw [hv] at h
          cases h
        · rw [hv] at h
          cases h
          obtain rfl := Option.some.inj (hi.symm.trans hi')
          have hle := priority.le_toInt
          have hlt := priority.toInt_lt
          omega

/-! ## Turns -/

/-- What becomes of a source in a configuration, once it is known whether it could be built, and
what the configuration becomes. -/
inductive Joins (c : Config) (id : String) (priority : Int32) :
    Except Error Bag → Except Error Source → Config → Prop
  | unbuilt (e : Error) : Joins c id priority (.error e) (.error e) c
  | taken {bag : Bag} (h : id ∈ c.sources.map Prod.fst) :
      Joins c id priority (.ok bag) (.error (.duplicateResource "config source" id)) c
  | added {bag : Bag} (h : id ∉ c.sources.map Prod.fst) :
      Joins c id priority (.ok bag) (.ok ⟨id, priority, bag⟩)
        (Config.write (.addSource id priority bag) c).state

/-- The turn of a source: what becomes of it, and of the factory and all that sources are built
from. -/
inductive Turn (id : String) (p : Factory Workshop Bag × Workshop) :
    Except Error Source → Factory Workshop Bag × Workshop → Prop
  | unranked (h : ∀ priority, ¬ Ranks p.2.config.merged id priority) :
      Turn id p (.error (.invalidConfig id "priority")) p
  | ranked {priority : Int32} {r : Except Error Source} {c : Config}
      (h : Ranks p.2.config.merged id priority)
      (hjoin : Joins (Factory.get id p).state.2.config id priority (Factory.get id p).result r c) :
      Turn id p r
        ((Factory.get id p).state.1, { (Factory.get id p).state.2 with config := c })

/-- Turns of sources that are all added, each with the configuration that it is added to. -/
inductive Turns : Factory Workshop Bag × Workshop → List (Config × Source) →
    Factory Workshop Bag × Workshop → Prop
  | done (p : Factory Workshop Bag × Workshop) : Turns p [] p
  | next {p p' p'' : Factory Workshop Bag × Workshop} {s : Source}
      {added : List (Config × Source)} (h : Turn s.id p (.ok s) p') (hrest : Turns p' added p'') :
      Turns p ((p.2.config, s) :: added) p''

/-- The turns of sources with the given ids: all are added, or one fails and none after it has its
turn. -/
inductive Runs (p : Factory Workshop Bag × Workshop) :
    List String → Except Error Unit → Factory Workshop Bag × Workshop → Prop
  | done {added : List (Config × Source)} {p' : Factory Workshop Bag × Workshop}
      (h : Turns p added p') : Runs p (added.map (·.2.id)) (.ok ()) p'
  | failed {added : List (Config × Source)} {id : String} {later : List String} {e : Error}
      {p' p'' : Factory Workshop Bag × Workshop} (h : Turns p added p')
      (hfailed : Turn id p' (.error e) p'') :
      Runs p (added.map (·.2.id) ++ id :: later) (.error e) p''

variable {p p' p'' : Factory Workshop Bag × Workshop} {id : String}

/-- A source that is added has an id that was free. -/
theorem Joins.of_ok {c c' : Config} {priority : Int32} {b : Except Error Bag} {s : Source}
    (h : Joins c id priority b (.ok s) c') :
    s.id = id ∧ s.id ∉ c.sources.map Prod.fst ∧ c' = (Config.write s.addition c).state := by
  cases h with
  | added hid => exact ⟨rfl, hid, rfl⟩

/-- A failure leaves the configuration as it is. -/
theorem Joins.config_of_error {c c' : Config} {priority : Int32} {b : Except Error Bag} {e : Error}
    (h : Joins c id priority b (.error e) c') : c' = c := by
  cases h <;> rfl

/-- A source that is added is the one that had its turn, and its id was free. -/
theorem Turn.of_ok {s : Source} (h : Turn id p (.ok s) p') :
    s.id = id ∧ s.id ∉ (Factory.get id p).state.2.config.sources.map Prod.fst ∧
      p'.2.config = (Config.write s.addition (Factory.get id p).state.2.config).state := by
  cases h with
  | ranked h hjoin => exact hjoin.of_ok

/-- After a failure, drivers that leave the configuration alone have left it as it was. -/
theorem Turn.config_of_error {e : Error} (h : Turn id p (.error e) p') (hp : Workshop.Steady p) :
    p'.2.config = p.2.config := by
  cases h with
  | unranked => rfl
  | ranked h hjoin => exact hjoin.config_of_error.trans (hp.get id).1

/-- The factory keeps what it kept under other ids, and nothing more. -/
theorem Turn.find?_of_ne {r : Except Error Source} (h : Turn id p r p') {i : String}
    (hne : i ≠ id) : p'.1.instances.find? i = p.1.instances.find? i := by
  cases h with
  | unranked => rfl
  | ranked h hjoin =>
    -- All that the factory keeps in addition is kept under the id of the turn.
    exact Factory.find?_get_of_ne hne

/-- What has been built is added or refused, as the configuration has it. -/
theorem joins_write (c : Config) (id : String) (priority : Int32) (bag : Bag) :
    ∃ r, Joins c id priority (.ok bag) r (Config.write (.addSource id priority bag) c).state ∧
      (Config.write (.addSource id priority bag) c).result.map (fun _ => ()) =
        r.map fun _ => () := by
  have hresult : (Config.write (.addSource id priority bag) c).result =
      c.answer (.write (.addSource id priority bag)) := Config.result_request (.write _) c
  -- An addition is refused for a taken id and for nothing else.
  by_cases hid : id ∈ c.sources.map Prod.fst
  · have hanswer : c.answer (.write (.addSource id priority bag)) =
        .error (.duplicateResource "config source" id) := if_pos hid
    -- A refusal leaves the whole configuration as it is.
    have hrefused : Config.write (.addSource id priority bag) c = _ :=
      Config.request_of_refused (q := .write _) (by rw [hanswer]; exact nofun)
    refine ⟨.error (.duplicateResource "config source" id), ?_, ?_⟩
    · rw [hrefused]
      exact .taken hid
    · rw [hresult, hanswer]
      rfl
  · have hanswer : c.answer (.write (.addSource id priority bag)) = .ok true := if_neg hid
    refine ⟨_, .added hid, ?_⟩
    rw [hresult, hanswer]
    rfl

/-- A turn in its parts: the priority, the source and the addition. -/
theorem addSource_apply (id : String) (p : Factory Workshop Bag × Workshop) :
    addSource id p = (Act.ofExcept (declaredPriority p.2.config.merged id) >>=
      fun priority => Factory.get id >>= fun bag =>
        ((Workshop.onConfig (Config.write (.addSource id priority bag))).within Prod.snd
          fun w p => (p.1, w)) >>= fun _ => pure ()) p := Act.current_bind _ p

/-- A source that has a priority and can be built is written to the configuration. -/
theorem addSource_of_built {priority : Int32} {bag : Bag}
    (hpriority : declaredPriority p.2.config.merged id = .ok priority)
    (hget : (Factory.get id p).result = .ok bag) :
    let c := (Factory.get id p).state.2.config
    (addSource id p).state = ((Factory.get id p).state.1,
        { (Factory.get id p).state.2 with
          config := (Config.write (.addSource id priority bag) c).state }) ∧
      (addSource id p).result =
        (Config.write (.addSource id priority bag) c).result.map fun _ => () := by
  rw [addSource_apply, hpriority, Act.ofExcept, pure_bind, Act.result_bind, Act.state_bind, hget]
  exact Act.bind_const _ (fun _ => ⟨rfl, rfl⟩) (Factory.get id p).state

/-- A source that has a priority and cannot be built is not written. -/
theorem addSource_of_unbuilt {priority : Int32} {e : Error}
    (hpriority : declaredPriority p.2.config.merged id = .ok priority)
    (hget : (Factory.get id p).result = .error e) :
    (addSource id p).state = (Factory.get id p).state ∧ (addSource id p).result = .error e := by
  rw [addSource_apply, hpriority, Act.ofExcept, pure_bind, Act.result_bind, Act.state_bind, hget]
  exact ⟨rfl, rfl⟩

/-- What one turn comes to. -/
theorem turn_addSource (id : String) (p : Factory Workshop Bag × Workshop) :
    ∃ r, Turn id p r (addSource id p).state ∧
      (addSource id p).result = r.map fun _ => () := by
  obtain ⟨priority, hpriority, hranks⟩ | ⟨herror, hranks⟩ :=
    declaredPriority_cases p.2.config.merged id
  -- A source that has a priority is built, and then added if that goes well.
  · cases hget : (Factory.get id p).result with
    | error e =>
      obtain ⟨hstate, hresult⟩ := addSource_of_unbuilt hpriority hget
      have hjoin : Joins (Factory.get id p).state.2.config id priority (Factory.get id p).result
          (.error e) (Factory.get id p).state.2.config := by
        rw [hget]
        exact .unbuilt e
      rw [hstate]
      exact ⟨.error e, .ranked hranks hjoin, hresult⟩
    | ok bag =>
      obtain ⟨hstate, hresult⟩ := addSource_of_built hpriority hget
      obtain ⟨r, hjoin, hwrite⟩ := joins_write (Factory.get id p).state.2.config id priority bag
      rw [← hget] at hjoin
      rw [hstate]
      exact ⟨r, .ranked hranks hjoin, hresult.trans hwrite⟩
  · -- Without a priority, nothing is even built.
    rw [addSource_apply, herror]
    exact ⟨_, .unranked hranks, rfl⟩

/-! ## All the turns -/

/-- A source that is added comes before the turns of the others. -/
theorem Runs.next {s : Source} {ids : List String} {r : Except Error Unit}
    (h : Turn s.id p (.ok s) p') (hrest : Runs p' ids r p'') : Runs p (s.id :: ids) r p'' := by
  cases hrest with
  | done hturns => exact .done (.next h hturns)
  | failed hturns hfailed => exact .failed (.next h hturns) hfailed

/-- What all the turns come to. -/
theorem runs_addSources (ids : List String) (p : Factory Workshop Bag × Workshop) :
    Runs p ids (addSources ids p).result (addSources ids p).state := by
  induction ids generalizing p with
  | nil => exact .done (.done p)
  | cons id rest ih =>
    -- The other ids have their turns only if the first source was added.
    obtain ⟨r, hturn, hresult⟩ := turn_addSource id p
    rw [addSources, Act.result_bind, Act.state_bind, hresult]
    cases r with
    | error e => exact .failed (.done p) hturn
    | ok s =>
      obtain ⟨rfl, -⟩ := hturn.of_ok
      exact Runs.next hturn (ih _)

/-- Under other ids the factory keeps after all the turns what it kept before. -/
theorem Turns.find?_of_forall_ne {added : List (Config × Source)} (h : Turns p added p')
    {i : String} (hne : ∀ a ∈ added, i ≠ a.2.id) :
    p'.1.instances.find? i = p.1.instances.find? i := by
  induction h with
  | done => rfl
  | next h _ ih =>
    obtain ⟨hfirst, hrest⟩ := List.forall_mem_cons.mp hne
    exact (ih hrest).trans (h.find?_of_ne hfirst)

/-! ## What the configuration gains -/

/-- The deliveries of sources that are added, each to the configuration beside it, come to an
end. -/
def Settled (added : List (Config × Source)) : Prop := ∀ a ∈ added, a.1.Settles a.2.addition

/-- What observers write while a source is added. -/
def asides (a : Config × Source) : List Write :=
  (Log.writes (Config.write a.2.addition a.1).notes).tail

/-- What sources that are added one after the other make of a configuration. -/
structure Gains (c : Config) (added : List (Config × Source)) (c' : Config) : Prop where
  /-- They are written in this order, each before what observers write then. -/
  registry : Settled added →
    c'.registry = c.registry.after (added.flatMap fun a => a.2.addition :: asides a)
  /-- The view is that of the registry, and nothing waits. -/
  coherent : Settled added → (Thread.start c').Coherent
  /-- They come behind those that were there, unless observers write to the sources. -/
  sources : Settled added → (∀ a ∈ added, ∀ w ∈ asides a, w.OfOverrides) →
    c'.registry.sources = c.registry.sources ++ added.map Prod.snd
  /-- Observers that only read keep no delivery going and write nothing. -/
  quiet : c.OnlyRead → Settled added ∧ ∀ a ∈ added, asides a = []

/-- A source is written before what observers write. -/
theorem write_addition {c : Config} (hc : (Thread.start c).Coherent) {s : Source}
    (hends : c.Settles s.addition) :
    (Config.write s.addition c).state.registry =
        c.registry.after (s.addition :: asides (c, s)) ∧
      (Thread.start (Config.write s.addition c).state).Coherent := by
  have htraced := Config.traced_of_settles hc hends
  -- The addition is the first write in its own log, and the asides are all others.
  have hwrites : s.addition :: asides (c, s) = Log.writes (Config.write s.addition c).notes :=
    List.cons_head?_tail htraced.first
  refine ⟨?_, htraced.view, ?_⟩
  · rw [htraced.registry, hwrites]
  · rw [Thread.start, htraced.dispatching, htraced.pending]
    exact .idle

/-- One more source comes before others. -/
theorem Gains.next {c c' : Config} (hc : (Thread.start c).Coherent) {s : Source}
    (hid : s.id ∉ c.sources.map Prod.fst) {added : List (Config × Source)}
    (hrest : (Thread.start (Config.write s.addition c).state).Coherent →
      Gains (Config.write s.addition c).state added c') : Gains c ((c, s) :: added) c' where
  registry h := by
    obtain ⟨hfirst, hothers⟩ := List.forall_mem_cons.mp h
    obtain ⟨hregistry, hcoherent⟩ := write_addition hc hfirst
    rw [(hrest hcoherent).registry hothers, hregistry, List.flatMap_cons, Registry.after_append]
  coherent h := by
    obtain ⟨hfirst, hothers⟩ := List.forall_mem_cons.mp h
    obtain ⟨-, hcoherent⟩ := write_addition hc hfirst
    exact (hrest hcoherent).coherent hothers
  sources h hwrites := by
    obtain ⟨hfirst, hothers⟩ := List.forall_mem_cons.mp h
    obtain ⟨hasides, hlater⟩ := List.forall_mem_cons.mp hwrites
    obtain ⟨hregistry, hcoherent⟩ := write_addition hc hfirst
    have hfree : c.registry.has s.id = false := by
      rw [Config.has_eq_decide]
      exact decide_eq_false hid
    -- The addition itself is all that reaches the sources.
    have hsources : (Config.write s.addition c).state.registry.sources =
        c.registry.sources ++ [s] := by
      rw [hregistry, Registry.after_cons, Registry.sources_after_of_overrides hasides,
        Registry.next_addition, hfree]
      rfl
    rw [(hrest hcoherent).sources hothers hlater, hsources]
    simp
  quiet h := by
    have hfirst : c.Undisturbed s.addition := h.undisturbed s.addition
    obtain ⟨-, hcoherent⟩ := write_addition hc hfirst.settles
    have hobservers := (Config.traced_of_settles hc hfirst.settles).observers
    -- Nothing is written but the addition, at any step of its delivery.
    have hasides : asides (c, s) = [] := by
      obtain ⟨n, hidle⟩ := hfirst.settles
      rw [asides, Config.write_of_stack_eq_nil hidle, hfirst n, List.tail_cons]
    -- The observers are the same as before.
    have hread : (Config.write s.addition c).state.OnlyRead := by
      intro path
      rw [hobservers]
      exact h path
    obtain ⟨hothers, hlater⟩ := (hrest hcoherent).quiet hread
    exact ⟨List.forall_mem_cons.mpr ⟨hfirst.settles, hothers⟩,
      List.forall_mem_cons.mpr ⟨hasides, hlater⟩⟩

/-- Nobody's turn touches the drivers. -/
theorem Turn.steady {r : Except Error Source} (h : Turn id p r p') (hp : Workshop.Steady p) :
    Workshop.Steady p' := by
  cases h with
  | unranked => exact hp
  | ranked => exact (hp.get id).2.reconfigured _

/-- Nor do all the turns. -/
theorem Turns.steady {added : List (Config × Source)} (h : Turns p added p')
    (hp : Workshop.Steady p) : Workshop.Steady p' := by
  induction h with
  | done => exact hp
  | next h _ ih => exact ih (h.steady hp)

/-- What the turns of sources leave of the configuration, if the drivers do not touch it. -/
theorem Turns.gains {added : List (Config × Source)} (h : Turns p added p')
    (hp : Workshop.Steady p) (hc : (Thread.start p.2.config).Coherent) :
    Gains p.2.config added p'.2.config := by
  -- From the first turn to the last: each starts coherent, since the one before it was settled.
  induction h with
  | done p =>
    refine ⟨fun _ => rfl, fun _ => hc, fun _ _ => by simp, fun _ => ?_⟩
    exact ⟨List.forall_mem_nil _, List.forall_mem_nil _⟩
  | next h _ ih =>
    obtain ⟨-, hid, hconfig⟩ := h.of_ok
    -- The source was built in between, which left the configuration as it was before the turn.
    rw [(hp.get _).1] at hid hconfig
    refine .next hc hid fun hcoherent => ?_
    rw [← hconfig] at hcoherent ⊢
    exact ih (h.steady hp) hcoherent

end Loader
end LayeredConfig
