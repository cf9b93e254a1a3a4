import LayeredConfig.Proofs.Config.Rounds
import LayeredConfig.Proofs.Delivery.Reach

/-!
# What an observer hears

From its registration on, an observer hears each change at its path and nothing else.  The changes
lead from the value at the registration to the value at any later moment when nothing is under way.

## Key results

- `Config.heard_callsOf`: what a round tells an observer
- `Thread.Reaches.hears`: what an observer hears on the way
- `Thread.leads_of_observe`: the changes form a chain
-/

namespace LayeredConfig

/-- An observer that wants a value to stand at a path, and writes it there until it does. -/
def Observer.insist (path : String) (value : Value) : Observer := fun change =>
  if change.new == some value then .finish (.ok ())
  else .write (.set path value) fun _ => .finish (.ok ())

/-! ## Calls of one observer -/

/-- The changes in the calls of one observer at one path. -/
def heard (id path : String) (calls : List (String × String × Change)) : List Change :=
  calls.filterMap fun (id', path', change) =>
    if id' = id ∧ path' = path then some change else none

section Heard

variable {id path : String}

@[simp] theorem heard_nil : heard id path [] = [] := rfl

/-- What is heard of some calls and then of others, one after the other. -/
@[simp] theorem heard_append (a b : List (String × String × Change)) :
    heard id path (a ++ b) = heard id path a ++ heard id path b :=
  List.filterMap_append

/-- So it is with calls that are made round after round. -/
theorem heard_flatMap {α : Type} (l : List α) (f : α → List (String × String × Change)) :
    heard id path (l.flatMap f) = l.flatMap fun a => heard id path (f a) :=
  List.filterMap_flatMap

/-- Only one of several distinct elements contributes. -/
private theorem flatMap_of_mem_of_nodup {α β : Type} {l : List α} {f : α → List β} {a : α}
    (hnodup : l.Nodup) (ha : a ∈ l) (hf : ∀ b ∈ l, b ≠ a → f b = []) : l.flatMap f = f a := by
  -- Whatever stands before the element or behind it is another one.
  obtain ⟨s, t, rfl⟩ := List.append_of_mem ha
  obtain ⟨-, hcons, hdisjoint⟩ := List.nodup_append.mp hnodup
  have hs : s.flatMap f = [] := by
    refine List.flatMap_eq_nil_iff.mpr fun b hb => hf b (List.mem_append_left _ hb) ?_
    exact hdisjoint b hb a List.mem_cons_self
  have ht : t.flatMap f = [] := by
    refine List.flatMap_eq_nil_iff.mpr fun b hb => ?_
    refine hf b (List.mem_append_right _ (List.mem_cons_of_mem _ hb)) ?_
    rintro rfl
    exact (List.nodup_cons.mp hcons).1 hb
  rw [List.flatMap_append, List.flatMap_cons, hs, ht, List.append_nil, List.nil_append]

end Heard

namespace Config

variable {observers : PubSub String String Observer} {id path : String}

/-- A round tells an observer of a path the change there, if there is one. -/
theorem heard_callsAt (h : observers.isSubscribed id path = true) (round : Round) :
    heard id path (callsAt observers round path) = (round.changeAt? path).toList := by
  unfold callsAt Round.changeAt?
  simp only
  split
  · rfl
  · -- An observer stands once among those of the path.
    have hnodup : (observers.subscribers path).Nodup := Entries.nodup_keys _
    have hmem : id ∈ observers.subscribers path := PubSub.mem_subscribers.mpr h
    rw [List.map_eq_flatMap, heard_flatMap, flatMap_of_mem_of_nodup hnodup hmem]
    · simp [heard]
    · intro id' _ hne
      simp [heard, hne]

/-- A round tells nothing about other paths. -/
theorem heard_callsAt_of_ne {other : String} (hne : other ≠ path) (round : Round) :
    heard id path (callsAt observers round other) = [] := by
  unfold callsAt
  simp only
  split
  · rfl
  · simp [heard, hne]

/-- A round tells an observer the change at its path and nothing else. -/
theorem heard_callsOf (h : observers.isSubscribed id path = true) (round : Round) :
    heard id path (callsOf observers round) = (round.changeAt? path).toList := by
  -- A path is taken once in each round.
  have hnodup : observers.channels.Nodup := Entries.nodup_keys _
  rw [callsOf, heard_flatMap, flatMap_of_mem_of_nodup hnodup (PubSub.mem_channels h)]
  · exact heard_callsAt h round
  · intro other _ hne
    exact heard_callsAt_of_ne hne round

/-- An observer that was registered is. -/
theorem isSubscribed_of_observe {c : Config} {observer : Observer}
    (h : (observe id path observer c).result = .ok ()) :
    (observe id path observer c).state.observers.isSubscribed id path = true := by
  cases hpath : Path.parse? path with
  | none =>
    rw [observe_of_parse?_eq_none hpath] at h
    simp at h
  | some q =>
    -- A path that is one: it is refused only if it stands there already, which would be a failure.
    rw [observe_of_parse? hpath] at h ⊢
    split at h
    · simp at h
    · rename_i hnew
      rw [if_neg hnew]
      simp [PubSub.isSubscribed_subscribed]

/-- An observer stays when another comes. -/
theorem isSubscribed_observe {c : Config} (h : c.observers.isSubscribed id path = true)
    (id' path' : String) (observer : Observer) :
    (observe id' path' observer c).state.observers.isSubscribed id path = true := by
  cases hpath : Path.parse? path' with
  | none => rw [observe_of_parse?_eq_none hpath]; exact h
  | some q =>
    rw [observe_of_parse? hpath]
    split
    · exact h
    · simp [PubSub.isSubscribed_subscribed, h]

/-- An observer stays when another goes. -/
theorem isSubscribed_unobserve {c : Config} (h : c.observers.isSubscribed id path = true)
    {id' path' : String} (hne : ¬(id = id' ∧ path = path')) :
    (unobserve id' path' c).state.observers.isSubscribed id path = true := by
  rw [unobserve_apply]
  split
  · rw [PubSub.isSubscribed_unsubscribed, decide_eq_false hne, h]
    rfl
  · exact h

end Config

namespace Thread

/-! ## What is heard on the way -/

/-- What happens on the way from one thread to another as far as it concerns an observer that is
registered throughout. -/
structure Hears (id path : String) (t u : Thread) (log : List Note) : Prop
    extends Replays t u log where
  subscribed : u.config.observers.isSubscribed id path = true
  /-- The changes that were due are heard or still due, and those of new rounds come behind. -/
  heard : heard id path (Log.begun log) ++ heard id path u.owed =
    heard id path t.owed ++
      (t.config.registry.rounds (Log.writes log)).filterMap (·.changeAt? path)

variable {id path : String}

/-- What is heard on the way and then on the rest of the way. -/
theorem Hears.trans {t u v : Thread} {a b : List Note} (h : Hears id path t u a)
    (h' : Hears id path u v b) : Hears id path t v (a ++ b) where
  toReplays := h.toReplays.trans h'.toReplays
  subscribed := h'.subscribed
  heard := by
    have hb := h'.heard
    -- The rounds of the second part begin at the registry that the first one left.
    rw [h.registry] at hb
    rw [Log.begun_append, heard_append, List.append_assoc, hb, ← List.append_assoc, h.heard,
      Log.writes_append, Registry.rounds_append, List.filterMap_append, List.append_assoc]

/-- What a move makes due for everybody, it makes due for the one observer. -/
theorem Moves.hears {t u : Thread} {log : List Note} (h : Moves t u log)
    (hsub : t.config.observers.isSubscribed id path = true) : Hears id path t u log where
  toReplays := h.toReplays
  subscribed := by rw [h.observers]; exact hsub
  heard := by
    rw [← heard_append, h.calls, heard_append, heard_flatMap,
      List.filterMap_eq_flatMap_toList]
    -- Round by round, of all calls those of this observer at this path are its changes there.
    congr 2
    funext round
    exact Config.heard_callsOf hsub round

/-- Nothing is heard while observers are registered or go. -/
theorem hears_take {t : Thread} (h : t.Coherent) (hidle : t.stack = []) {o : Outcome Config Unit}
    (ho : Config.Regards t.config o) (hsub : o.state.observers.isSubscribed id path = true) :
    Hears id path t (t.take o) o.notes where
  toReplays := replays_take ho
  subscribed := hsub
  heard := by
    have howed : (t.take o).owed = [] := (h.take ho).owed_eq_nil hidle
    rw [howed, h.owed_eq_nil hidle, ho.notes, Log.begun_events, Log.writes_events]
    rfl

/-- What an observer hears on the way, if it is not taken off. -/
theorem Reaches.hears {t u : Thread} (h : Reaches (· ≠ .unobserve id path) t u) (ht : t.Coherent)
    (hsub : t.config.observers.isSubscribed id path = true) :
    ∃ log, Hears id path t u log := by
  -- The observer stays registered throughout, which is what the next part of the way needs.
  induction h with
  | refl => exact ⟨[], ⟨(List.append_nil _).symm, rfl, trivial⟩, hsub, (List.append_nil _).symm⟩
  | request q hreach hidle hq ih =>
    obtain ⟨a, ha⟩ := ih
    have hu := hreach.coherent ht
    cases q with
    | write w => exact ⟨_, ha.trans ((moves_serve_write hu hidle w).hears ha.subscribed)⟩
    | observe id' path' observer =>
      refine ⟨_, ha.trans (hears_take hu hidle (Config.regards_observe id' path' observer _) ?_)⟩
      exact Config.isSubscribed_observe ha.subscribed id' path' observer
    | unobserve id' path' =>
      refine ⟨_, ha.trans (hears_take hu hidle (Config.regards_unobserve id' path' _) ?_)⟩
      refine Config.isSubscribed_unobserve ha.subscribed ?_
      -- Taking this very observer off is what the way excludes.
      rintro ⟨rfl, rfl⟩
      exact hq rfl
  | step hreach ih =>
    obtain ⟨a, ha⟩ := ih
    obtain ⟨b, hb, -⟩ := moves_step (hreach.coherent ht)
    exact ⟨a ++ b, ha.trans (hb.hears ha.subscribed)⟩

/-- Writes without NaN bring none into a fresh configuration. -/
theorem Reaches.orderly {allowed : Request → Prop} {t : Thread}
    (h : Reaches allowed (start .empty) t) (hnan : ∀ w ∈ Log.writes t.notes, w.hasNaN = false) :
    t.config.registry.Orderly := by
  obtain ⟨log, hlog⟩ := h.replayed .start_empty
  have hnotes : t.notes = log := hlog.notes
  rw [hlog.registry, ← hnotes]
  exact Registry.orderly_empty.after hnan

/-- An observer that is registered while nothing is under way, and not taken off since, has heard at
any later moment when nothing is under way a chain of changes, which leads from the value at its
registration to the value of that moment. -/
theorem leads_of_observe {t u : Thread} {observer : Observer} (ht : t.Reachable)
    (hidle : t.stack = []) (hobserve : (Config.observe id path observer t.config).result = .ok ())
    (h : Reaches (· ≠ .unobserve id path) (t.serve (.observe id path observer)) u)
    (hidle' : u.stack = []) (hnan : ∀ w ∈ Log.writes u.notes, w.hasNaN = false) :
    t.notes <+: u.notes ∧
      Change.Leads path (t.config.merged.get? path)
        (heard id path (Log.begun (u.notes.drop t.notes.length)))
        (u.config.merged.get? path) := by
  -- The registration is the first part of the way, and all that came since is the second.
  have hcoherent := ht.coherent .start_empty
  have hcoherent' := h.coherent (hcoherent.serve hidle (.observe id path observer))
  have htaken := hears_take hcoherent hidle (Config.regards_observe id path observer t.config)
    (Config.isSubscribed_of_observe hobserve)
  obtain ⟨log, hlog⟩ :=
    h.hears (hcoherent.serve hidle (.observe id path observer)) htaken.subscribed
  have hears := htaken.trans hlog
  rw [hears.notes, Log.writes_append] at hnan
  refine ⟨⟨_, hears.notes.symm⟩, ?_⟩
  rw [hears.notes, List.drop_left]
  -- Nothing was due at the registration, and nothing is due now.
  have hheard := hears.heard
  rw [hcoherent.owed_eq_nil hidle, hcoherent'.owed_eq_nil hidle', heard_nil, List.append_nil,
    List.nil_append] at hheard
  rw [hheard, hcoherent.view, hcoherent'.view, hears.registry]
  exact Registry.rounds_lead
    (ht.orderly fun w hw => hnan w (List.mem_append_left _ hw))
    (fun w hw => hnan w (List.mem_append_right _ hw)) path

/-- An observer that answers a change with a write of its own hears of both. -/
theorem leads_of_observe_insist :
    ∃ t u : Thread, t.Reachable ∧ t.stack = [] ∧ u.stack = [] ∧
      heard "o" "x" (Log.begun (u.notes.drop t.notes.length)) =
        [⟨"x", none, some (.int 1)⟩, ⟨"x", some (.int 1), some (.int 2)⟩] ∧
      Change.Leads "x" none (heard "o" "x" (Log.begun (u.notes.drop t.notes.length)))
        (some (.int 2)) := by
  have h := (Reaches.refl : Reaches (· ≠ Request.unobserve "o" "x") _
    ((start .empty).serve (.observe "o" "x" (.insist "x" (.int 2))))).perform 20
    (q := .write (.set "x" (.int 1))) rfl nofun
  obtain ⟨-, hleads⟩ := leads_of_observe .refl rfl rfl h rfl (by decide)
  exact ⟨_, _, .refl, rfl, rfl, rfl, hleads⟩

end Thread
end LayeredConfig
