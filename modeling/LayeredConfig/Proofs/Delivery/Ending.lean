import LayeredConfig.Proofs.Delivery.Trace

/-!
# Deliveries come to an end

Only a write can keep a delivery going: every call of an observer is finite, every publication has
finitely many calls, and a round is queued by nothing but a write.  So a delivery comes to an end
unless observers write, and those that only read never do.

## Key results

- `Thread.arrives_call`, `Thread.arrives_publish`, `Thread.arrives_notify`, `Thread.arrives_drain`:
  every frame is done with, or an observer writes
- `Config.Undisturbed.settles`: a delivery in which nobody writes comes to an end
- `Config.OnlyRead.undisturbed`: observers that only read write nothing
-/

namespace LayeredConfig

namespace Thread

/-! ## What steps lead to -/

/-- Whether the next step is the write of an observer. -/
def Writing (t : Thread) : Prop :=
  ∃ id w next p below, t.stack = .call id (.write w next) p :: below

/-- Steps lead to a thread of which `P` holds, unless an observer writes on the way. -/
inductive Arrives (P : Thread → Prop) : Thread → Prop
  | now {t : Thread} : P t → Arrives P t
  | writing {t : Thread} : t.Writing → Arrives P t
  | later {t : Thread} : Arrives P t.step → Arrives P t

/-- Steps that lead somewhere, and from there elsewhere. -/
theorem Arrives.bind {P Q : Thread → Prop} {t : Thread} (h : Arrives P t)
    (hP : ∀ u, P u → Arrives Q u) : Arrives Q t := by
  induction h with
  | now ht => exact hP _ ht
  | writing ht => exact .writing ht
  | later _ ih => exact .later ih

/-- After some number of steps it is there, or an observer is about to write. -/
theorem Arrives.exists_iterate {P : Thread → Prop} {t : Thread} (h : Arrives P t) :
    ∃ n, P (step^[n] t) ∨ (step^[n] t).Writing := by
  induction h with
  | now ht => exact ⟨0, .inl ht⟩
  | writing ht => exact ⟨0, .inr ht⟩
  | later _ ih =>
    obtain ⟨n, hn⟩ := ih
    exact ⟨n + 1, hn⟩

/-! ## Frames are done with -/

/-- The stack and the queue of a thread. -/
def At (queue : List Round) (stack : List Frame) (t : Thread) : Prop :=
  t.stack = stack ∧ t.config.pending = queue

variable {t : Thread} {queue : List Round} {below : List Frame}

/-- Reactions are finite, so a call goes back to its publication. -/
theorem arrives_call {id : String} {r : Reaction} {p : Publication}
    (h : t.At queue (.call id r p :: below)) :
    Arrives (fun u => ∃ failure, u.At queue (.publish { p with failure } :: below)) t := by
  -- A reaction is a finite tree, and each step descends one branch of it.
  induction r generalizing t with
  | finish outcome =>
    obtain ⟨hstack, hqueue⟩ := h
    have hstep : t.step.At queue
        (.publish { p with failure := PubSub.firstFailure p.failure outcome } :: below) := by
      simp [At, step, hstack, react, hqueue]
    exact .later (.now ⟨_, hstep⟩)
  | look next ih =>
    obtain ⟨hstack, hqueue⟩ := h
    exact .later (ih t.config.merged (by simp [At, step, hstack, react, hqueue]))
  | survey next ih =>
    obtain ⟨hstack, hqueue⟩ := h
    exact .later (ih t.config.registry (by simp [At, step, hstack, react, hqueue]))
  | remember next ih =>
    obtain ⟨hstack, hqueue⟩ := h
    exact .later (ih t.config.served (by simp [At, step, hstack, react, hqueue]))
  | write w next ih => exact .writing ⟨id, w, next, p, below, h.1⟩

/-- A publication calls one observer after the other. -/
theorem arrives_publish {path : String} {change : Change} {rest : List (String × Observer)}
    {failure : Option Error} (h : t.At queue (.publish ⟨path, change, rest, failure⟩ :: below)) :
    Arrives (At queue below) t := by
  -- The calls that are left to be made are the measure.
  induction rest generalizing t failure with
  | nil =>
    obtain ⟨hstack, hqueue⟩ := h
    exact .later (.now (by simp [At, step, hstack, hqueue]))
  | cons o rest ih =>
    obtain ⟨hstack, hqueue⟩ := h
    have hcall : t.step.At queue
        (.call o.1 (o.2 change) ⟨path, change, rest, failure⟩ :: below) := by
      simp [At, step, hstack, hqueue]
    refine .later ((arrives_call hcall).bind fun u hu => ?_)
    obtain ⟨_, hu⟩ := hu
    exact ih hu

/-- A round goes from path to path. -/
theorem arrives_notify {round : Round} {paths : List String}
    (h : t.At queue (.notify round paths :: below)) : Arrives (At queue below) t := by
  -- The paths that are left to be told about are the measure.
  induction paths generalizing t with
  | nil =>
    obtain ⟨hstack, hqueue⟩ := h
    exact .later (.now (by simp [At, step, hstack, hqueue]))
  | cons path paths ih =>
    obtain ⟨hstack, hqueue⟩ := h
    by_cases hsame : (round.before.get? path == round.after.get? path) = true
    · exact .later (ih (by simp [At, step, hstack, hqueue, hsame]))
    · have hpublish : t.step.At queue (.publish ⟨path, ⟨path, round.before.get? path,
          round.after.get? path⟩, (t.config.observers.handlers path).toList, none⟩ ::
            .notify round paths :: below) := by
        simp [At, step, hstack, hqueue, hsame]
      exact .later ((arrives_publish hpublish).bind fun u hu => ih hu)

/-- Rounds are delivered until none waits, and none comes. -/
theorem arrives_drain (h : t.At queue (.drain :: below)) : Arrives (At [] below) t := by
  -- Nobody writes, so the queue only gets shorter.
  induction queue generalizing t with
  | nil =>
    obtain ⟨hstack, hqueue⟩ := h
    have hleave : t.step.At [] (.leave :: below) := by simp [At, step, hstack, hqueue]
    refine .later (.later (.now ?_))
    simp [At, step.eq_def t.step, hleave.1, hleave.2]
  | cons round later ih =>
    obtain ⟨hstack, hqueue⟩ := h
    have hnotify : t.step.At later
        (.notify round t.config.observers.channels :: .drain :: below) := by
      simp [At, step, hstack, hqueue]
    exact .later ((arrives_notify hnotify).bind fun u hu => ih hu)

/-- A delivery begins, unless another goes on. -/
theorem arrives_dispatch (h : t.At queue [.dispatch]) : Arrives (fun u => u.stack = []) t := by
  obtain ⟨hstack, hqueue⟩ := h
  cases hlock : t.config.dispatching with
  | true => exact .later (.now (by simp [step, hstack, hlock]))
  | false =>
    have hdrain : t.step.At queue [.drain] := by simp [At, step, hstack, hqueue, hlock]
    exact .later ((arrives_drain hdrain).bind fun u hu => .now hu.1)

/-- The write of an observer is noted. -/
theorem Writing.writes_step (h : t.Writing) :
    ∃ w, Log.writes t.step.notes = Log.writes t.notes ++ [w] := by
  obtain ⟨id, w, next, p, below, hstack⟩ := h
  have hstep : t.step = t.write w fun result => .call id (next result) p :: below := by
    simp only [step, hstack, react]
  refine ⟨w, ?_⟩
  rw [hstep, write, Log.writes_append, Config.writes_notes_enact]

end Thread

namespace Config

/-! ## Deliveries without writes -/

/-- While the delivery of a write goes on, nobody else writes. -/
def Undisturbed (c : Config) (w : Write) : Prop := ∀ n, Log.writes (c.writing w n).notes = [w]

variable {c : Config} {w : Write}

/-- A write begins with its delivery, if there is one. -/
theorem stack_writing (c : Config) (w : Write) :
    (c.writing w 0).stack = [.dispatch] ∨ (c.writing w 0).stack = [] := by
  have hstack : (c.writing w 0).stack = Thread.onset (c.registry.answer w) ++ [] :=
    Thread.stack_write w (fun _ => []) (Thread.start c)
  rw [hstack, List.append_nil]
  unfold Thread.onset
  split
  · exact .inl rfl
  · exact .inr rfl

/-- From its first moment on, a write leads to its end or to the write of an observer. -/
theorem arrives_writing (c : Config) (w : Write) :
    Thread.Arrives (fun u => u.stack = []) (c.writing w 0) := by
  obtain hstack | hstack := stack_writing c w
  · exact Thread.arrives_dispatch ⟨hstack, rfl⟩
  · exact .now hstack

/-- A delivery in which nobody writes comes to an end. -/
theorem Undisturbed.settles (h : c.Undisturbed w) : c.Settles w := by
  obtain ⟨n, hidle | hwriting⟩ := (arrives_writing c w).exists_iterate
  · exact ⟨n, hidle⟩
  · -- One step later another write would have been noted.
    obtain ⟨w', hwrites⟩ := Thread.Writing.writes_step (t := c.writing w n) hwriting
    have hstep : (c.writing w n).step = c.writing w (n + 1) :=
      (Function.iterate_succ_apply' Thread.step n _).symm
    rw [hstep, h n, h (n + 1)] at hwrites
    exact nomatch hwrites

end Config

/-! ## Observers that only read -/

/-- Whether a reaction never writes, whatever it finds. -/
def Reaction.Reads : Reaction → Prop
  | .finish _ => True
  | .look next => ∀ view, (next view).Reads
  | .survey next => ∀ registry, (next registry).Reads
  | .remember next => ∀ served, (next served).Reads
  | .write _ _ => False

/-- Whether the observers among these never write. -/
def Observer.OnlyRead (observers : List (String × Observer)) : Prop :=
  ∀ o ∈ observers, ∀ change, (o.2 change).Reads

/-- Whether no observer of a configuration ever writes. -/
def Config.OnlyRead (c : Config) : Prop :=
  ∀ path, Observer.OnlyRead (c.observers.handlers path).toList

/-- Whether what is under way in a frame never writes. -/
def Frame.Reads : Frame → Prop
  | .publish p => Observer.OnlyRead p.rest
  | .call _ reaction p => reaction.Reads ∧ Observer.OnlyRead p.rest
  | _ => True

namespace Thread

/-- Neither what is under way nor any observer ever writes. -/
structure OnlyReads (t : Thread) : Prop where
  observers : t.config.OnlyRead
  stack : ∀ frame ∈ t.stack, frame.Reads

/-- A step of such a thread writes nothing, and what comes next does not either. -/
theorem onlyReads_step {t : Thread} (h : t.OnlyReads) :
    t.step.OnlyReads ∧ Log.writes t.step.notes = Log.writes t.notes := by
  obtain ⟨c, stack, notes⟩ := t
  obtain ⟨hobservers, hstack⟩ := h
  rcases stack with _ | ⟨frame, below⟩
  · exact ⟨⟨hobservers, hstack⟩, rfl⟩
  obtain ⟨hframe, hbelow⟩ := List.forall_mem_cons.mp hstack
  -- Frame by frame: whatever comes on top of the stack only reads, and no write is noted.
  cases frame with
  | dispatch =>
    cases hlock : c.dispatching with
    | true =>
      simp only [step, hlock]
      exact ⟨⟨hobservers, hbelow⟩, rfl⟩
    | false =>
      simp only [step, hlock]
      exact ⟨⟨hobservers, List.forall_mem_cons.mpr ⟨trivial, hbelow⟩⟩, rfl⟩
  | drain =>
    cases hqueue : c.pending with
    | nil =>
      simp only [step, hqueue]
      exact ⟨⟨hobservers, List.forall_mem_cons.mpr ⟨trivial, hbelow⟩⟩, trivial⟩
    | cons round later =>
      simp only [step, hqueue]
      exact ⟨⟨hobservers, List.forall_mem_cons.mpr ⟨trivial, hstack⟩⟩, trivial⟩
  | leave =>
    refine ⟨⟨hobservers, ?_⟩, rfl⟩
    simp only [step]
    split
    · exact hbelow
    · exact List.forall_mem_cons.mpr ⟨trivial, hbelow⟩
  | notify round paths =>
    cases paths with
    | nil => exact ⟨⟨hobservers, hbelow⟩, rfl⟩
    | cons path paths =>
      have hrest : ∀ frame ∈ Frame.notify round paths :: below, frame.Reads :=
        List.forall_mem_cons.mpr ⟨trivial, hbelow⟩
      simp only [step]
      split
      · exact ⟨⟨hobservers, hrest⟩, rfl⟩
      · exact ⟨⟨hobservers, List.forall_mem_cons.mpr ⟨hobservers path, hrest⟩⟩, rfl⟩
  | publish p =>
    obtain ⟨path, change, rest, failure⟩ := p
    cases rest with
    | nil =>
      refine ⟨⟨hobservers, hbelow⟩, ?_⟩
      simp [step]
    | cons o rest =>
      obtain ⟨hfirst, hrest⟩ := List.forall_mem_cons.mp hframe
      refine ⟨⟨hobservers, List.forall_mem_cons.mpr ⟨⟨hfirst change, hrest⟩, hbelow⟩⟩, ?_⟩
      simp [step, Log.writes, Log.write?]
  | call id reaction p =>
    obtain ⟨hreaction, hrest⟩ := hframe
    cases reaction with
    | finish outcome =>
      refine ⟨⟨hobservers, List.forall_mem_cons.mpr ⟨hrest, hbelow⟩⟩, ?_⟩
      simp [step, react, Log.writes, Log.write?]
    | look next =>
      refine ⟨⟨hobservers, List.forall_mem_cons.mpr ⟨⟨hreaction c.merged, hrest⟩, hbelow⟩⟩, ?_⟩
      simp [step, react, Log.writes, Log.write?]
    | survey next =>
      refine ⟨⟨hobservers, List.forall_mem_cons.mpr ⟨⟨hreaction c.registry, hrest⟩, hbelow⟩⟩, ?_⟩
      simp [step, react, Log.writes, Log.write?]
    | remember next =>
      exact ⟨⟨hobservers, List.forall_mem_cons.mpr ⟨⟨hreaction c.served, hrest⟩, hbelow⟩⟩, rfl⟩
    | write w next => exact hreaction.elim

/-- Neither do any number of steps. -/
theorem onlyReads_steps {t : Thread} (h : t.OnlyReads) (n : Nat) :
    (step^[n] t).OnlyReads ∧ Log.writes (step^[n] t).notes = Log.writes t.notes := by
  induction n with
  | zero => exact ⟨h, rfl⟩
  | succ n ih =>
    obtain ⟨hreads, hwrites⟩ := onlyReads_step ih.1
    rw [Function.iterate_succ_apply']
    exact ⟨hreads, hwrites.trans ih.2⟩

end Thread

namespace Config

/-- To enact a write calls no observer and takes none off. -/
theorem observers_enact (w : Write) (c : Config) : (enact w c).state.observers = c.observers := by
  by_cases h : c.registry.answer w = .ok true
  · rw [enact_of_answer h]
    rfl
  · rw [enact_of_answer_ne h]

/-- Observers that only read disturb no write. -/
theorem OnlyRead.undisturbed {c : Config} (h : c.OnlyRead) (w : Write) : c.Undisturbed w := by
  intro n
  -- The delivery itself writes nothing when it begins.
  have hstart : (c.writing w 0).OnlyReads := by
    have hobservers : (c.writing w 0).config.observers = c.observers := observers_enact w c
    refine ⟨fun path => hobservers ▸ h path, ?_⟩
    obtain hstack | hstack := stack_writing c w
    · rw [hstack]
      exact List.forall_mem_singleton.mpr trivial
    · rw [hstack]
      exact List.forall_mem_nil _
  obtain ⟨-, hwrites⟩ := Thread.onlyReads_steps hstart n
  exact hwrites.trans (writes_notes_enact w c)

end Config
end LayeredConfig
