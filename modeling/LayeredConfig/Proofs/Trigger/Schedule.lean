import LayeredConfig.Proofs.Trigger.Tracks

/-!
# The schedule of a trigger

A trigger is armed when the clock starts.  Whatever else is done on the clock, its runs start when
its plan says so, until it is closed.

## Key results

- `Plan.Stands.closedBy`, `Plan.Stands.armed`: what holders do, while the trigger keeps to its plan
- `Plan.on_schedule`: the starts of all runs, and until when the trigger is running
-/

namespace LayeredConfig

open Act (Ensures ensures_pure)
open Timeline

namespace Plan

variable {p : Plan} {closed : Option Nat} {t : Timeline} {place : Nat}

/-! ## Holders -/

/-- The holder closes the trigger, or some other one. -/
theorem Stands.closedBy (h : p.Stands closed t) (id : String) :
    p.Stands (if id = p.id then closed.or (some t.now) else closed) (t.closedBy (some id)) := by
  have hbeside : ∀ place, Beside place t (t.closedBy (some id)) := fun _ => beside_closedBy ..
  have hheld : (t.closedBy (some id)).held = t.held := (hbeside 0).held
  have hhosts := h.toHosts.of_alike (hbeside 0).makes fun hplace => hheld ▸ hplace
  refine ⟨⟨hhosts, fun hclosed => ?_, ?_⟩, calmAt_or_mem_ready_closedBy _ h.ready,
    fun r => (h.ahead r).beside (hbeside (r + 1)) (Nat.succ_ne_self r).symm⟩
  · rw [hheld]
    split at hclosed
    · cases closed <;> exact nomatch hclosed
    · exact h.kept hclosed
  · obtain ⟨τ, hτ, hstage, hstarts⟩ := h.stage
    refine ⟨if (some id).bind (t.held.find? ·) = some 0 then τ.closed else τ, ?_, ?_, ?_⟩
    -- The timer at the first place is closed if the id leads there.
    · rw [getElem?_closedBy, hτ, Option.map_some]
    · rw [now_closedBy]
      by_cases hplace : t.held.find? id = some 0
      · rw [Option.bind_some, if_pos hplace, if_pos ((h.place_iff hplace).mp rfl)]
        exact hstage.close (h.ahead 0 τ hτ)
      · rw [Option.bind_some, if_neg hplace]
        split
        · -- Who gave up the id closed the trigger before.
          rename_i hid
          have hsome : closed ≠ none := fun hclosed => hplace (hid ▸ h.kept hclosed)
          obtain ⟨c, rfl⟩ := Option.ne_none_iff_exists'.mp hsome
          exact hstage
        · exact hstage
    · rw [starts_closedBy, hstarts]
      split <;> rfl

/-- To give up an id leaves the trigger alone where it was closed or has another id. -/
theorem Stands.erase (h : p.Stands closed t) (id : String) (hid : id = p.id → closed ≠ none) :
    p.Stands closed { t with held := t.held.erase id } := by
  have hheld {other : String} {place : Nat} (hplace : (t.held.erase id).find? other = some place) :
      t.held.find? other = some place := by
    rw [Entries.find?_erase] at hplace
    exact (Option.ite_none_left_eq_some.mp hplace).2
  refine ⟨⟨h.toHosts.of_alike (fun _ => rfl) hheld, fun hclosed => ?_, h.stage⟩, h.ready, h.ahead⟩
  rw [Entries.find?_erase, if_neg fun heq => hid heq.symm hclosed]
  exact h.kept hclosed

/-- The holder drops the trigger, or some other one. -/
theorem Stands.drop (h : p.Stands closed t) (id : String) :
    p.Stands (if id = p.id then closed.or (some t.now) else closed)
      { t.closedBy (some id) with held := t.held.erase id } := by
  have herased := (h.closedBy id).erase id fun hid => by
    rw [if_pos hid]
    cases closed <;> exact nofun
  rwa [(beside_closedBy 0 t (some id)).held] at herased

/-- Another id for the place of another trigger. -/
theorem Stands.insert {id : String} (h : p.Stands closed t) (hτ : t.timers[place]? = some τ)
    (hτid : τ.id = id) (hid : id ≠ p.id) :
    p.Stands closed { t with held := t.held.insert id place } := by
  refine ⟨⟨⟨h.own, fun {other r} hplace => ?_, h.delays, h.others⟩, fun hclosed => ?_, h.stage⟩,
    h.ready, h.ahead⟩
  · rw [Entries.find?_insert] at hplace
    split at hplace
    · rename_i hother
      obtain rfl := Option.some.inj hplace
      exact ⟨τ, hτ, hτid.trans hother.symm⟩
    · exact h.held hplace
  · rw [Entries.find?_insert, if_neg (Ne.symm hid)]
    exact h.kept hclosed

/-- Another trigger that leaves the trigger alone. -/
theorem Stands.armed (h : p.Stands closed t) (τ : Timer) (hid : τ.id ≠ p.id)
    (hdelay : 1 ≤ τ.delay) (hcloses : ∀ n, (τ.handler n).closes ≠ some p.id)
    (hnew : τ.deadline = none) : p.Stands closed (t.armed τ) := by
  have hold {place : Nat} {σ : Timer} (hσ : t.timers[place]? = some σ) :
      (t.armed τ).timers[place]? = some σ := by
    have hlt := (List.getElem?_eq_some_iff.mp hσ).1
    exact (List.getElem?_append_left hlt).trans hσ
  have hsplit {place : Nat} {σ : Timer} (hσ : (t.armed τ).timers[place]? = some σ) :
      t.timers[place]? = some σ ∨ σ = τ := by
    by_cases hlt : place < t.timers.length
    · exact .inl ((List.getElem?_append_left hlt).symm.trans hσ)
    · rw [Timeline.armed, List.getElem?_append_right (Nat.not_lt.mp hlt)] at hσ
      exact .inr (List.mem_singleton.mp (List.mem_of_getElem? hσ))
  refine ⟨⟨⟨?own, ?held, ?delays, ?others⟩, h.kept, ?stage⟩, ?ready, ?ahead⟩
  case own =>
    obtain ⟨σ, hσ, hmake⟩ := h.own
    exact ⟨σ, hold hσ, hmake⟩
  case held =>
    intro id place hplace
    obtain ⟨σ, hσ, hid⟩ := h.held hplace
    exact ⟨σ, hold hσ, hid⟩
  case delays =>
    intro place σ hσ
    rcases hsplit hσ with hσ | rfl
    · exact h.delays hσ
    · exact hdelay
  case others =>
    intro place σ hplace hσ
    rcases hsplit hσ with hσ | rfl
    · exact h.others hplace hσ
    · exact ⟨hid, hcloses⟩
  case stage =>
    obtain ⟨σ, hσ, hstage⟩ := h.stage
    exact ⟨σ, hold hσ, hstage⟩
  case ready =>
    -- The new task is polled behind those that are ready already.
    refine h.ready.imp (fun hcalm σ hσ => ?_) (List.mem_append_left _)
    obtain ⟨σ', hσ', -⟩ := h.own
    obtain rfl := Option.some.inj (hσ.symm.trans (hold hσ'))
    exact hcalm σ hσ'
  case ahead =>
    intro place σ hσ
    rcases hsplit hσ with hσ | rfl
    · exact h.ahead place σ hσ
    · exact .of_not_due (by simp [hnew])

end Plan

/-! ## Commands -/

namespace Timeline

/-- Something that is done on a clock. -/
inductive Command
  | arm (kind : Trigger.Kind) (id : String) (delay : Nat) (handler : Nat → Run)
  | close (id : String)
  | drop (id : String)
  | sleep (ms : Nat)

namespace Command

/-- Do what a command says. -/
def run : Command → Act Timeline Unit
  | .arm kind id delay handler => Timeline.arm kind id delay handler
  | .close id => do let _ ← Timeline.close id
  | .drop id => do let _ ← Timeline.drop id
  | .sleep ms => Timeline.sleep ms

/-- Do one command after the other. -/
def runAll : List Command → Act Timeline Unit
  | [] => pure ()
  | command :: rest => do
    command.run
    runAll rest

/-- How long a command takes. -/
def duration : Command → Nat
  | .sleep ms => ms
  | _ => 0

/-- Whether a command closes the trigger of an id. -/
def closes (id : String) : Command → Bool
  | .close other | .drop other => other == id
  | _ => false

/-- When the trigger of an id is closed for the first time, if the first command is done at a time.
-/
def closing? (id : String) : Nat → List Command → Option Nat
  | _, [] => none
  | now, command :: rest =>
    if command.closes id then some now else closing? id (now + command.duration) rest

/-- Whether a command is about no other trigger of the same id, and arms none that closes it or
whose waits take no time. -/
def Spares (id : String) : Command → Prop
  | .arm _ other delay handler =>
    other ≠ id ∧ 1 ≤ delay ∧ ∀ n, (handler n).closes ≠ some id
  | _ => True

end Command
end Timeline

namespace Plan

variable {p : Plan} {closed : Option Nat} {t : Timeline} {command : Command}
  {commands : List Command}

/-- Whatever command is done, the trigger keeps to its plan. -/
theorem Stands.ensures_run (h : p.Stands closed t) (hspares : command.Spares p.id) :
    Ensures command.run t fun _ t' =>
      p.Stands (if command.closes p.id then closed.or (some t.now) else closed) t' ∧
        t'.now = t.now + command.duration := by
  cases command with
  | sleep ms => exact h.ensures_sleep ms
  | close id =>
    refine (ensures_close id t).bind fun _ t' ht' => ensures_pure ?_
    subst ht'
    simp only [Command.closes, beq_iff_eq]
    exact ⟨h.closedBy id, now_closedBy ..⟩
  | drop id =>
    refine (ensures_drop id t).bind fun _ t' ht' => ensures_pure ?_
    subst ht'
    simp only [Command.closes, beq_iff_eq]
    exact ⟨h.drop id, now_closedBy ..⟩
  | arm kind id delay handler =>
    -- Another trigger is armed in three steps: it is put at the end, the holder of its id is
    -- dropped, and the id leads to it.
    obtain ⟨hid, hdelay, hcloses⟩ := hspares
    refine (ensures_arm kind id delay handler t).mono fun _ t' ht' => ?_
    subst ht'
    refine ⟨?_, now_closedBy ..⟩
    have harmed := (h.armed ⟨id, delay, handler, .arm kind, none⟩ hid hdelay hcloses rfl).drop id
    rw [if_neg hid] at harmed
    have hplace := map_closedBy (t.armed ⟨id, delay, handler, .arm kind, none⟩) (some id)
      t.timers.length (f := (·.id)) fun _ => rfl
    rw [Timeline.armed, List.getElem?_concat_length] at hplace
    obtain ⟨τ, hτ, hτid⟩ := Option.map_eq_some_iff.mp hplace
    exact harmed.insert hτ hτid hid

/-- Whatever is done, the trigger keeps to its plan. -/
theorem Stands.ensures_runAll (h : p.Stands closed t) (hspares : ∀ c ∈ commands, c.Spares p.id) :
    Ensures (Command.runAll commands) t fun _ t' =>
      p.Stands (closed.or (Command.closing? p.id t.now commands)) t' ∧
        t'.now = t.now + (commands.map Command.duration).sum := by
  -- For any earlier closing, which hides all that come later.
  induction commands generalizing closed t with
  | nil =>
    refine ensures_pure ⟨?_, rfl⟩
    rwa [Command.closing?, Option.or_none]
  | cons command rest ih =>
    obtain ⟨hcommand, hrest⟩ := List.forall_mem_cons.mp hspares
    refine (h.ensures_run hcommand).bind fun _ t₁ ⟨h₁, hnow₁⟩ => ?_
    refine (ih h₁ hrest).mono fun _ t' ⟨h', hnow'⟩ => ⟨?_, ?_⟩
    · rw [Command.closing?]
      by_cases hcloses : command.closes p.id = true
      · rw [if_pos hcloses, Option.or_assoc, Option.some_or] at h'
        rwa [if_pos hcloses]
      · rw [if_neg hcloses, hnow₁] at h'
        rwa [if_neg hcloses]
    · rw [hnow', hnow₁, List.map_cons, List.sum_cons, Nat.add_assoc]

/-! ## The schedule -/

/-- What a clock tells of the trigger, if its holder closed it at the time `closed`, or never. -/
structure Followed (p : Plan) (closed : Option Nat) (t : Timeline) : Prop where
  /-- In order, those runs started that start by now, each when it is due, and no other one. -/
  starts : ∃ n, t.starts p.id = (List.range' 1 n).map (fun i => (p.due i, i)) ∧
    ∀ i, 1 ≤ i ∧ i ≤ n ↔ p.Starts closed i ∧ p.due i ≤ t.now
  running : (p.id, true) ∈ t.running ↔ p.RunsAt closed t.now
  /-- A pulse starts once, behind its delay, and is running until this run is over. -/
  pulse : p.kind = .pulse →
    t.starts p.id =
        (if p.delay ≤ t.now ∧ ∀ c ∈ closed, p.delay ≤ c then [(p.delay, 1)] else []) ∧
      ((p.id, true) ∈ t.running ↔ closed = none ∧
        (p.delay ≤ t.now → ¬p.ClosesItself 1 ∧ t.now < p.delay + (p.handler 1).duration))

/-- Who asks for the trigger is told that it is running just while its plan says so. -/
theorem Stands.mem_running_iff (h : p.Stands closed t) :
    (p.id, true) ∈ t.running ↔ p.RunsAt closed t.now := by
  obtain ⟨τ, hτ, hstage, -⟩ := h.stage
  have hrunning := hstage.isRunning_iff h.delay_pos (h.ahead 0 τ hτ)
  rw [running, List.mem_map]
  constructor
  · rintro ⟨⟨id, place⟩, hmem, heq⟩
    obtain ⟨rfl, hany⟩ := Prod.mk.inj heq
    have hplace := Entries.find?_eq_some_iff_mem.mpr hmem
    -- The id leads to the trigger and to no other one.
    obtain rfl := (h.place_iff hplace).mpr rfl
    rw [hτ] at hany
    exact hrunning.mp hany
  · intro hruns
    refine ⟨(p.id, 0), Entries.find?_eq_some_iff_mem.mp (h.kept hruns.1), ?_⟩
    simp [hτ, hrunning.mpr hruns]

/-- A trigger that keeps to its plan is seen to follow it. -/
theorem Stands.followed (h : p.Stands closed t) : p.Followed closed t := by
  obtain ⟨τ, hτ, hstage, hstarts⟩ := h.stage
  have hruns (i : Nat) : 1 ≤ i ∧ i ≤ τ.trigger.runs ↔ p.Starts closed i ∧ p.due i ≤ t.now :=
    (hstage.starts_iff h.delay_pos (h.ahead 0 τ hτ)).symm
  refine ⟨⟨_, hstarts, hruns⟩, h.mem_running_iff, fun hkind => ⟨?_, ?_⟩⟩
  · split
    · rename_i hstart
      -- The run of the pulse was due, and there is no other one.
      have hfirst : 1 ≤ τ.trigger.runs :=
        ((hruns 1).mpr ⟨(starts_iff_of_pulse hkind).mpr ⟨rfl, hstart.2⟩,
          p.due_one.symm ▸ hstart.1⟩).2
      have hsole : τ.trigger.runs = 1 :=
        ((starts_iff_of_pulse hkind).mp ((hruns _).mp ⟨hfirst, le_rfl⟩).1).1
      rw [hstarts, hsole]
      exact congrArg (fun due => [(due, 1)]) p.due_one
    · rename_i hnot
      -- The run is not due yet, or the trigger was closed before.
      have hnone : τ.trigger.runs = 0 := by
        by_contra hsome
        obtain ⟨hstart, hdue⟩ := (hruns 1).mp ⟨le_rfl, Nat.pos_of_ne_zero hsome⟩
        exact hnot ⟨p.due_one ▸ hdue, ((starts_iff_of_pulse hkind).mp hstart).2⟩
      rw [hstarts, hnone]
      rfl
  · rw [h.mem_running_iff, runsAt_iff_of_pulse hkind]

/-- A trigger that is armed when the clock starts. -/
theorem stands_armed (hdelay : 1 ≤ p.delay) :
    Ensures (Command.run (.arm p.kind p.id p.delay p.handler)) .empty fun _ t =>
      p.Stands none t ∧ t.now = 0 := by
  refine (ensures_arm ..).mono fun _ t ht => ?_
  subst ht
  -- There is one timer on the clock.
  have hsole {place : Nat} {τ : Timer}
      (hτ : [Timer.mk p.id p.delay p.handler (.arm p.kind) none][place]? = some τ) :
      place = 0 ∧ τ = ⟨p.id, p.delay, p.handler, .arm p.kind, none⟩ := by
    cases place with
    | zero => exact ⟨rfl, (Option.some.inj hτ).symm⟩
    | succ place => exact nomatch hτ
  have hheld (id : String) : ((Entries.nil : SortedMap String Nat).insert p.id 0).find? id =
      if id = p.id then some 0 else none := Entries.find?_insert ..
  refine ⟨⟨⟨⟨⟨_, rfl, rfl⟩, ?held, ?delays, ?others⟩,
    fun _ => (hheld p.id).trans (if_pos rfl), ⟨_, rfl, ?stage, rfl⟩⟩,
    .inr List.mem_cons_self, ?ahead⟩, rfl⟩
  case held =>
    intro id place hplace
    obtain ⟨rfl, hzero⟩ := Option.ite_none_right_eq_some.mp ((hheld id).symm.trans hplace)
    obtain rfl := Option.some.inj hzero
    exact ⟨_, rfl, rfl⟩
  case delays =>
    intro place τ hτ
    exact (hsole hτ).2 ▸ hdelay
  case others => exact fun hplace hτ => absurd (hsole hτ).1 hplace
  case stage =>
    exact .spawned rfl ⟨nofun, Nat.le_of_eq p.due_zero, nofun⟩
  case ahead =>
    intro place τ hτ
    rw [(hsole hτ).2]
    exact .of_not_due nofun

/-- A trigger that is armed when the clock starts follows its plan, whatever is done later with it
and with other triggers. -/
theorem on_schedule (p : Plan) (hdelay : 1 ≤ p.delay) (later : List Command)
    (hlater : ∀ c ∈ later, c.Spares p.id) :
    Ensures (Command.runAll (.arm p.kind p.id p.delay p.handler :: later)) .empty fun _ t =>
      t.now = (later.map Command.duration).sum ∧
        p.Followed (Command.closing? p.id 0 later) t := by
  refine (stands_armed hdelay).bind fun _ t ⟨h, hnow⟩ => ?_
  refine (h.ensures_runAll hlater).mono fun _ t' ⟨h', hnow'⟩ => ⟨?_, ?_⟩
  · rw [hnow', hnow, Nat.zero_add]
  · rw [hnow, Option.none_or] at h'
    exact h'.followed

/-- A recurring trigger whose second run takes longer than the others. -/
def ticking : Plan where
  kind := .recurring
  id := "tick"
  delay := 10
  handler n := ⟨none, if n = 2 then 5 else 3, .ok ()⟩

/-- The trigger is closed in its second run, beside a pulse that closes itself. -/
def closedBesides : List Command :=
  [.arm .pulse "other" 4 fun _ => ⟨some "other", 0, .ok ()⟩, .sleep 24, .close "tick", .sleep 30,
    .drop "tick"]

/-- Two runs start, the second of them behind the delay after the end of the first. -/
theorem on_schedule_closedBesides :
    1 ≤ ticking.delay ∧ (∀ c ∈ closedBesides, c.Spares ticking.id) ∧
      Ensures
        (Command.runAll (.arm ticking.kind ticking.id ticking.delay ticking.handler ::
          closedBesides))
        .empty fun _ t => t.now = 54 ∧ ticking.Followed (some 24) t ∧
          t.starts ticking.id = [(ticking.due 1, 1), (ticking.due 2, 2)] := by
  have hspares : ∀ c ∈ closedBesides, c.Spares ticking.id := by
    simp [closedBesides, Command.Spares, ticking]
  have hclosing : Command.closing? ticking.id 0 closedBesides = some 24 := by decide
  have hnow : (closedBesides.map Command.duration).sum = 54 := by decide
  have hschedule := on_schedule ticking (by decide) closedBesides hspares
  rw [hclosing, hnow] at hschedule
  refine ⟨by decide, hspares, hschedule.mono fun _ t ⟨ht, hfollowed⟩ => ⟨ht, hfollowed, ?_⟩⟩
  obtain ⟨n, hstarts, hruns⟩ := hfollowed.starts
  have hsecond : ticking.Starts (some 24) 2 := by
    refine ⟨by decide, fun j _ _ => by simp [Last, ClosesItself, ticking], ?_⟩
    rintro c ⟨⟩
    decide
  have hlower : 2 ≤ n := ((hruns 2).mpr ⟨hsecond, ht ▸ by decide⟩).2
  -- The third run would start behind the closing.
  have hupper : ¬3 ≤ n := fun hn =>
    absurd (((hruns 3).mp ⟨by decide, hn⟩).1.2.2 24 rfl) (by decide)
  obtain rfl : n = 2 := by omega
  exact hstarts

end Plan
end LayeredConfig
