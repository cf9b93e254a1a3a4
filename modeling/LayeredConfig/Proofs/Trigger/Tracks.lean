import LayeredConfig.Proofs.Trigger.Moves

/-!
# A trigger that keeps to its plan

The first trigger of a clock is in a stage of its plan at any time, and the journal tells that its
runs started when they were due.  All that the tasks do while time passes leaves that so.

## Key results

- `Plan.Tracks.move`: whatever a task does, the trigger keeps to its plan
- `Plan.Tracks.ensures_poll`, `Plan.Tracks.ensures_settle`: and so it does when tasks are polled
- `Plan.Stands.ensures_sleep`: and while time passes
-/

namespace LayeredConfig

open Act (Ensures ensures_pure ensures_current_bind ensures_modify ensures_modify_bind
  ensures_replace_bind)

namespace Timeline

variable {t t' : Timeline} {place : Nat} {τ : Timer}

/-- The runs of the trigger of an id: when each of them started, and its number. -/
def starts (t : Timeline) (id : String) : List (Nat × Nat) :=
  t.journal.filterMap fun o => if o.id = id ∧ o.moment = .start then some (o.time, o.run) else none

/-- An entry tells of a start or not. -/
theorem starts_noted (t : Timeline) (τ : Timer) (moment : Moment) (id : String) :
    (t.noted τ moment).starts id = t.starts id ++
      if τ.id = id ∧ moment = .start then [(t.now, τ.trigger.runs)] else [] := by
  rw [starts, noted, List.filterMap_append]
  congr 1
  by_cases h : τ.id = id ∧ moment = .start <;> simp [h]

/-- To close a trigger tells of no start. -/
theorem starts_closedBy (t : Timeline) (closes : Option String) (id : String) :
    (t.closedBy closes).starts id = t.starts id := by
  rw [closedBy]
  split <;> rfl

/-- No other trigger writes about the runs of a trigger. -/
theorem Move.starts_of_ne {id : String} (h : Move place t t')
    (hid : ∀ τ, t.timers[place]? = some τ → τ.id ≠ id) : t'.starts id = t.starts id := by
  cases h with
  | enter | stop => rfl
  | start h =>
    rw [starts_closedBy, starts_noted, if_neg fun hown => hid _ h hown.1, List.append_nil]
    rfl
  | finish h =>
    rw [starts_noted, if_neg fun hown => hid _ h hown.1, List.append_nil]
    rfl

/-! ## What is due -/

/-- The next stop is the least of the times at which something is due. -/
theorem earliest?_eq_min? (times : List Nat) : earliest? times = times.min? := by
  induction times with
  | nil => rfl
  | cons time rest ih =>
    rw [earliest?, ih, List.min?_cons]
    cases rest.min? <;> rfl

/-- Nothing is pending where there is no stop. -/
theorem pendingDeadline?_of_earliest?_eq_none
    (h : earliest? (t.timers.filterMap pendingDeadline?) = none) (hτ : t.timers[place]? = some τ) :
    pendingDeadline? τ = none := by
  rw [earliest?_eq_min?, List.min?_eq_none_iff, List.filterMap_eq_nil_iff] at h
  exact h τ (List.mem_of_getElem? hτ)

/-- The next stop is when something is due, and nothing is due before it. -/
theorem earliest?_eq_some {time : Nat}
    (h : earliest? (t.timers.filterMap pendingDeadline?) = some time) :
    (∃ (place : Nat) (τ : Timer), t.timers[place]? = some τ ∧ time ∈ pendingDeadline? τ) ∧
      ∀ {place : Nat} {τ : Timer}, t.timers[place]? = some τ →
        ∀ d ∈ pendingDeadline? τ, time ≤ d := by
  rw [earliest?_eq_min?, List.min?_eq_some_iff] at h
  obtain ⟨hmem, hleast⟩ := h
  obtain ⟨τ, hτ, hdue⟩ := List.mem_filterMap.mp hmem
  obtain ⟨place, hplace⟩ := List.mem_iff_getElem?.mp hτ
  exact ⟨⟨place, τ, hplace, hdue⟩, fun hτ d hd =>
    hleast d (List.mem_filterMap.mpr ⟨_, List.mem_of_getElem? hτ, hd⟩)⟩

/-- A place for which something is due at a time is found among those. -/
theorem mem_dueFrom {time : Nat} (first : Nat) {timers : List Timer}
    (hτ : timers[place]? = some τ) (hdue : pendingDeadline? τ = some time) :
    first + place ∈ dueFrom time first timers := by
  -- On the timers: behind the first one, both the count and the place are shifted by one.
  induction timers generalizing first place with
  | nil => exact nomatch hτ
  | cons other rest ih =>
    cases place with
    | zero =>
      obtain rfl := Option.some.inj hτ
      rw [dueFrom, if_pos hdue]
      exact List.mem_cons_self
    | succ place =>
      have hrest := ih (first + 1) hτ
      rw [Nat.add_right_comm, Nat.add_assoc] at hrest
      rw [dueFrom]
      split
      · exact List.mem_cons_of_mem _ hrest
      · exact hrest

end Timeline

namespace Plan

open Timeline

variable {p : Plan} {closed : Option Nat} {t t' : Timeline} {place : Nat} {τ : Timer}

/-! ## The place of a trigger -/

/-- The trigger is the first one of the clock, and no other one closes it. -/
structure Hosts (p : Plan) (t : Timeline) : Prop where
  own : ∃ τ, t.timers[0]? = some τ ∧ τ.make = (p.id, p.delay, p.handler)
  held : ∀ {id : String} {place : Nat}, t.held.find? id = some place →
    ∃ τ, t.timers[place]? = some τ ∧ τ.id = id
  delays : ∀ {place : Nat} {τ : Timer}, t.timers[place]? = some τ → 1 ≤ τ.delay
  others : ∀ {place : Nat} {τ : Timer}, place ≠ 0 → t.timers[place]? = some τ →
    τ.id ≠ p.id ∧ ∀ n, (τ.handler n).closes ≠ some p.id

/-- The waits of the trigger take time. -/
theorem Hosts.delay_pos (h : p.Hosts t) : 1 ≤ p.delay := by
  obtain ⟨τ, hτ, hmake⟩ := h.own
  obtain ⟨-, hdelay, -⟩ := Timer.make_eq_iff.mp hmake
  exact hdelay ▸ h.delays hτ

/-- Only the id of the trigger leads to its place. -/
theorem Hosts.place_iff {id : String} (h : p.Hosts t) (hplace : t.held.find? id = some place) :
    place = 0 ↔ id = p.id := by
  obtain ⟨τ, hτ, rfl⟩ := h.held hplace
  constructor
  · rintro rfl
    obtain ⟨τ', hτ', hmake⟩ := h.own
    obtain rfl := Option.some.inj (hτ.symm.trans hτ')
    exact congrArg Prod.fst hmake
  · intro hid
    by_contra hne
    exact (h.others hne hτ).1 hid

/-- Neither the triggers as they were armed nor fewer ids in use change that. -/
theorem Hosts.of_alike (h : p.Hosts t) (halike : Alike t t')
    (hheld : ∀ {id place}, t'.held.find? id = some place → t.held.find? id = some place) :
    p.Hosts t' where
  own := by
    obtain ⟨τ, hτ, hmake⟩ := h.own
    obtain ⟨τ', hτ', hsame⟩ := halike.symm.exists hτ
    exact ⟨τ', hτ', (Timer.make_eq_iff.mpr hsame).symm.trans hmake⟩
  held hplace := by
    obtain ⟨τ, hτ, hid⟩ := h.held (hheld hplace)
    obtain ⟨τ', hτ', hid', -⟩ := halike.symm.exists hτ
    exact ⟨τ', hτ', hid'.symm.trans hid⟩
  delays hτ := by
    obtain ⟨τ', hτ', -, hdelay, -⟩ := halike.exists hτ
    exact hdelay ▸ h.delays hτ'
  others hplace hτ := by
    obtain ⟨τ', hτ', hid, -, hhandler⟩ := halike.exists hτ
    rw [hid, hhandler]
    exact h.others hplace hτ'

/-! ## Moves -/

/-- The trigger keeps to its plan on a clock, and was closed by its holder at the time `closed`, if
at all. -/
structure Tracks (p : Plan) (closed : Option Nat) (t : Timeline) : Prop extends Hosts p t where
  kept : closed = none → t.held.find? p.id = some 0
  stage : ∃ τ, t.timers[0]? = some τ ∧ p.Stage closed t.now τ ∧
    t.starts p.id = (List.range' 1 τ.trigger.runs).map fun i => (p.due i, i)

/-- While nobody closed the trigger, a run closes it where it is to close its id. -/
theorem Tracks.closes_iff (h : p.Tracks none t) (i : Nat) :
    (p.handler i).closes.bind (t.held.find? ·) = some 0 ↔ p.ClosesItself i := by
  rw [Option.bind_eq_some_iff]
  constructor
  · rintro ⟨id, hcloses, hplace⟩
    obtain rfl := (h.place_iff hplace).mp rfl
    exact hcloses
  · exact fun hcloses => ⟨p.id, hcloses, h.kept rfl⟩

/-- A run starts when it is due. -/
theorem Tracks.own_start (h : p.Tracks closed t) (hτ : t.timers[0]? = some τ)
    (hstage : p.Stage closed t.now τ)
    (hstarts : t.starts p.id = (List.range' 1 τ.trigger.runs).map fun i => (p.due i, i))
    (htask : τ.trigger.task = .waiting) (hends : Ends t.now τ .time) :
    let w := τ.waited t.now .time
    let t' := ((t.placed 0 w).noted w .start).closedBy (τ.handler w.trigger.runs).closes
    ∃ τ', t'.timers[0]? = some τ' ∧ p.Stage closed t'.now τ' ∧
      t'.starts p.id = (List.range' 1 τ'.trigger.runs).map fun i => (p.due i, i) := by
  intro w t'
  obtain ⟨-, hruns, rfl, hnow, hstage'⟩ := hstage.began htask hends.1 hends.2
  obtain ⟨hid, -, hhandler⟩ := Timer.make_eq_iff.mp hstage.make_eq
  refine ⟨if p.ClosesItself (τ.trigger.runs + 1) then w.closed else w, ?_, ?_, ?_⟩
  -- The run closes its own trigger just if its plan says so.
  · have hcloses := h.closes_iff (τ.trigger.runs + 1)
    rw [← hhandler, ← hruns] at hcloses
    have hplaced : ((t.placed 0 w).noted w .start).timers[0]? = some w := getElem?_placed hτ w
    refine (getElem?_closedBy ..).trans ?_
    rw [hplaced, Option.map_some]
    exact congrArg some (if_congr (hruns ▸ hcloses) rfl rfl)
  · rw [now_closedBy]
    exact hstage'
  · have hruns' : (if p.ClosesItself (τ.trigger.runs + 1) then w.closed else w).trigger.runs =
        τ.trigger.runs + 1 := by
      split <;> exact hruns
    rw [starts_closedBy, starts_noted, if_pos ⟨hid, rfl⟩, hruns', List.range'_1_concat,
      List.map_append, ← hstarts, hruns, Nat.add_comm 1]
    exact congrArg (fun time => t.starts p.id ++ [(time, τ.trigger.runs + 1)]) hnow

/-- The trigger keeps to its plan in what it does itself. -/
theorem Tracks.own_move (h : p.Tracks closed t) (hmove : Move 0 t t') :
    ∃ τ, t'.timers[0]? = some τ ∧ p.Stage closed t'.now τ ∧
      t'.starts p.id = (List.range' 1 τ.trigger.runs).map fun i => (p.due i, i) := by
  obtain ⟨τ, hτ, hstage, hstarts⟩ := h.stage
  cases hmove with
  | enter h' htask =>
    obtain rfl := Option.some.inj (hτ.symm.trans h')
    exact ⟨_, getElem?_placed hτ _, hstage.entered h.delay_pos htask, hstarts⟩
  | @stop _ signal h' htask hends hstop =>
    obtain rfl := Option.some.inj (hτ.symm.trans h')
    cases signal with
    | wakeUp => exact ⟨_, getElem?_placed hτ _, hstage.woken htask hends, hstarts⟩
    | time =>
      -- The time was up and nobody closed the trigger: a run starts.
      have hbegan := (hstage.began htask hends.1 hends.2).1
      exact nomatch hbegan.symm.trans hstop
  | @start _ signal h' htask hends hstart =>
    obtain rfl := Option.some.inj (hτ.symm.trans h')
    cases signal with
    | wakeUp => exact nomatch hstart
    | time => exact h.own_start hτ hstage hstarts htask hends
  | @finish _ moment h' htask hdue hmoment =>
    obtain rfl := Option.some.inj (hτ.symm.trans h')
    refine ⟨_, getElem?_placed hτ _, hstage.ranOut h.delay_pos htask hdue, ?_⟩
    rw [starts_noted, if_neg fun hstart => hmoment hstart.2, List.append_nil, Timer.ranOut]
    simp only [Trigger.endRun_runs]
    exact hstarts

/-- No other trigger touches the trigger. -/
theorem Tracks.getElem?_of_ne (h : p.Tracks closed t) (hmove : Move place t t')
    (hplace : place ≠ 0) : t'.timers[0]? = t.timers[0]? := by
  rcases hmove.getElem?_of_ne (Ne.symm hplace) with hsame | ⟨τ, n, id, hτ, hcloses, hheld⟩
  · exact hsame
  · -- Only a run that closes its id could touch the trigger.
    obtain rfl := (h.place_iff hheld).mp rfl
    exact absurd hcloses ((h.others hplace hτ).2 n)

/-- Whatever the task of any trigger does, the trigger keeps to its plan. -/
theorem Tracks.move (h : p.Tracks closed t) (hmove : Move place t t') : p.Tracks closed t' where
  toHosts := h.toHosts.of_alike hmove.beside.makes fun hplace => hmove.beside.held ▸ hplace
  kept hclosed := hmove.beside.held.symm ▸ h.kept hclosed
  stage := by
    by_cases hplace : place = 0
    · subst hplace
      exact h.own_move hmove
    · obtain ⟨τ, hτ, hstage, hstarts⟩ := h.stage
      refine ⟨τ, (h.getElem?_of_ne hmove hplace).trans hτ, hmove.beside.now.symm ▸ hstage, ?_⟩
      rw [hmove.starts_of_ne fun τ' hτ' => (h.others hplace hτ').1, hstarts]

/-- So it is with all moves of a poll, and those of other triggers do not touch it. -/
theorem Tracks.moves (h : p.Tracks closed t) (hmoves : Moves place t t') :
    p.Tracks closed t' ∧ (place ≠ 0 → t'.timers[0]? = t.timers[0]?) := by
  induction hmoves with
  | refl => exact ⟨h, fun _ => rfl⟩
  | tail _ hmove ih =>
    exact ⟨ih.1.move hmove, fun hplace =>
      (ih.1.getElem?_of_ne hmove hplace).trans (ih.2 hplace)⟩

/-! ## Polls -/

/-- The trigger keeps to its plan, a poll of its task is on the way if it needs one, and nothing is
due for any trigger. -/
structure Stands (p : Plan) (closed : Option Nat) (t : Timeline) : Prop extends
    Tracks p closed t where
  ready : t.CalmAt 0 ∨ 0 ∈ t.ready
  ahead : ∀ r, t.AheadAt r

/-- When a task is polled, the trigger keeps to its plan and nothing is due at that place. -/
theorem Tracks.ensures_poll (h : p.Tracks closed t) (place : Nat) :
    Ensures (poll place) t fun _ t' => p.Tracks closed t' ∧ Beside place t t' ∧
      (∀ r, r = place ∨ t.AheadAt r → t'.AheadAt r) ∧ (place = 0 ∨ t.CalmAt 0 → t'.CalmAt 0) := by
  refine (Timeline.ensures_poll place t).mono fun _ t' ⟨hmoves, hrests⟩ => ?_
  obtain ⟨h', hsame⟩ := h.moves hmoves
  -- What the poll does at its own place it tells, and it leaves the other places alone.
  refine ⟨h', hmoves.beside, fun r hr => ?_, fun hcalm => ?_⟩
  · by_cases hplace : r = place
    · exact fun τ hτ => (hrests τ (hplace ▸ hτ)).2 (h'.delays hτ)
    · exact (hr.resolve_left hplace).beside hmoves.beside hplace
  · by_cases hplace : place = 0
    · exact fun τ hτ => (hrests τ (hplace ▸ hτ)).1
    · exact fun τ hτ => hcalm.resolve_left hplace τ (hsame hplace ▸ hτ)

/-- The tasks that are ready are polled, and with them the trigger's, if it is early enough among
them. -/
theorem Tracks.ensures_settle (limit : Nat) (h : p.Tracks closed t)
    (hready : t.CalmAt 0 ∨ 0 ∈ t.ready.take limit) :
    Ensures (settle limit) t fun _ t' => p.Tracks closed t' ∧ t'.CalmAt 0 ∧ t'.now = t.now ∧
      ∀ r, t.AheadAt r → t'.AheadAt r := by
  -- On the number of polls: each poll only adds to the end of the queue, so the trigger gets nearer
  -- to its front.
  induction limit generalizing t with
  | zero => exact ensures_pure ⟨h, hready.resolve_right List.not_mem_nil, rfl, fun _ h => h⟩
  | succ limit ih =>
    refine ensures_current_bind ?_
    cases hqueue : t.ready with
    | nil =>
      rw [hqueue] at hready
      exact ensures_pure ⟨h, hready.resolve_right List.not_mem_nil, rfl, fun _ h => h⟩
    | cons place rest =>
      have hrest : p.Tracks closed { t with ready := rest } :=
        ⟨⟨h.own, h.held, h.delays, h.others⟩, h.kept, h.stage⟩
      refine ensures_replace_bind ?_
      refine (hrest.ensures_poll place).bind fun _ t' ⟨h', hbeside, hahead, hcalm⟩ => ?_
      have hready' : t'.CalmAt 0 ∨ 0 ∈ t'.ready.take limit := by
        rw [hqueue, List.take_succ_cons, List.mem_cons] at hready
        rcases hready with hnow | hplace | hlater
        · exact .inl (hcalm (.inr hnow))
        · exact .inl (hcalm (.inl hplace.symm))
        · exact .inr ((hbeside.ready.take limit).subset hlater)
      refine (ih h' hready').mono fun _ t'' ⟨h'', hcalm'', hnow, hahead'⟩ => ?_
      exact ⟨h'', hcalm'', hnow.trans hbeside.now, fun r hr => hahead' r (hahead r (.inr hr))⟩

/-- Where all tasks are polled for which something is due, nothing is due behind it. -/
theorem Tracks.ensures_pollAll (places : List Nat) (h : p.Tracks closed t) (hcalm : t.CalmAt 0)
    (hahead : ∀ r, r ∉ places → t.AheadAt r) :
    Ensures (pollAll places) t fun _ t' => p.Stands closed t' ∧ t'.CalmAt 0 ∧ t'.now = t.now := by
  induction places generalizing t with
  | nil => exact ensures_pure ⟨⟨h, .inl hcalm, fun r => hahead r List.not_mem_nil⟩, hcalm, rfl⟩
  | cons place rest ih =>
    refine (h.ensures_poll place).bind fun _ t₁ ⟨h₁, hbeside, hahead₁, hcalm₁⟩ => ?_
    refine ensures_current_bind ?_
    refine (h₁.ensures_settle _ (.inl (hcalm₁ (.inr hcalm)))).bind
      fun _ t₂ ⟨h₂, hcalm₂, hnow₂, hahead₂⟩ => ?_
    -- What was not ahead was this place or one of those that are polled later.
    have hrest : ∀ r, r ∉ rest → t₂.AheadAt r := by
      intro r hr
      refine hahead₂ r (hahead₁ r ?_)
      by_cases hplace : r = place
      · exact .inl hplace
      · exact .inr (hahead r (by simp [hplace, hr]))
    refine (ih h₂ hcalm₂ hrest).mono fun _ t' ⟨h', hcalm', hnow'⟩ => ?_
    exact ⟨h', hcalm', hnow'.trans (hnow₂.trans hbeside.now)⟩

/-! ## Time -/

/-- Time passes, but not beyond what is due next. -/
theorem Tracks.advance (h : p.Tracks closed t) (hcalm : t.CalmAt 0) {later : Nat}
    (hle : t.now ≤ later)
    (hpending : ∀ τ, t.timers[0]? = some τ → ∀ d ∈ pendingDeadline? τ, later ≤ d) :
    p.Tracks closed { t with now := later } where
  toHosts := ⟨h.own, h.held, h.delays, h.others⟩
  kept := h.kept
  stage := by
    obtain ⟨τ, hτ, hstage, hstarts⟩ := h.stage
    exact ⟨τ, hτ, hstage.passed (hcalm τ hτ) hle (hpending τ hτ), hstarts⟩

/-- Where nothing is due until then, time passes at once. -/
theorem Stands.ensures_advance (h : p.Stands closed t) (hcalm : t.CalmAt 0) {target : Nat}
    (hahead : ∀ (r : Nat) (τ : Timer), t.timers[r]? = some τ → τ.Ahead (max t.now target)) :
    Ensures (advance target) t fun _ t' =>
      p.Stands closed t' ∧ t'.CalmAt 0 ∧ t'.now = max t.now target := by
  refine ensures_modify ⟨⟨?_, .inl hcalm, hahead⟩, hcalm, rfl⟩
  exact h.toTracks.advance hcalm (Nat.le_max_left ..) fun τ hτ d hd => (hahead 0 τ hτ d hd).le

/-- Each stop is later than the one before, so that there are not more stops than milliseconds. -/
theorem Stands.ensures_passUntil (target limit : Nat) (h : p.Stands closed t) (hcalm : t.CalmAt 0)
    (hlimit : target ≤ t.now + limit) :
    Ensures (passUntil target limit) t fun _ t' =>
      p.Stands closed t' ∧ t'.CalmAt 0 ∧ t'.now = max t.now target := by
  -- On the milliseconds that are left: nothing is due by now, so the next stop is later by one at
  -- least.
  induction limit generalizing t with
  | zero =>
    refine h.ensures_advance hcalm fun r τ hτ => ?_
    rw [Nat.max_eq_left (by omega)]
    exact h.ahead r τ hτ
  | succ limit ih =>
    refine ensures_current_bind ?_
    cases hearliest : earliest? (t.timers.filterMap pendingDeadline?) with
    | none =>
      refine h.ensures_advance hcalm fun r τ hτ d hd => ?_
      rw [pendingDeadline?_of_earliest?_eq_none hearliest hτ] at hd
      exact nomatch hd
    | some time =>
      obtain ⟨⟨place, τ₀, hτ₀, hstop⟩, hleast⟩ := earliest?_eq_some hearliest
      have hlater : t.now < time := h.ahead place τ₀ hτ₀ time hstop
      by_cases hdue : time ≤ target
      · simp only [if_pos hdue]
        refine ensures_modify_bind ?_
        rw [Nat.max_eq_right hlater.le]
        -- Only where something is due at the stop, it is not ahead of it.
        have hstopped : p.Tracks closed { t with now := time } :=
          h.toTracks.advance hcalm hlater.le fun τ hτ => hleast hτ
        have hahead : ∀ r, r ∉ dueFrom time 0 t.timers → AheadAt { t with now := time } r := by
          intro r hr τ hτ d hd
          refine lt_of_le_of_ne (hleast hτ d hd) fun heq => hr ?_
          obtain rfl : time = d := heq
          exact Nat.zero_add r ▸ mem_dueFrom 0 hτ hd
        refine (hstopped.ensures_pollAll _ hcalm hahead).bind fun _ t₁ ⟨h₁, hcalm₁, hnow⟩ => ?_
        have hnow₁ : t₁.now = time := hnow
        refine (ih h₁ hcalm₁ (by omega)).mono fun _ t' ⟨h', hcalm', hnow'⟩ => ⟨h', hcalm', ?_⟩
        omega
      -- The next stop is behind the target.
      · simp only [if_neg hdue]
        refine h.ensures_advance hcalm fun r τ hτ d hd => ?_
        have := hleast hτ d hd
        omega

/-- While time passes, the trigger keeps to its plan. -/
theorem Stands.ensures_sleep (h : p.Stands closed t) (ms : Nat) :
    Ensures (sleep ms) t fun _ t' => p.Stands closed t' ∧ t'.now = t.now + ms := by
  rw [sleep]
  split
  · rename_i hzero
    exact ensures_pure ⟨h, by omega⟩
  · refine ensures_current_bind ?_
    have hready : t.CalmAt 0 ∨ 0 ∈ t.ready.take (t.ready.length + t.timers.length) := by
      rw [List.take_of_length_le (by omega)]
      exact h.ready
    refine (h.toTracks.ensures_settle _ hready).bind fun _ t₁ ⟨h₁, hcalm₁, hnow₁, hahead₁⟩ => ?_
    have hstands : p.Stands closed t₁ := ⟨h₁, .inl hcalm₁, fun r => hahead₁ r (h.ahead r)⟩
    refine (hstands.ensures_passUntil _ _ hcalm₁ (by omega)).mono fun _ t' ⟨h', _, hnow'⟩ => ?_
    exact ⟨h', by omega⟩

end Plan
end LayeredConfig
