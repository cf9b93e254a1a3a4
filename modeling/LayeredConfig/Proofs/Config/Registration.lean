import LayeredConfig.Proofs.Config.History

/-!
# The order of registration

Sources of different priorities stand in merge order by priority alone, so it does not matter in
which order they are added, nor at which points between them values are set: the values go to the
overrides, where only their own order counts.

## Key results

- `Registry.place_comm`: sources of different priorities may be placed in any order
- `Interleaves.sources_after` and `Interleaves.overrides_after`: what additions and sets come to
- `Registry.after_congr`: two orders of the same additions come to the same
- `Thread.unordered`: the same for reachable configurations
-/

namespace LayeredConfig

/-- The write that adds a source. -/
def Source.addition (s : Source) : Write := .addSource s.id s.priority s.bag

/-- `Interleaves ss vs ws`: the writes `ws` add the sources `ss` in this order and set the values
`vs` at their paths in this order, and do nothing else. -/
inductive Interleaves : List Source → List (String × Value) → List Write → Prop
  | done : Interleaves [] [] []
  | add {ss : List Source} {vs : List (String × Value)} {ws : List Write} (s : Source) :
      Interleaves ss vs ws → Interleaves (s :: ss) vs (s.addition :: ws)
  | set {ss : List Source} {vs : List (String × Value)} {ws : List Write} (path : String)
      (v : Value) : Interleaves ss vs ws → Interleaves ss ((path, v) :: vs) (.set path v :: ws)

namespace Registry

/-! ## Merge order -/

/-- Two sources of different priorities find their places independently of each other. -/
theorem place_comm_of_lt {a b : Source} (h : a.priority.toInt < b.priority.toInt)
    (l : List Source) : place a (place b l) = place b (place a l) := by
  have hle (s t : Source) : s.priority ≤ t.priority ↔ s.priority.toInt ≤ t.priority.toInt :=
    Int32.le_iff_toInt_le
  have hab : a.priority ≤ b.priority := (hle a b).mpr (Int.le_of_lt h)
  have hba : ¬ b.priority ≤ a.priority := fun hba => Int.not_le.mpr h ((hle b a).mp hba)
  -- Both are placed from the front, so the list is gone through until one of them stops.
  induction l with
  | nil => simp only [place, if_pos hab, if_neg hba]
  | cons t l ih =>
    by_cases htb : t.priority ≤ b.priority
    · by_cases hta : t.priority ≤ a.priority
      · simp only [place, if_pos hta, if_pos htb, ih]
      · simp only [place, if_neg hta, if_pos htb, if_pos hab]
    · -- What stands behind the greater one stands behind both.
      have hta : ¬ t.priority ≤ a.priority := by
        rw [hle] at htb ⊢
        omega
      simp only [place, if_neg hta, if_neg htb, if_pos hab, if_neg hba]

/-- Sources of different priorities may be placed in any order. -/
theorem place_comm {a b : Source} (h : a.priority ≠ b.priority) (l : List Source) :
    place a (place b l) = place b (place a l) := by
  have hne : a.priority.toInt ≠ b.priority.toInt := fun heq => h (Int32.toInt_inj.mp heq)
  rcases Int.lt_or_gt_of_ne hne with hlt | hgt
  · exact place_comm_of_lt hlt l
  · exact (place_comm_of_lt hgt l).symm

/-- Sources of different priorities that come last may come in any order. -/
theorem ordered_eq_of_perm {r r' : Registry} {l ss ss' : List Source} (hperm : ss.Perm ss')
    (hpriorities : (ss.map Source.priority).Nodup) (hr : r.sources = l ++ ss)
    (hr' : r'.sources = l ++ ss') : r'.ordered = r.ordered := by
  rw [ordered, ordered, hr, hr', List.foldl_append, List.foldl_append]
  refine (hperm.foldl_eq' ?_ _).symm
  -- Two sources of one priority are the same source here, and others commute.
  intro a ha b hb z
  by_cases heq : a.priority = b.priority
  · rw [List.inj_on_of_nodup_map hpriorities ha hb heq]
  · exact (place_comm heq z).symm

/-! ## Additions and sets -/

/-- A source is added behind the others unless its id is taken. -/
theorem next_addition (r : Registry) (s : Source) :
    r.next s.addition = if r.has s.id then r else { r with sources := r.sources ++ [s] } := by
  cases hid : r.has s.id <;> simp [next, apply, Source.addition, hid]

/-- The ids that are taken are those from before and the new one. -/
theorem has_add (r : Registry) (s : Source) (id : String) :
    Registry.has { r with sources := r.sources ++ [s] } id = (r.has id || s.id == id) := by
  cases hid : s.id == id <;> simp [has, find?, List.find?_append, hid]

/-- So they are after an addition, whether it was carried out or not. -/
theorem has_next_addition (r : Registry) (s : Source) (id : String) :
    (r.next s.addition).has id = (r.has id || s.id == id) := by
  rw [next_addition]
  cases hid : r.has s.id with
  | false => exact has_add r s id
  -- The id was taken, so nothing is added and nothing is new.
  | true =>
    by_cases heq : s.id = id
    · subst heq
      simp [hid]
    · simp [heq]

/-- A source is added exactly if its id is not taken. -/
theorem answer_addition_eq_ok_iff {r : Registry} {s : Source} :
    r.answer s.addition = .ok true ↔ r.has s.id = false := by
  cases hid : r.has s.id <;> simp [answer, apply, Source.addition, hid, Except.map]

/-- Overrides with one more value set, if that is possible. -/
def put (overrides : Bag) (e : String × Value) : Bag :=
  (overrides.set? e.1 e.2).getD overrides

/-- To set a value changes the overrides alone. -/
theorem next_set_eq (r : Registry) (path : String) (v : Value) :
    r.next (.set path v) = { r with overrides := put r.overrides (path, v) } := by
  cases hset : r.overrides.set? path v <;> simp [next, apply, put, hset]

end Registry

namespace Interleaves

variable {ss ss' : List Source} {vs : List (String × Value)} {ws ws' : List Write}

/-- Those sources are added whose ids are not taken. -/
theorem sources_after (h : Interleaves ss vs ws) (hids : (ss.map Source.id).Nodup) (r : Registry) :
    (r.after ws).sources = r.sources ++ ss.filter fun s => !r.has s.id := by
  -- Sets pass over the sources, and each addition meets what the earlier ones left.
  induction h generalizing r with
  | done => exact (List.append_nil _).symm
  | @add ss vs ws s h ih =>
    obtain ⟨hs, hss⟩ := List.nodup_cons.mp hids
    rw [Registry.after_cons, ih hss, Registry.next_addition]
    cases hid : r.has s.id with
    | true => simp [hid]
    | false =>
      -- The new id is none of those that follow.
      have hrest : (ss.filter fun t =>
          !Registry.has { r with sources := r.sources ++ [s] } t.id) =
            ss.filter fun t => !r.has t.id := by
        refine List.filter_congr fun t ht => ?_
        have hne : s.id ≠ t.id := fun heq => hs (heq ▸ List.mem_map_of_mem ht)
        rw [Registry.has_add, beq_false_of_ne hne, Bool.or_false]
      simp [hid, hrest]
  | @set ss vs ws path v h ih =>
    rw [Registry.after_cons, ih hids, Registry.next_set_eq]
    rfl

/-- Additions leave the overrides to the sets. -/
theorem overrides_after (h : Interleaves ss vs ws) (r : Registry) :
    (r.after ws).overrides = vs.foldl Registry.put r.overrides := by
  -- Additions pass over the overrides.
  induction h generalizing r with
  | done => rfl
  | @add ss vs ws s h ih =>
    rw [Registry.after_cons, ih, Registry.next_addition]
    split <;> rfl
  | @set ss vs ws path v h ih =>
    rw [Registry.after_cons, ih, Registry.next_set_eq]
    rfl

end Interleaves

namespace Registry

variable {ss ss' : List Source} {vs : List (String × Value)} {ws ws' : List Write}

/-- Two orders of the same additions, between the same sets, come to the same merge order and the
same overrides. -/
theorem after_congr (h : Interleaves ss vs ws) (h' : Interleaves ss' vs ws') (hperm : ss.Perm ss')
    (hids : (ss.map Source.id).Nodup) (hpriorities : (ss.map Source.priority).Nodup)
    (r : Registry) :
    (r.after ws').ordered = (r.after ws).ordered ∧
      (r.after ws').overrides = (r.after ws).overrides := by
  have hids' : (ss'.map Source.id).Nodup := (hperm.map Source.id).nodup_iff.mp hids
  refine ⟨?_, by rw [h.overrides_after, h'.overrides_after]⟩
  -- Which ids are taken does not depend on the order, so the same sources are added.
  refine ordered_eq_of_perm (hperm.filter _) ?_ (h.sources_after hids r) (h'.sources_after hids' r)
  exact hpriorities.sublist (List.filter_sublist.map Source.priority)

/-- Two sources are both added exactly if their ids differ and neither is taken, so they may as well
be added the other way round. -/
theorem transcript_additions_iff {r : Registry} {a b : Source} :
    r.transcript [a.addition, b.addition] =
        [(a.addition, .ok true), (b.addition, .ok true)] ↔
      a.id ≠ b.id ∧ r.has a.id = false ∧ r.has b.id = false := by
  simp only [transcript, List.cons.injEq, Prod.mk.injEq, true_and, and_true,
    answer_addition_eq_ok_iff, has_next_addition, Bool.or_eq_false_iff, beq_eq_false_iff_ne]
  -- The second id has to be new after the first addition, too.
  constructor
  · rintro ⟨ha, hb, hne⟩
    exact ⟨hne, ha, hb⟩
  · rintro ⟨hne, ha, hb⟩
    exact ⟨ha, hb, hne⟩

end Registry

namespace Thread

/-- The view and the sources of reachable configurations with the same overrides and the same merge
order. -/
theorem Reachable.congr {t t' : Thread} (h : t.Reachable) (h' : t'.Reachable)
    (hsame : (Registry.empty.after (Log.writes t'.notes)).ordered =
        (Registry.empty.after (Log.writes t.notes)).ordered ∧
      (Registry.empty.after (Log.writes t'.notes)).overrides =
        (Registry.empty.after (Log.writes t.notes)).overrides) :
    t'.config.merged = t.config.merged ∧ t'.config.sources = t.config.sources := by
  obtain ⟨hordered, hoverrides⟩ := hsame
  constructor
  · rw [(h.coherent .start_empty).view, (h'.coherent .start_empty).view, h.registry_eq,
      h'.registry_eq, Registry.merged, Registry.merged, hordered, hoverrides]
  · rw [Config.sources, Config.sources, h.registry_eq, h'.registry_eq, hordered]

/-- Two configurations that come from the same history by adding the same sources, of pairwise
different ids and priorities, and setting the same values in the same order have the same view and
the same sources, whatever the order of the additions and wherever the values are set between them.
In particular two sources of different priorities that were added one after the other might have
been added the other way round. -/
theorem unordered {t t' : Thread} (h : t.Reachable) (h' : t'.Reachable) :
    (∀ (before ws ws' : List Write) (ss ss' : List Source) (vs : List (String × Value)),
      Log.writes t.notes = before ++ ws → Log.writes t'.notes = before ++ ws' →
      Interleaves ss vs ws → Interleaves ss' vs ws' → ss.Perm ss' →
      (ss.map Source.id).Nodup → (ss.map Source.priority).Nodup →
      t'.config.merged = t.config.merged ∧ t'.config.sources = t.config.sources) ∧
    ∀ (before : History) (a b : Source), a.priority ≠ b.priority →
      Log.history t.notes = before ++ [(a.addition, .ok true), (b.addition, .ok true)] →
      Log.writes t'.notes = before.map Prod.fst ++ [b.addition, a.addition] →
      Log.history t'.notes = before ++ [(b.addition, .ok true), (a.addition, .ok true)] ∧
        t'.config.merged = t.config.merged ∧ t'.config.sources = t.config.sources := by
  have hunordered {before ws ws' : List Write} {ss ss' : List Source} {vs : List (String × Value)}
      (hwrites : Log.writes t.notes = before ++ ws) (hwrites' : Log.writes t'.notes = before ++ ws')
      (hws : Interleaves ss vs ws) (hws' : Interleaves ss' vs ws') (hperm : ss.Perm ss')
      (hids : (ss.map Source.id).Nodup) (hpriorities : (ss.map Source.priority).Nodup) :
      t'.config.merged = t.config.merged ∧ t'.config.sources = t.config.sources := by
    refine h.congr h' ?_
    rw [hwrites, hwrites', Registry.after_append, Registry.after_append]
    exact Registry.after_congr hws hws' hperm hids hpriorities _
  refine ⟨fun _ _ _ _ _ _ => hunordered, ?_⟩
  intro before a b hne hhistory hwrites'
  -- The swap of two additions is a case of the first part, with nothing set between them.
  have hwrites : Log.writes t.notes = before.map Prod.fst ++ [a.addition, b.addition] := by
    rw [Log.writes, hhistory, List.map_append]
    rfl
  -- What was told before the two is told again, and both ids were new.
  have htold := h.history_eq
  rw [hwrites, hhistory, Registry.transcript_append] at htold
  obtain ⟨hbefore, hboth⟩ := List.append_inj' htold rfl
  obtain ⟨hids, ha, hb⟩ := Registry.transcript_additions_iff.mp hboth.symm
  constructor
  · rw [h'.history_eq, hwrites', Registry.transcript_append, ← hbefore,
      Registry.transcript_additions_iff.mpr ⟨hids.symm, hb, ha⟩]
  · refine hunordered hwrites hwrites' (.add a (.add b .done)) (.add b (.add a .done))
      (.swap b a []) ?_ ?_
    · simpa using hids
    · simpa using hne

/-- Two sources that are added in both orders, with a value that is set between them or before. -/
theorem unordered_set_between :
    ∃ t t' : Thread, t.Reachable ∧ t'.Reachable ∧
      Log.writes t.notes = [.addSource "a" 1 (.ofList [("x", .int 1)]), .set "y" (.int 3),
        .addSource "b" 2 (.ofList [("x", .int 2)])] ∧
      Log.writes t'.notes = [.set "y" (.int 3), .addSource "b" 2 (.ofList [("x", .int 2)]),
        .addSource "a" 1 (.ofList [("x", .int 1)])] ∧
      t.config.merged.get? "x" = some (.int 2) ∧ t'.config.merged = t.config.merged ∧
      t'.config.sources = t.config.sources := by
  have h₁ := (Reaches.refl : Reachable (start .empty)).perform 5
    (q := .write (.addSource "a" 1 (.ofList [("x", .int 1)]))) rfl trivial
  have h₂ := h₁.perform 5 (q := .write (.set "y" (.int 3))) rfl trivial
  have h := h₂.perform 5 (q := .write (.addSource "b" 2 (.ofList [("x", .int 2)]))) rfl trivial
  have h₁' := (Reaches.refl : Reachable (start .empty)).perform 5
    (q := .write (.set "y" (.int 3))) rfl trivial
  have h₂' := h₁'.perform 5 (q := .write (.addSource "b" 2 (.ofList [("x", .int 2)]))) rfl trivial
  have h' := h₂'.perform 5 (q := .write (.addSource "a" 1 (.ofList [("x", .int 1)]))) rfl trivial
  refine ⟨_, _, h, h', rfl, rfl, rfl, ?_⟩
  -- Both threads made the same three writes, and the two sources changed places.
  exact (unordered h h').1 [] _ _
    [⟨"a", 1, .ofList [("x", .int 1)]⟩, ⟨"b", 2, .ofList [("x", .int 2)]⟩]
    [⟨"b", 2, .ofList [("x", .int 2)]⟩, ⟨"a", 1, .ofList [("x", .int 1)]⟩]
    [("y", .int 3)] rfl rfl
    (.add _ (.set _ _ (.add _ .done))) (.set _ _ (.add _ (.add _ .done)))
    (.swap _ _ []) (by decide) (by decide)

end Thread
end LayeredConfig
