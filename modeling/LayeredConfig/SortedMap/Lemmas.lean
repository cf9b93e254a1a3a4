import LayeredConfig.SortedMap.Basic

/-! # Lookups in sorted maps

What each operation of `Entries` does to the lookup function, and extensionality.

* `Entries.ext`            two maps with equal lookups are equal
* `Entries.find?_insert`   lookups after an insertion
* `Entries.find?_erase`    lookups after a removal
* `Entries.insert_insert`, `insert_comm`, `insert_erase`   what becomes of changes that follow others
* `Entries.find?_eq_some_iff_mem`  lookups see exactly the listed entries
* `Entries.mem_keys_iff`   the keys are those that lookups find
* `Entries.pairwise_keys`  the keys are in strictly ascending order -/

namespace LayeredConfig

namespace Entries

universe u v

variable {κ : Type} [Ord κ] {α : Type u} {β : Type v} {lo : Option κ}

@[simp] theorem find?_nil (k : κ) : (Entries.nil : Entries κ α lo).find? k = none := rfl

/-- A key that is not above the bound is not found. -/
theorem find?_eq_none_of_le [Std.TransOrd κ] {a k : κ} (m : Entries κ α (some a))
    (h : compare k a ≠ .gt) : m.find? k = none := by
  cases m with
  | nil => rfl
  | cons k' v h' rest =>
    have hlt : compare k k' = .lt := by
      cases hc : compare k a with
      | lt => exact Std.TransCmp.lt_trans hc h'
      | eq => exact Std.TransCmp.lt_of_eq_of_lt hc h'
      | gt => exact absurd hc h
    simp [find?, hlt]

theorem find?_relax [Std.TransOrd κ] {a : κ} (h : Above lo a) (m : Entries κ α (some a)) (k : κ) :
    (m.relax h).find? k = m.find? k := by
  cases m <;> rfl

theorem find?_insertAbove [Std.TransOrd κ] (m : Entries κ α lo) (k : κ) (v : α) (h : Above lo k)
    (q : κ) : (m.insertAbove k v h).find? q = if compare q k = .eq then some v else m.find? q := by
  induction m with
  | nil =>
    simp only [insertAbove, find?]
    cases compare q k <;> simp
  | cons k' v' h' rest ih =>
    unfold insertAbove
    split <;> rename_i hc
    · simp only [find?]
      cases hq : compare q k with
      | lt => simp [Std.TransCmp.lt_trans hq hc]
      | eq => simp
      | gt => simp
    · simp only [find?, Std.TransCmp.congr_right hc]
      cases compare q k' <;> simp
    · simp only [find?]
      cases hq : compare q k' with
      | lt =>
        have : compare q k = .lt := Std.TransCmp.lt_trans hq (Std.OrientedCmp.lt_of_gt hc)
        simp [this]
      | eq =>
        have : compare q k = .lt := Std.TransCmp.lt_of_eq_of_lt hq (Std.OrientedCmp.lt_of_gt hc)
        simp [this]
      | gt => exact ih _

/-- After an insertion the key holds the new value and all other lookups are as before. -/
theorem find?_insert [Std.TransOrd κ] [Std.LawfulEqOrd κ] [DecidableEq κ] (m : SortedMap κ α)
    (k : κ) (v : α) (q : κ) : (m.insert k v).find? q = if q = k then some v else m.find? q := by
  rw [insert, find?_insertAbove]
  simp only [Std.LawfulEqCmp.compare_eq_iff_eq]

theorem find?_erase [Std.TransOrd κ] [Std.LawfulEqOrd κ] [DecidableEq κ] (m : Entries κ α lo)
    (k q : κ) : (m.erase k).find? q = if q = k then none else m.find? q := by
  induction m with
  | nil => simp [erase]
  | cons k' v' h' rest ih =>
    unfold erase
    split <;> rename_i hc
    · by_cases hq : q = k
      · subst hq; simp [find?, hc]
      · simp [hq]
    · have hk := Std.LawfulEqCmp.eq_of_compare hc
      subst hk
      rw [find?_relax]
      by_cases hq : q = k
      · subst hq
        simp [find?_eq_none_of_le rest (k := q) (by simp)]
      · simp only [hq, if_false, find?]
        cases hqk : compare q k with
        | lt => exact find?_eq_none_of_le rest (by simp [hqk])
        | eq => exact absurd (Std.LawfulEqCmp.eq_of_compare hqk) hq
        | gt => rfl
    · simp only [find?, ih]
      by_cases hq : q = k
      · subst hq; simp [hc]
      · simp [hq]

/-- Two maps with equal lookups are equal. -/
theorem ext [Std.TransOrd κ] [Std.LawfulEqOrd κ] {m n : Entries κ α lo}
    (h : ∀ k, m.find? k = n.find? k) : m = n := by
  induction m with
  | nil =>
    cases n with
    | nil => rfl
    | cons k v _ rest => simpa [find?] using h k
  | cons k v hk rest ih =>
    cases n with
    | nil => simpa [find?] using h k
    | cons k' v' hk' rest' =>
      have hkk : k = k' := by
        cases hc : compare k k' with
        | lt => simpa [find?, hc] using h k
        | eq => exact Std.LawfulEqCmp.eq_of_compare hc
        | gt => simpa [find?, Std.OrientedCmp.lt_of_gt hc] using (h k').symm
      subst hkk
      have hv : v = v' := by simpa [find?] using h k
      subst hv
      congr
      apply ih
      intro q
      cases hq : compare q k with
      | gt => simpa [find?, hq] using h q
      | lt => rw [find?_eq_none_of_le rest (by simp [hq]), find?_eq_none_of_le rest' (by simp [hq])]
      | eq => rw [find?_eq_none_of_le rest (by simp [hq]), find?_eq_none_of_le rest' (by simp [hq])]

/-! ## Changes after changes -/

section

variable [Std.TransOrd κ] [Std.LawfulEqOrd κ] [DecidableEq κ]

/-- Of two insertions at one key the later counts. -/
theorem insert_insert (m : SortedMap κ α) (k : κ) (v w : α) :
    (m.insert k v).insert k w = m.insert k w := by
  apply ext
  intro q
  simp only [find?_insert]
  split <;> rfl

/-- Insertions at different keys may change places. -/
theorem insert_comm (m : SortedMap κ α) {k l : κ} (h : k ≠ l) (v w : α) :
    (m.insert k v).insert l w = (m.insert l w).insert k v := by
  apply ext
  intro q
  simp only [find?_insert]
  by_cases hk : q = k
  · simp [hk, h]
  · simp [hk]

/-- To drop an entry before it is replaced makes no difference. -/
theorem insert_erase (m : SortedMap κ α) (k : κ) (v : α) :
    (m.erase k).insert k v = m.insert k v := by
  apply ext
  intro q
  simp only [find?_insert, find?_erase]
  split <;> rfl

/-- To insert what is there changes nothing. -/
theorem insert_eq_self {m : SortedMap κ α} {k : κ} {v : α} (h : m.find? k = some v) :
    m.insert k v = m := by
  apply ext
  intro q
  rw [find?_insert]
  by_cases hq : q = k
  · rw [if_pos hq, hq, h]
  · rw [if_neg hq]

/-- To drop what is not there changes nothing. -/
theorem erase_eq_self {m : SortedMap κ α} {k : κ} (h : m.find? k = none) : m.erase k = m := by
  apply ext
  intro q
  rw [find?_erase]
  by_cases hq : q = k
  · rw [if_pos hq, hq, h]
  · rw [if_neg hq]

end

/-! ## Listed entries -/

/-- The listed keys lie above the bound. -/
theorem above_of_mem [Std.TransOrd κ] {m : Entries κ α lo} {k : κ} {v : α}
    (h : (k, v) ∈ m.toList) : Above lo k := by
  induction m with
  | nil => simp [toList] at h
  | cons k' v' h' rest ih =>
    simp only [toList, List.mem_cons, Prod.mk.injEq] at h
    rcases h with ⟨rfl, rfl⟩ | h
    · exact h'
    · exact h'.trans (ih h)

/-- A lookup finds exactly the entries that are listed. -/
theorem find?_eq_some_iff_mem [Std.TransOrd κ] [Std.LawfulEqOrd κ] {m : Entries κ α lo} {k : κ}
    {v : α} : m.find? k = some v ↔ (k, v) ∈ m.toList := by
  induction m with
  | nil => simp [toList]
  | cons k' v' h' rest ih =>
    simp only [find?, toList, List.mem_cons, Prod.mk.injEq]
    -- The key is below the first one, equal to it, or above it.
    cases hc : compare k k' with
    | lt =>
      have hne : k ≠ k' := by
        rintro rfl
        simp at hc
      have hmem : (k, v) ∉ rest.toList := by
        intro h
        have hk : compare k' k = .lt := above_of_mem h
        have hkk : compare k k = .lt := Std.TransCmp.lt_trans hc hk
        simp at hkk
      simp [hne, hmem]
    | eq =>
      have hk := Std.LawfulEqCmp.eq_of_compare hc
      subst hk
      have hmem : (k, v) ∉ rest.toList := by
        intro h
        have hkk : compare k k = .lt := above_of_mem h
        simp at hkk
      simp [hmem, eq_comm]
    | gt =>
      have hne : k ≠ k' := by
        rintro rfl
        simp at hc
      simp [hne, ih]

/-- The keys are those that lookups find. -/
theorem mem_keys_iff [Std.TransOrd κ] [Std.LawfulEqOrd κ] {m : Entries κ α lo} {k : κ} :
    k ∈ m.keys ↔ (m.find? k).isSome := by
  simp only [keys, List.mem_map, Prod.exists, exists_and_right, exists_eq_right,
    Option.isSome_iff_exists, find?_eq_some_iff_mem]

/-- The keys are in strictly ascending order. -/
theorem pairwise_keys [Std.TransOrd κ] (m : Entries κ α lo) :
    m.keys.Pairwise fun a b => compare a b = .lt := by
  induction m with
  | nil => exact .nil
  | cons k v h rest ih =>
    refine List.pairwise_cons.mpr ⟨?_, ih⟩
    intro k' hk'
    obtain ⟨⟨_, v'⟩, hmem, rfl⟩ := List.mem_map.mp hk'
    exact above_of_mem hmem

theorem pairwise_lt_keys (m : SortedMap String α) : m.keys.Pairwise (· < ·) :=
  m.pairwise_keys.imp fun h => compareOfLessAndEq_eq_lt.mp h

theorem nodup_keys [Std.TransOrd κ] [Std.LawfulEqOrd κ] (m : Entries κ α lo) : m.keys.Nodup := by
  refine (pairwise_keys m).imp ?_
  rintro a b h rfl
  simp at h

theorem eq_nil_of_isEmpty {m : Entries κ α lo} (h : m.isEmpty = true) : m = .nil := by
  cases m with
  | nil => rfl
  | cons k v above rest => exact nomatch h

theorem find?_map (f : α → β) (m : Entries κ α lo) (k : κ) :
    (m.map f).find? k = (m.find? k).map f := by
  induction m with
  | nil => rfl
  | cons k' v h rest ih =>
    simp only [map, find?]
    cases compare k k' <;> simp [ih]

theorem map_insert [Std.TransOrd κ] [Std.LawfulEqOrd κ] [DecidableEq κ] (f : α → β)
    (m : SortedMap κ α) (k : κ) (v : α) : (m.insert k v).map f = (m.map f).insert k (f v) := by
  refine ext fun i => ?_
  rw [find?_map, find?_insert, find?_insert, find?_map]
  split <;> rfl

end Entries
end LayeredConfig
