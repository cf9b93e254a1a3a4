import LayeredConfig.Config.Basic
import LayeredConfig.Proofs.Bag.Paths
import LayeredConfig.Proofs.Factory.Keeping

/-!
# Listing and finding definitions

A factory lists the keys that hold bags below its path, but finds a definition by reading the id as
a path once more.  The two agree on the keys that write a single segment.  Other keys are listed and
not found, or something else is found in their place.

## Key results

- `Factory.definition_iff_below`: where the definition of an id is looked for
- `Factory.mem_ids_iff`: which ids are listed
- `Factory.getAll_of_ready`: resources that can be created are got one after the other
- `Factory.addressed`: listing and finding agree on keys of one segment
-/

namespace LayeredConfig.Factory

variable {σ ι : Type} {f : Factory σ ι} {s : σ} {id : String}

/-! ## Listing and finding -/

/-- A definition is looked for in the bag at the path of the factory, along the path that the id
writes. -/
theorem definition_iff_below {base : Path} (h : Path.parse? f.path = some base) {fields : Bag} :
    f.definition id s = .ok fields ↔
      ∃ entries, (f.view s).bag? f.path = some entries ∧ entries.bag? id = some fields := by
  rw [definition_eq_ok_iff, Bag.bag?_join h, Option.bind_eq_some_iff]

/-- The ids are the keys that hold bags. -/
theorem mem_ids_iff : id ∈ f.ids s ↔ ∃ entries fields,
    (f.view s).bag? f.path = some entries ∧ entries.find? id = some (.bag fields) := by
  unfold ids
  cases (f.view s).bag? f.path with
  | none => simp
  | some entries =>
    simp only [List.mem_map, List.mem_filter, Prod.exists, exists_and_right, exists_eq_right,
      Option.some.injEq, Entries.find?_eq_some_iff_mem]
    constructor
    -- Of the kinds of values only bags pass the filter.
    · rintro ⟨v, hmem, hbag⟩
      cases v with
      | bag fields => exact ⟨entries, fields, rfl, hmem⟩
      | _ => exact nomatch hbag
    · rintro ⟨_, fields, rfl, hmem⟩
      exact ⟨_, hmem, rfl⟩

/-- Ids are listed in ascending order. -/
theorem pairwise_lt_ids (f : Factory σ ι) (s : σ) : (f.ids s).Pairwise (· < ·) := by
  unfold ids
  split
  · next entries _ =>
    exact (Entries.pairwise_lt_keys entries).sublist (List.filter_sublist.map Prod.fst)
  · exact .nil

/-- Where all entries are bags, all keys are listed. -/
theorem ids_eq_keys {entries : Bag} (h : (f.view s).bag? f.path = some entries)
    (hbags : ∀ e ∈ entries.toList, e.2.isBag = true) : f.ids s = entries.keys := by
  simp only [ids, h, List.filter_eq_self.mpr hbags]
  rfl

/-! ## Getting all that is defined -/

/-- A definition names a driver whose creator makes the resource, whatever else changes while the
view stays, and leaves the view as it is. -/
def Ready (f : Factory σ ι) (s : σ) (id : String) (fields : Bag) : Prop :=
  ∃ driver creator, fields.string? "driver" = some driver ∧ driver ≠ "" ∧
    f.creators.find? driver = some creator ∧
    ∀ s', f.view s' = f.view s →
      (∃ x, (creator id fields s').result = .ok x) ∧ f.view (creator id fields s').state = f.view s

/-- One resource after the other is there, and the factory keeps them and whatever it kept
before. -/
structure Loads (f : Factory σ ι) (s : σ) (ids : List String) (before : SortedMap String ι)
    (loaded : List (String × ι)) (p : Factory σ ι × σ) : Prop where
  ids : loaded.map Prod.fst = ids
  factory : p.1 = f.keeping p.1.instances
  view : f.view p.2 = f.view s
  kept : ∀ e ∈ loaded, p.1.instances.find? e.1 = some e.2
  still : ∀ i x, before.find? i = some x → p.1.instances.find? i = some x

/-- Such a resource is there as soon as it is asked for. -/
theorem get_of_ready {fields : Bag} {m : SortedMap String ι} {s' : σ}
    (hdefinition : f.definition id s = .ok fields) (hready : f.Ready s id fields)
    (hview : f.view s' = f.view s) :
    ∃ x, (get id (f.keeping m, s')).result = .ok x ∧
      Loads f s [id] m [(id, x)] (get id (f.keeping m, s')).state := by
  obtain ⟨driver, creator, hdriver, hne, hcreator, haccepts⟩ := hready
  obtain ⟨⟨x, hx⟩, hstate⟩ := haccepts s' hview
  -- What is kept plays no part in who is called, and neither do surroundings of the same view.
  have hcreate : (f.keeping m).create id s' = creator id fields s' := by
    have hfields : (f.keeping m).definition id s' = .ok fields := by
      rw [definition_eq_ok_iff] at hdefinition ⊢
      rw [← hdefinition, ← hview]
      rfl
    have hcalled : (f.keeping m).creator id fields = .ok creator := by
      rw [creator_of_string?_ne hdriver hne, keeping, hcreator]
    rw [create_apply, commission_eq_ok_iff.mpr ⟨hfields, hcalled⟩]
  -- It is there either way: kept already, or made by its creator.
  have hget : ∃ x, (get id (f.keeping m, s')).result = .ok x ∧
      f.view (get id (f.keeping m, s')).state.2 = f.view s := by
    cases hkept : (f.keeping m).instances.find? id with
    | some y =>
      rw [get_of_kept hkept]
      exact ⟨y, rfl, hview⟩
    | none =>
      rw [result_get_of_not_kept hkept, around_get_of_not_kept hkept, hcreate]
      exact ⟨x, hx, hstate⟩
  obtain ⟨y, hresult, hafter⟩ := hget
  refine ⟨y, hresult, rfl, ?_, hafter, ?_, fun i z hi => find?_get_of_kept hi⟩
  · rw [factory_get]
    split <;> rfl
  · intro e he
    obtain rfl := List.mem_singleton.mp he
    exact find?_of_get_ok hresult

/-- Resources that can all be created are got one after the other. -/
theorem getAll_of_ready {ids : List String} {m : SortedMap String ι} {s' : σ}
    (h : ∀ id ∈ ids, ∃ fields, f.definition id s = .ok fields ∧ f.Ready s id fields)
    (hview : f.view s' = f.view s) :
    ∃ loaded, (getAll ids (f.keeping m, s')).result = .ok loaded ∧
      Loads f s ids m loaded (getAll ids (f.keeping m, s')).state := by
  induction ids generalizing m s' with
  | nil => exact ⟨[], rfl, rfl, rfl, hview, fun _ he => (nomatch he), fun _ _ h => h⟩
  | cons id rest ih =>
    obtain ⟨fields, hdefinition, hready⟩ := h id List.mem_cons_self
    obtain ⟨x, hresult, hfirst⟩ := get_of_ready (m := m) hdefinition hready hview
    have hall := getAll_cons id rest (f.keeping m, s')
    -- The first one changes what is kept and the surroundings, but not the view.
    generalize get id (f.keeping m, s') = o at hresult hfirst hall
    obtain ⟨result, ⟨g, s''⟩, notes⟩ := o
    obtain ⟨m', rfl⟩ : ∃ m', g = f.keeping m' := ⟨_, hfirst.factory⟩
    obtain ⟨loaded, hloaded, hrest⟩ :=
      ih (m := m') (fun i hi => h i (List.mem_cons_of_mem _ hi)) hfirst.view
    rw [hresult] at hall
    simp only [hloaded, Prod.mk.injEq] at hall
    rw [hall.1, hall.2]
    refine ⟨_, rfl, ?_, hrest.factory, hrest.view, ?_, fun i y hi => ?_⟩
    · rw [List.map_cons, hrest.ids]
    · intro e he
      rcases List.mem_cons.mp he with rfl | he
      · exact hrest.still _ _ (hfirst.kept _ List.mem_cons_self)
      · exact hrest.kept e he
    · exact hrest.still i y (hfirst.still i y hi)

/-! ## Agreement -/

/-- Listing and finding agree on the keys that write a single segment. -/
structure Addressed (f : Factory σ ι) (s : σ) : Prop where
  /-- An id is listed exactly if its definition is found. -/
  agree : ∀ id, Path.Plain id → (id ∈ f.ids s ↔ ∃ fields, f.definition id s = .ok fields)
  /-- What is found is what the bag at the path of the factory holds under the id. -/
  exact : ∀ id fields, Path.Plain id → (f.definition id s = .ok fields ↔
    ∃ entries, (f.view s).bag? f.path = some entries ∧ entries.find? id = some (.bag fields))
  /-- A creator is called with nothing else. -/
  attempted : ∀ id, Path.Plain id → ∀ a ∈ attempts id (f, s),
    a.id = id ∧ f.definition id s = .ok a.fields
  /-- A registered creator is called. -/
  called : ∀ id fields driver creator, f.instances.find? id = none →
    f.definition id s = .ok fields → fields.string? "driver" = some driver → driver ≠ "" →
    f.creators.find? driver = some creator →
    attempts id (f, s) = [⟨id, fields, (creator id fields s).result⟩]
  /-- Where every entry can be created, all are got in ascending order of their keys. -/
  loaded : ∀ entries, (f.view s).bag? f.path = some entries →
    (∀ e ∈ entries.toList, Path.Plain e.1 ∧ ∃ fields, e.2 = .bag fields ∧ f.Ready s e.1 fields) →
    ∃ loaded, (loadAll (f, s)).result = .ok loaded ∧
      loaded.map Prod.fst = entries.keys ∧
      ∀ e ∈ loaded, (loadAll (f, s)).state.1.instances.find? e.1 = some e.2

/-- A key of one segment is looked up as it is. -/
theorem exact_of_plain {base : Path} (hbase : Path.parse? f.path = some base)
    (hid : Path.Plain id) {fields : Bag} : f.definition id s = .ok fields ↔
      ∃ entries, (f.view s).bag? f.path = some entries ∧
        entries.find? id = some (.bag fields) := by
  -- The path that such an id writes is the id itself.
  rw [definition_iff_below hbase]
  simp only [Bag.bag?_of_plain hid, Bag.inner?, Option.bind_eq_some_iff, Value.asBag?_eq_some_iff,
    exists_eq_right]

/-- In every state and for every factory with a path, listing and finding agree on the keys that
write a single segment. -/
theorem addressed {base : Path} (hbase : Path.parse? f.path = some base) (s : σ) :
    Addressed f s where
  agree id hid := by
    simp only [mem_ids_iff, exact_of_plain hbase hid]
    exact exists_comm
  exact id fields hid := exact_of_plain hbase hid
  attempted id _ a ha := by
    -- The only call that can be due carries the definition that was found.
    rw [attempts_eq_due, due] at ha
    split at ha
    · next fields creator _ hcommission =>
      obtain rfl := List.mem_singleton.mp ha
      exact ⟨rfl, (commission_eq_ok_iff.mp hcommission).1⟩
    · exact absurd ha List.not_mem_nil
  called id fields driver creator hkept hdefinition hdriver hne hcreator := by
    have hcommission : f.commission id s = .ok (fields, creator) := by
      rw [commission_eq_ok_iff, creator_of_string?_ne hdriver hne, hcreator]
      exact ⟨hdefinition, rfl⟩
    rw [attempts_eq_due]
    simp only [due, hkept, hcommission]
  loaded entries hentries hall := by
    -- All entries are bags, so all keys are listed.
    have hkeys : f.ids s = entries.keys := by
      refine ids_eq_keys hentries fun e he => ?_
      obtain ⟨-, fields, hbag, -⟩ := hall e he
      rw [hbag]
      rfl
    -- A listed key is that of an entry, whose definition is then found under it.
    have hready : ∀ id ∈ f.ids s,
        ∃ fields, f.definition id s = .ok fields ∧ f.Ready s id fields := by
      intro id hid
      rw [hkeys] at hid
      obtain ⟨e, he, rfl⟩ := List.mem_map.mp hid
      obtain ⟨hplain, fields, hbag, hready⟩ := hall e he
      refine ⟨fields, (exact_of_plain hbase hplain).mpr ⟨entries, hentries, ?_⟩, hready⟩
      rw [Entries.find?_eq_some_iff_mem, ← hbag]
      exact he
    obtain ⟨loaded, hresult, hloads⟩ := getAll_of_ready (m := f.instances) hready rfl
    exact ⟨loaded, hresult, hloads.ids.trans hkeys, hloads.kept⟩

/-! ## Keys that write other paths -/

/-- A factory of greeters that are their own definitions. -/
def greeters : Factory Config Bag where
  kind := "greeter"
  path := "greeters"
  view := Config.merged
  creators := .ofList [("plain", fun _ fields => pure fields)]
  instances := .nil

/-- The definition of a greeter with a number. -/
def greeter (n : Int64) : Bag := .ofList [("driver", .string "plain"), ("n", .int n)]

/-- A configuration in which the given keys hold definitions of greeters. -/
def greeting (entries : List (String × Value)) : Config :=
  (Config.enact (.addSource "s" 0 (.ofList [("greeters", .bag (.ofList entries))])) .empty).state

/-- Two greeters are listed, found and loaded. -/
theorem addressed_greeters :
    let s := greeting [("b", .bag (greeter 2)), ("a", .bag (greeter 1))]
    ∃ loaded, (loadAll (greeters, s)).result = .ok loaded ∧ loaded.map Prod.fst = ["a", "b"] := by
  have hready (s : Config) (id : String) (fields : Bag)
      (hdriver : fields.string? "driver" = some "plain") : Ready greeters s id fields :=
    ⟨"plain", fun _ fields => pure fields, hdriver, by decide, rfl,
      fun s' hview => ⟨⟨_, rfl⟩, hview⟩⟩
  have hbase : Path.parse? greeters.path = some ⟨"greeters", []⟩ := rfl
  have h := addressed hbase (greeting [("b", .bag (greeter 2)), ("a", .bag (greeter 1))])
  obtain ⟨loaded, hresult, hkeys, -⟩ := h.loaded _ rfl (by
    intro e he
    rcases he with _ | ⟨_, _ | ⟨_, he⟩⟩
    · exact ⟨by decide, _, rfl, hready _ _ _ rfl⟩
    · exact ⟨by decide, _, rfl, hready _ _ _ rfl⟩
    · exact nomatch he)
  exact ⟨loaded, hresult, hkeys⟩

/-- A key with a separator in it is listed.  It is found only if its segments lead to a definition,
which is then that of another greeter. -/
theorem ids_astray :
    let s := greeting [("a", .bag (.ofList [("driver", .string "plain"), ("b", .bag (greeter 2))])),
      ("a.b", .bag (greeter 1)), ("c.d", .bag (greeter 3))]
    greeters.ids s = ["a", "a.b", "c.d"] ∧
      greeters.definition "a.b" s = .ok (greeter 2) ∧
      (get "a.b" (greeters, s)).result = .ok (greeter 2) ∧
      greeters.definition "c.d" s = .error (.unknownResource "greeter" "c.d") ∧
      (loadAll (greeters, s)).result = .error (.unknownResource "greeter" "c.d") := by
  exact ⟨rfl, rfl, rfl, rfl, rfl⟩

end LayeredConfig.Factory
