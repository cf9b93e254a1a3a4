import LayeredConfig.Factory.Basic
import LayeredConfig.SortedMap.Lemmas

/-!
# What getting a resource does

A resource that is kept is handed out, and nothing else happens.  For any other the factory looks
for its definition, for the name of a driver in it and for the creator of that name, and calls it.

## Key results

- `Factory.get_of_kept` and `Factory.get_of_not_kept`: what a `get` does
- `Factory.factory_of_get_error`: a `get` that fails leaves the factory as it is
- `Factory.verdict_get`: what becomes of a resource that is not kept, and why
- `Factory.Verdict.ok_iff`: when there is one
-/

namespace LayeredConfig

namespace Definition

/-- A string that is not empty counts. -/
theorem nonEmpty?_of_ne {b : Bag} {path s : String} (h : b.string? path = some s) (hs : s ≠ "") :
    nonEmpty? b path = some s := by
  simp [nonEmpty?, h, Option.filter, hs]

/-- An empty string counts as none. -/
theorem nonEmpty?_of_forall_eq {b : Bag} {path : String}
    (h : ∀ s, b.string? path = some s → s = "") : nonEmpty? b path = none := by
  rw [nonEmpty?, Option.filter_eq_none_iff]
  intro s hs
  simp [h s hs]

/-- A required field is its string. -/
theorem requireString_of_ne {d : Definition} {field s : String}
    (h : d.fields.string? field = some s) (hs : s ≠ "") : d.requireString field = .ok s := by
  simp only [requireString, nonEmpty?_of_ne h hs]

/-- Without a required field the failure names the definition and the field. -/
theorem requireString_of_forall_eq {d : Definition} {field : String}
    (h : ∀ s, d.fields.string? field = some s → s = "") :
    d.requireString field = .error (.invalidConfig d.id field) := by
  simp only [requireString, nonEmpty?_of_forall_eq h, invalid]

/-- A path holds a string that is not empty, or none. -/
theorem string?_cases (b : Bag) (path : String) :
    (∃ s, b.string? path = some s ∧ s ≠ "") ∨ ∀ s, b.string? path = some s → s = "" := by
  by_cases h : ∃ s, b.string? path = some s ∧ s ≠ ""
  · exact .inl h
  · exact .inr fun s hs => Decidable.byContradiction fun hne => h ⟨s, hs, hne⟩

end Definition

namespace Factory

variable {σ ι : Type} {f : Factory σ ι} {s : σ} {id : String}

/-- The factory with other resources in it. -/
def keeping (f : Factory σ ι) (m : SortedMap String ι) : Factory σ ι := { f with instances := m }

/-! ## Creating a resource -/

/-- The fields of a definition, with the creator that is called for them. -/
def commission (f : Factory σ ι) (id : String) (s : σ) : Except Error (Bag × Creator σ ι) :=
  match f.definition id s with
  | .error e => .error e
  | .ok fields =>
    match f.creator id fields with
    | .error e => .error e
    | .ok creator => .ok (fields, creator)

/-- To create a resource is to call its creator, if there is one to be called. -/
theorem create_apply (f : Factory σ ι) (id : String) (s : σ) :
    f.create id s = match f.commission id s with
      | .error e => ⟨.error e, s, []⟩
      | .ok (fields, creator) => creator id fields s := by
  -- To look at the view at first leaves nothing behind.
  have hcurrent : f.create id s = ((do
      let fields ← Act.ofExcept (f.definition id s)
      let creator ← Act.ofExcept (f.creator id fields)
      creator id fields : Act σ ι) s).after [] := rfl
  rw [hcurrent, commission]
  cases f.definition id s with
  | error e => rfl
  | ok fields =>
    simp only [Act.ofExcept, pure_bind]
    cases f.creator id fields <;> rfl

/-- There is a creator to be called if there is a definition and it names a registered driver. -/
theorem commission_eq_ok_iff {fields : Bag} {creator : Creator σ ι} :
    f.commission id s = .ok (fields, creator) ↔
      f.definition id s = .ok fields ∧ f.creator id fields = .ok creator := by
  unfold commission
  cases f.definition id s with
  | error e => simp
  | ok found =>
    simp only [Except.ok.injEq]
    constructor
    -- The fields in the answer are those that were found, so both parts are read off it.
    · intro h
      cases hcreator : f.creator id found with
      | error e => simp [hcreator] at h
      | ok c =>
        simp only [hcreator, Except.ok.injEq, Prod.mk.injEq] at h
        obtain ⟨rfl, rfl⟩ := h
        exact ⟨rfl, hcreator⟩
    · rintro ⟨rfl, hcreator⟩
      simp only [hcreator]

/-! ## Getting a resource -/

/-- A resource that is kept is handed out. -/
theorem get_of_kept {x : ι} (h : f.instances.find? id = some x) (s : σ) :
    get id (f, s) = ⟨.ok x, (f, s), []⟩ := by
  simp only [get, Act.bind_apply, Act.current, h]
  rfl

/-- Any other resource is created, and kept if that goes well. -/
theorem get_of_not_kept (h : f.instances.find? id = none) (s : σ) :
    get id (f, s) = match f.create id s with
      | ⟨.ok x, s', notes⟩ =>
        ⟨.ok x, ({ f with instances := f.instances.insert id x }, s'),
          notes ++ [.event ⟨.debug, "resource created", [("kind", f.kind), ("id", id)]⟩]⟩
      | ⟨.error e, s', notes⟩ =>
        ⟨.error e, (f, s'),
          notes ++ [.event ⟨.warn, "resource construction failed",
            [("kind", f.kind), ("id", id), ("error", e.message)]⟩]⟩ := by
  simp only [get, Act.bind_apply, Act.current, h, Act.attempt, Act.within]
  -- What the creator did to the surroundings stays, whether it failed or not.
  rcases f.create id s with ⟨_ | _, s', notes⟩ <;> rfl

/-- The factory after a `get` whose result is known. -/
theorem factory_get (f : Factory σ ι) (s : σ) (id : String) :
    (get id (f, s)).state.1 = match f.instances.find? id, (get id (f, s)).result with
      | none, .ok x => { f with instances := f.instances.insert id x }
      | _, _ => f := by
  cases h : f.instances.find? id with
  | some x => rw [get_of_kept h]
  | none =>
    rw [get_of_not_kept h]
    rcases f.create id s with ⟨_ | _, s', notes⟩ <;> rfl

/-- To get a resource changes nothing of a factory but what it keeps. -/
theorem factory_get_eq_keeping (f : Factory σ ι) (s : σ) (id : String) :
    ∃ m, (get id (f, s)).state.1 = f.keeping m := by
  rw [factory_get]
  split
  · exact ⟨_, rfl⟩
  · exact ⟨_, rfl⟩

/-- A `get` that fails leaves the factory as it is. -/
theorem factory_of_get_error {e : Error} (h : (get id (f, s)).result = .error e) :
    (get id (f, s)).state.1 = f := by
  rw [factory_get, h]
  cases f.instances.find? id <;> rfl

/-- What `get` hands out is kept from then on. -/
theorem find?_of_get_ok {x : ι} (h : (get id (f, s)).result = .ok x) :
    (get id (f, s)).state.1.instances.find? id = some x := by
  rw [factory_get, h]
  cases hkept : f.instances.find? id with
  | none => exact (Entries.find?_insert _ _ _ _).trans (if_pos rfl)
  -- It was kept before, and is handed out as it is.
  | some y =>
    rw [get_of_kept hkept] at h
    rw [hkept]
    exact congrArg some (Except.ok.inj h)

/-- What is kept stays, whatever is got. -/
theorem find?_get_of_kept {i : String} {x : ι} (h : f.instances.find? i = some x) :
    (get id (f, s)).state.1.instances.find? i = some x := by
  rw [factory_get]
  split
  -- The one that is new was not kept before, so it is another one.
  · next hnone _ =>
    have hne : i ≠ id := by
      rintro rfl
      exact nomatch hnone.symm.trans h
    exact (Entries.find?_insert _ _ _ _).trans ((if_neg hne).trans h)
  · exact h

/-- Nothing else is kept in addition, whatever is got. -/
theorem find?_get_of_ne {i : String} (hne : i ≠ id) :
    (get id (f, s)).state.1.instances.find? i = f.instances.find? i := by
  rw [factory_get]
  split
  · exact (Entries.find?_insert _ _ _ _).trans (if_neg hne)
  · rfl

/-! ## What becomes of a resource -/

/-- What becomes of a resource that is to be created, and why.  What comes first is told first. -/
inductive Verdict (f : Factory σ ι) (s : σ) (id : String) : Except Error ι → Prop
  /-- The view has no bag that defines the resource. -/
  | undefined (hfields : (f.view s).bag? (Path.join f.path id) = none) :
      Verdict f s id (.error (.unknownResource f.kind id))
  /-- The definition names no driver. -/
  | driverless {fields : Bag} (hfields : (f.view s).bag? (Path.join f.path id) = some fields)
      (hdriver : ∀ driver, fields.string? "driver" = some driver → driver = "") :
      Verdict f s id (.error (.invalidConfig id "driver"))
  /-- There is no such driver. -/
  | unregistered {fields : Bag} {driver : String}
      (hfields : (f.view s).bag? (Path.join f.path id) = some fields)
      (hdriver : fields.string? "driver" = some driver) (hne : driver ≠ "")
      (hcreator : f.creators.find? driver = none) :
      Verdict f s id
        (.error ((Error.unknownResource (f.kind ++ " driver") driver).withContext "resource" id))
  /-- The creator was called. -/
  | called {fields : Bag} {driver : String} {creator : Creator σ ι}
      (hfields : (f.view s).bag? (Path.join f.path id) = some fields)
      (hdriver : fields.string? "driver" = some driver) (hne : driver ≠ "")
      (hcreator : f.creators.find? driver = some creator) :
      Verdict f s id (creator id fields s).result

/-- Without a bag at its path a resource is unknown. -/
theorem definition_of_bag?_eq_none (h : (f.view s).bag? (Path.join f.path id) = none) :
    f.definition id s = .error (.unknownResource f.kind id) := by
  simp only [definition, h]

/-- A resource with a bag at its path has that bag as its definition. -/
theorem definition_eq_ok_iff {fields : Bag} :
    f.definition id s = .ok fields ↔ (f.view s).bag? (Path.join f.path id) = some fields := by
  unfold definition
  cases (f.view s).bag? (Path.join f.path id) <;> simp

/-- The driver that is named is looked for among those that are registered. -/
theorem creator_of_string?_ne {fields : Bag} {driver : String}
    (hdriver : fields.string? "driver" = some driver) (hne : driver ≠ "") :
    f.creator id fields = match f.creators.find? driver with
      | some creator => .ok creator
      | none => .error
        ((Error.unknownResource (f.kind ++ " driver") driver).withContext "resource" id) := by
  have hrequired : Definition.requireString ⟨id, fields, none⟩ "driver" = .ok driver :=
    Definition.requireString_of_ne hdriver hne
  rw [creator, hrequired]
  rfl

/-- Without the name of a driver nobody is looked for. -/
theorem creator_of_forall_eq {fields : Bag}
    (hdriver : ∀ driver, fields.string? "driver" = some driver → driver = "") :
    f.creator id fields = .error (.invalidConfig id "driver") := by
  have hrequired : Definition.requireString ⟨id, fields, none⟩ "driver" =
      .error (.invalidConfig id "driver") := Definition.requireString_of_forall_eq hdriver
  rw [creator, hrequired]
  rfl

/-- Creating a resource comes to what `Verdict` tells. -/
theorem verdict_create (f : Factory σ ι) (s : σ) (id : String) :
    Verdict f s id (f.create id s).result := by
  rw [create_apply, commission]
  -- The cases are in the order in which things are looked for: definition, name of the driver,
  -- creator.
  cases hfields : (f.view s).bag? (Path.join f.path id) with
  | none =>
    rw [definition_of_bag?_eq_none hfields]
    exact .undefined hfields
  | some fields =>
    rw [definition_eq_ok_iff.mpr hfields]
    rcases Definition.string?_cases fields "driver" with ⟨driver, hdriver, hne⟩ | hdriver
    · simp only [creator_of_string?_ne hdriver hne]
      cases hcreator : f.creators.find? driver with
      | none => exact .unregistered hfields hdriver hne hcreator
      | some creator => exact .called hfields hdriver hne hcreator
    · simp only [creator_of_forall_eq hdriver]
      exact .driverless hfields hdriver

/-- A resource that is not kept is the one that is created. -/
theorem result_get_of_not_kept (h : f.instances.find? id = none) (s : σ) :
    (get id (f, s)).result = (f.create id s).result := by
  rw [get_of_not_kept h]
  rcases f.create id s with ⟨_ | _, s', notes⟩ <;> rfl

/-- What its creator makes of the surroundings is all that changes in them. -/
theorem around_get_of_not_kept (h : f.instances.find? id = none) (s : σ) :
    (get id (f, s)).state.2 = (f.create id s).state := by
  rw [get_of_not_kept h]
  rcases f.create id s with ⟨_ | _, s', notes⟩ <;> rfl

/-- What becomes of a resource that is not kept. -/
theorem verdict_get (h : f.instances.find? id = none) (s : σ) :
    Verdict f s id (get id (f, s)).result := by
  rw [result_get_of_not_kept h]
  exact verdict_create f s id

/-- There is a resource exactly if a definition names a driver whose creator makes one. -/
theorem Verdict.ok_iff {r : Except Error ι} (h : Verdict f s id r) (x : ι) :
    r = .ok x ↔ ∃ fields driver creator, (f.view s).bag? (Path.join f.path id) = some fields ∧
      fields.string? "driver" = some driver ∧ driver ≠ "" ∧
      f.creators.find? driver = some creator ∧ (creator id fields s).result = .ok x := by
  cases h with
  | undefined hfields => simp [hfields]
  | driverless hfields hdriver =>
    simp only [reduceCtorEq, hfields, Option.some.injEq, false_iff]
    -- The driver would have to be named by a string that is not empty.
    rintro ⟨_, driver, _, rfl, hsome, hne, -⟩
    exact hne (hdriver driver hsome)
  | unregistered hfields hdriver hne hcreator => simp [hfields, hdriver, hcreator]
  | called hfields hdriver hne hcreator => simp [hfields, hdriver, hne, hcreator]

end Factory
end LayeredConfig
