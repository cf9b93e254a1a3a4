import LayeredConfig.Proofs.Factory.Get

/-!
# What a factory keeps

All that happens at a factory, in order: resources are stored, creators are called, and resources
are asked for.  What the factory keeps can be told from this alone.

The calls of creators are those that the creators themselves would write down, if they could.  So
each creator is replaced by one that does the same and writes down its calls in a list that nobody
reads, and the factory with these is watched.  The whole run can be repeated there, and what is
written down in it are just the calls that are told.

## Key results

- `Factory.get_watched`: to watch creators changes nothing else
- `Factory.serveAll_watching`: the calls that are written down in a run
- `Factory.exists_factory_serve`: what demands leave of a factory
- `Factory.sound_happenings`: what one demand adds to what happened
- `Factory.sound_history`: what happens in a run
- `Factory.keeps_of_history`: what a factory promises about the resources that it keeps
-/

namespace LayeredConfig

/-! ## Watching creators -/

/-- A call of a creator: for which resource, with which fields, and what came of it. -/
structure Attempt (ι : Type) where
  id : String
  fields : Bag
  outcome : Except Error ι

/-- Surroundings in which the calls of creators are written down. -/
structure Watched (σ ι : Type) where
  around : σ
  attempts : List (Attempt ι)

variable {σ ι : Type}

/-- The creator that does the same and writes it down. -/
def Creator.watched (creator : Creator σ ι) : Creator (Watched σ ι) ι := fun id fields w =>
  let o := creator id fields w.around
  ⟨o.result, ⟨o.state, w.attempts ++ [⟨id, fields, o.result⟩]⟩, o.notes⟩

namespace Factory

/-- The factory in which all creators write down their calls. -/
def watched (f : Factory σ ι) : Factory (Watched σ ι) ι where
  kind := f.kind
  path := f.path
  view w := f.view w.around
  creators := f.creators.map Creator.watched
  instances := f.instances

variable {f : Factory σ ι} {s : σ} {id : String}

/-- The calls of creators in the course of a `get`. -/
def attempts (id : String) (p : Factory σ ι × σ) : List (Attempt ι) :=
  (get id (p.1.watched, ⟨p.2, []⟩)).state.2.attempts

/-- The watched factory looks for the same creator as before, and finds it watched. -/
theorem creator_watched (f : Factory σ ι) (id : String) (fields : Bag) :
    f.watched.creator id fields = (f.creator id fields).map Creator.watched := by
  have hfind (driver : String) :
      f.watched.creators.find? driver = (f.creators.find? driver).map Creator.watched :=
    Entries.find?_map Creator.watched f.creators driver
  -- A driver that is not named fails before any creator is looked for.
  rcases Definition.string?_cases fields "driver" with ⟨driver, hdriver, hne⟩ | hdriver
  · rw [creator_of_string?_ne hdriver hne, creator_of_string?_ne hdriver hne, hfind]
    cases f.creators.find? driver <;> rfl
  · rw [creator_of_forall_eq hdriver, creator_of_forall_eq hdriver]
    rfl

/-- Neither the definition nor the driver depends on being watched. -/
theorem commission_watched (f : Factory σ ι) (id : String) (w : Watched σ ι) :
    f.watched.commission id w =
      (f.commission id w.around).map fun c => (c.1, Creator.watched c.2) := by
  -- The view of the watched factory is that of the surroundings.
  have hdefinition : f.watched.definition id w = f.definition id w.around := rfl
  rw [commission, commission, hdefinition]
  cases f.definition id w.around with
  | error e => rfl
  | ok fields =>
    simp only [creator_watched]
    cases f.creator id fields <;> rfl

/-- The calls in the course of a `get`: none if the resource is kept, and else one if there is a
creator to be called. -/
def due (f : Factory σ ι) (id : String) (s : σ) : List (Attempt ι) :=
  match f.instances.find? id, f.commission id s with
  | none, .ok (fields, creator) => [⟨id, fields, (creator id fields s).result⟩]
  | _, _ => []

/-- To watch creators changes nothing else. -/
theorem get_watched (f : Factory σ ι) (id : String) (w : Watched σ ι) :
    get id (f.watched, w) =
      ⟨(get id (f, w.around)).result,
        ((get id (f, w.around)).state.1.watched,
          ⟨(get id (f, w.around)).state.2, w.attempts ++ f.due id w.around⟩),
        (get id (f, w.around)).notes⟩ := by
  -- Only a resource that is not kept can lead to a call.
  cases hkept : f.instances.find? id with
  | some x =>
    have hwatched : f.watched.instances.find? id = some x := hkept
    rw [get_of_kept hkept, get_of_kept hwatched]
    simp [due, hkept]
  | none =>
    have hwatched : f.watched.instances.find? id = none := hkept
    rw [get_of_not_kept hkept, get_of_not_kept hwatched, create_apply, create_apply,
      commission_watched]
    cases hc : f.commission id w.around with
    | error e => simp [due, hkept, hc, Except.map, watched]
    | ok c =>
      obtain ⟨fields, creator⟩ := c
      simp only [due, hkept, hc, Except.map, Creator.watched]
      -- Whether the call fails or not, it is written down.
      rcases creator id fields w.around with ⟨_ | _, s', notes⟩ <;> rfl

/-- What is written down in a `get` is just the call that is due. -/
theorem attempts_eq_due (id : String) (f : Factory σ ι) (s : σ) :
    attempts id (f, s) = f.due id s := by
  rw [attempts, get_watched]
  exact List.nil_append _

/-- The watched factory, where some calls are written down already. -/
def watching (p : Factory σ ι × σ) (before : List (Attempt ι)) :
    Factory (Watched σ ι) ι × Watched σ ι := (p.1.watched, ⟨p.2, before⟩)

/-- A `get` writes down its calls behind the earlier ones. -/
theorem get_watching (id : String) (p : Factory σ ι × σ) (before : List (Attempt ι)) :
    (get id (watching p before)).result = (get id p).result ∧
      (get id (watching p before)).state =
        watching (get id p).state (before ++ attempts id p) := by
  rw [watching, get_watched, ← attempts_eq_due]
  exact ⟨rfl, rfl⟩

/-- A creator that is registered is watched like the others. -/
theorem register_watched (f : Factory σ ι) (driver : String) (creator : Creator σ ι) :
    (register driver creator.watched f.watched).state =
      ((register driver creator f).state).watched := by
  have hcreators := Entries.map_insert Creator.watched f.creators driver creator
  exact congrArg (fun creators => { f.watched with creators }) hcreators.symm

/-! ## What happens -/

/-- What happens at a factory. -/
inductive Happening (ι : Type)
  | stored (id : String) (resource : ι)
  | attempted (a : Attempt ι)
  | got (id : String) (result : Except Error ι)

/-- What is asked of a factory, or happens around it. -/
inductive Demand (σ ι : Type)
  | register (driver : String) (creator : Creator σ ι)
  | store (id : String) (resource : ι)
  | get (id : String)
  | loadAll
  /-- Whatever is done to the surroundings, such as a write to the configuration. -/
  | disturb (x : Act σ Unit)

namespace Demand

/-- The same demand of the watched factory. -/
def watched : Demand σ ι → Demand (Watched σ ι) ι
  | .register driver creator => .register driver creator.watched
  | .store id resource => .store id resource
  | .get id => .get id
  | .loadAll => .loadAll
  | .disturb x => .disturb (x.within Watched.around fun s w => { w with around := s })

/-- The creator that a demand registers for a driver. -/
def registers? (driver : String) : Demand σ ι → Option (Creator σ ι)
  | .register name creator => if driver = name then some creator else none
  | _ => none

end Demand

/-- The creator that was registered last for a driver. -/
def registered (driver : String) (ds : List (Demand σ ι)) : Option (Creator σ ι) :=
  ds.reverse.findSome? (Demand.registers? driver)

/-- A creator that is registered later comes before an earlier one. -/
theorem registered_cons (driver : String) (d : Demand σ ι) (ds : List (Demand σ ι)) :
    registered driver (d :: ds) = (registered driver ds).or (d.registers? driver) := by
  rw [registered, List.reverse_cons, List.findSome?_append, List.findSome?_singleton]
  rfl

/-- What happens in the course of a `get`. -/
def getting (id : String) (p : Factory σ ι × σ) : List (Happening ι) :=
  (attempts id p).map .attempted ++ [.got id (get id p).result]

/-- What happens while resources are got, up to the first failure. -/
def gettingAll : List String → Factory σ ι × σ → List (Happening ι)
  | [], _ => []
  | id :: rest, p =>
    getting id p ++ match (get id p).result with
      | .ok _ => gettingAll rest (get id p).state
      | .error _ => []

/-- What happens in the course of a demand. -/
def happenings (p : Factory σ ι × σ) : Demand σ ι → List (Happening ι)
  | .register _ _ => []
  | .store id resource => [.stored id resource]
  | .get id => getting id p
  | .loadAll => gettingAll (p.1.ids p.2) p
  | .disturb _ => []

/-- What a demand leaves behind. -/
def serve (p : Factory σ ι × σ) : Demand σ ι → Factory σ ι × σ
  | .register driver creator => ((register driver creator p.1).state, p.2)
  | .store id resource => ((store id resource p.1).state, p.2)
  | .get id => (get id p).state
  | .loadAll => (loadAll p).state
  | .disturb x => (p.1, (x p.2).state)

/-- What demands leave behind, one after the other. -/
def serveAll (p : Factory σ ι × σ) (ds : List (Demand σ ι)) : Factory σ ι × σ := ds.foldl serve p

/-- What happens in the course of demands. -/
def history (p : Factory σ ι × σ) : List (Demand σ ι) → List (Happening ι)
  | [] => []
  | d :: ds => happenings p d ++ history (serve p d) ds

/-! ## Calls that are written down -/

/-- The call of a creator. -/
def Happening.attempt? : Happening ι → Option (Attempt ι)
  | .attempted a => some a
  | _ => none

/-- The calls of creators among all that happened. -/
def called (h : List (Happening ι)) : List (Attempt ι) := h.filterMap Happening.attempt?

/-- Calls are told in the order in which they happened. -/
theorem called_append (a b : List (Happening ι)) : called (a ++ b) = called a ++ called b :=
  List.filterMap_append

/-- The end of a `get` is no call, so its calls are all that is told before it. -/
theorem called_getting (id : String) (p : Factory σ ι × σ) :
    called (getting id p) = attempts id p := by
  have hattempted (as : List (Attempt ι)) : called (as.map .attempted) = as := by
    induction as with
    | nil => rfl
    | cons a as ih => exact congrArg (a :: ·) ih
  rw [getting, called_append, hattempted]
  exact List.append_nil _

/-- The first resource is got, and the others if that goes well. -/
theorem getAll_cons (id : String) (rest : List String) (p : Factory σ ι × σ) :
    ((getAll (id :: rest) p).result, (getAll (id :: rest) p).state) =
      match (get id p).result with
      | .ok x =>
        ((getAll rest (get id p).state).result.map ((id, x) :: ·),
          (getAll rest (get id p).state).state)
      | .error e => (.error e, (get id p).state) := by
  rw [getAll, Act.bind_apply]
  rcases get id p with ⟨e | x, p', notes⟩
  · rfl
  · simp only [Outcome.after, Act.bind_apply]
    -- A later failure takes the resources before it out of the answer, not out of the factory.
    rcases getAll rest p' with ⟨e | l, p'', notes'⟩ <;> rfl

/-- To get resources one after the other writes down the calls that are told of it. -/
theorem getAll_watching (ids : List String) (p : Factory σ ι × σ) (before : List (Attempt ι)) :
    (getAll ids (watching p before)).result = (getAll ids p).result ∧
      (getAll ids (watching p before)).state =
        watching (getAll ids p).state (before ++ called (gettingAll ids p)) := by
  induction ids generalizing p before with
  | nil => exact ⟨rfl, congrArg (watching p) (List.append_nil before).symm⟩
  | cons id rest ih =>
    have hall := getAll_cons id rest p
    have hwatched := getAll_cons id rest (watching p before)
    -- One step of the watched run: the same answer, and its calls behind the earlier ones.
    obtain ⟨hresult, hstate⟩ := get_watching id p before
    rw [hresult, hstate] at hwatched
    rw [gettingAll, called_append, called_getting]
    cases hget : (get id p).result with
    | error e =>
      simp only [hget, Prod.mk.injEq] at hall hwatched
      rw [hwatched.1, hwatched.2, hall.1, hall.2]
      exact ⟨rfl, congrArg (watching _) (congrArg (before ++ ·) (List.append_nil _).symm)⟩
    | ok x =>
      -- The others have their turns after the calls for the first.
      obtain ⟨hrest, hleft⟩ := ih (get id p).state (before ++ attempts id p)
      simp only [hget, Prod.mk.injEq] at hall hwatched
      rw [hwatched.1, hwatched.2, hall.1, hall.2, hrest, hleft, List.append_assoc]
      exact ⟨rfl, rfl⟩

/-- Whatever the demand, the calls that are written down are those that are told. -/
theorem serve_watching (p : Factory σ ι × σ) (before : List (Attempt ι)) (d : Demand σ ι) :
    serve (watching p before) d.watched = watching (serve p d) (before ++ called (happenings p d)) := by
  -- Only getting calls anybody, so in the other cases nothing is written down.
  cases d with
  | register driver creator =>
    rw [happenings, called, List.filterMap_nil, List.append_nil]
    exact congrArg (·, _) (register_watched p.1 driver creator)
  | store id resource =>
    rw [happenings, called, List.filterMap_cons_none rfl, List.filterMap_nil, List.append_nil]
    rfl
  | get id =>
    rw [happenings, called_getting]
    exact (get_watching id p before).2
  -- The ids are those of the view, which is the same under watch.
  | loadAll => exact (getAll_watching (p.1.ids p.2) p before).2
  | disturb x =>
    rw [happenings, called, List.filterMap_nil, List.append_nil]
    rfl

/-- A run of the watched factory is the same run, with all calls written down. -/
theorem serveAll_watching (p : Factory σ ι × σ) (before : List (Attempt ι))
    (ds : List (Demand σ ι)) : serveAll (watching p before) (ds.map Demand.watched) =
      watching (serveAll p ds) (before ++ called (history p ds)) := by
  induction ds generalizing p before with
  | nil => exact congrArg (watching p) (List.append_nil before).symm
  | cons d ds ih =>
    -- The calls of the first demand are earlier ones to the demands behind it.
    have hrest := ih (serve p d) (before ++ called (happenings p d))
    rw [← serve_watching, List.append_assoc, ← called_append] at hrest
    exact hrest

/-! ## What is left of a factory -/

/-- To get resources one after the other changes nothing of a factory but what it keeps. -/
theorem factory_getAll_eq_keeping (ids : List String) (p : Factory σ ι × σ) :
    ∃ m, (getAll ids p).state.1 = p.1.keeping m := by
  induction ids generalizing p with
  | nil => exact ⟨p.1.instances, rfl⟩
  | cons id rest ih =>
    obtain ⟨m, hm⟩ := factory_get_eq_keeping p.1 p.2 id
    have hall := congrArg Prod.snd (getAll_cons id rest p)
    cases hget : (get id p).result with
    | error e =>
      simp only [hget] at hall
      exact ⟨m, hall ▸ hm⟩
    | ok x =>
      -- The later ones only replace what the first one left in the factory.
      obtain ⟨m', hm'⟩ := ih (get id p).state
      simp only [hget] at hall
      exact ⟨m', hall ▸ hm'.trans (congrArg (·.keeping m') hm)⟩

/-- A demand changes what a factory keeps, and its drivers if it registers one. -/
theorem exists_factory_serve (p : Factory σ ι × σ) (d : Demand σ ι) :
    ∃ creators instances, (serve p d).1 = { p.1 with creators, instances } ∧
      ∀ driver, creators.find? driver = (d.registers? driver).or (p.1.creators.find? driver) := by
  cases d with
  -- This is the one demand that touches the creators.
  | register name creator =>
    refine ⟨p.1.creators.insert name creator, p.1.instances, rfl, fun driver => ?_⟩
    rw [Entries.find?_insert, Demand.registers?]
    split <;> rfl
  | store id resource => exact ⟨_, p.1.instances.insert id resource, rfl, fun _ => rfl⟩
  | get id =>
    obtain ⟨m, hm⟩ := factory_get_eq_keeping p.1 p.2 id
    exact ⟨_, m, hm, fun _ => rfl⟩
  | loadAll =>
    obtain ⟨m, hm⟩ := factory_getAll_eq_keeping (p.1.ids p.2) p
    exact ⟨_, m, hm, fun _ => rfl⟩
  | disturb x => exact ⟨_, _, rfl, fun _ => rfl⟩

/-- A run leaves each driver the creator that was registered last, or the one from the start. -/
theorem exists_factory_serveAll (p : Factory σ ι × σ) (ds : List (Demand σ ι)) :
    ∃ creators instances, (serveAll p ds).1 = { p.1 with creators, instances } ∧
      ∀ driver, creators.find? driver = (registered driver ds).or (p.1.creators.find? driver) := by
  induction ds generalizing p with
  | nil => exact ⟨_, _, rfl, fun _ => rfl⟩
  | cons d ds ih =>
    obtain ⟨_, _, hfirst, hfind⟩ := exists_factory_serve p d
    obtain ⟨creators, instances, hlast, hfind'⟩ := ih (serve p d)
    refine ⟨creators, instances, ?_, fun driver => ?_⟩
    · exact hlast.trans (by rw [hfirst])
    -- A later registration hides the earlier one.
    · rw [hfind', hfirst, registered_cons, Option.or_assoc]
      exact congrArg _ (hfind driver)

/-! ## Telling what is kept -/

namespace Happening

/-- What is kept after something happened: what was stored or handed out. -/
def keep (kept : String → Option ι) : Happening ι → String → Option ι
  | .stored id x => fun i => if i = id then some x else kept i
  | .got id (.ok x) => fun i => if i = id then some x else kept i
  | _ => kept

/-- Whether something may happen in view of what is kept and of what happens next: a creator is
called only for a resource that is not kept, in answer to a `get` whose result it makes, and what is
kept is handed out. -/
def Fits (kept : String → Option ι) (next : List (Happening ι)) : Happening ι → Prop
  | .stored _ _ => True
  | .attempted a => kept a.id = none ∧ next.head? = some (.got a.id a.outcome)
  | .got id result => ∀ x, kept id = some x → result = .ok x

/-- Whether something leaves a resource in the factory. -/
def Provides (id : String) : Happening ι → Prop
  | .stored i _ => i = id
  | .got i (.ok _) => i = id
  | _ => False

end Happening

/-- What is kept after all that happened. -/
def replay (kept : String → Option ι) (h : List (Happening ι)) : String → Option ι :=
  h.foldl Happening.keep kept

/-- Whether all that happened may happen in this order. -/
def Sound (kept : String → Option ι) : List (Happening ι) → Prop
  | [] => True
  | n :: h => n.Fits kept h ∧ Sound (n.keep kept) h

/-- To tell what is kept after two stretches is to go through one and then the other. -/
theorem replay_append (kept : String → Option ι) (a b : List (Happening ι)) :
    replay kept (a ++ b) = replay (replay kept a) b := List.foldl_append

/-- A stretch may go on with another one that fits what it leaves behind. -/
theorem Sound.append {kept : String → Option ι} {a b : List (Happening ι)} (ha : Sound kept a)
    (hb : Sound (replay kept a) b) : Sound kept (a ++ b) := by
  induction a generalizing kept with
  | nil => exact hb
  | cons n a ih =>
    refine ⟨?_, ih ha.2 hb⟩
    have hfits := ha.1
    cases n with
    | stored id x => trivial
    | attempted c =>
      refine ⟨hfits.1, ?_⟩
      -- The answer follows at once, so it is in the first part.
      have hhead : (a ++ b).head? = a.head?.or b.head? := List.head?_append
      exact hhead.trans (by rw [hfits.2]; rfl)
    | got id r => exact hfits

/-- The rest of what may happen may happen where the beginning has led. -/
theorem Sound.of_append {kept : String → Option ι} {a b : List (Happening ι)}
    (h : Sound kept (a ++ b)) : Sound (replay kept a) b := by
  induction a generalizing kept with
  | nil => exact h
  -- Each step forgets what led there and keeps what is kept.
  | cons n a ih => exact ih h.2

/-- What is kept stays until something else is stored in its place. -/
theorem Sound.got_of_kept {kept : String → Option ι} {middle after : List (Happening ι)}
    {id : String} {x : ι} {r : Except Error ι} (h : Sound kept (middle ++ .got id r :: after))
    (hkept : kept id = some x) (hstored : ∀ y, .stored id y ∉ middle) : r = .ok x := by
  -- The invariant is that the resource is kept, step by step through the middle.
  induction middle generalizing kept with
  | nil => exact h.1 x hkept
  | cons n middle ih =>
    refine ih h.2 ?_ fun y hy => hstored y (List.mem_cons_of_mem _ hy)
    have hfits := h.1
    cases n with
    | attempted a => exact hkept
    | stored i y =>
      have hi : id ≠ i := by
        rintro rfl
        exact hstored y List.mem_cons_self
      exact (if_neg hi).trans hkept
    | got i r' =>
      cases r' with
      | error e => exact hkept
      | ok y =>
        by_cases hi : id = i
        · subst hi
          -- Getting it in between hands the kept one out, so the same is kept again.
          have hsame := hfits x hkept
          exact (if_pos rfl).trans (congrArg some (Except.ok.inj hsame))
        · exact (if_neg hi).trans hkept

/-- A resource is kept exactly if something left it in the factory. -/
theorem replay_eq_none_iff {kept : String → Option ι} {h : List (Happening ι)} {id : String} :
    replay kept h id = none ↔ kept id = none ∧ ∀ n ∈ h, ¬ n.Provides id := by
  induction h generalizing kept with
  | nil => simp [replay]
  | cons n h ih =>
    have hcons : replay kept (n :: h) id = replay (n.keep kept) h id := rfl
    -- One step keeps an id absent exactly if it does not provide it.
    have hkeep : n.keep kept id = none ↔ kept id = none ∧ ¬ n.Provides id := by
      cases n with
      | stored i x =>
        by_cases hi : id = i <;> simp [Happening.keep, Happening.Provides, hi, eq_comm]
      | attempted a => simp [Happening.keep, Happening.Provides]
      | got i r =>
        cases r with
        | error e => simp [Happening.keep, Happening.Provides]
        | ok x => by_cases hi : id = i <;> simp [Happening.keep, Happening.Provides, hi, eq_comm]
    rw [hcons, ih, hkeep, List.forall_mem_cons, and_assoc]

/-! ## Runs -/

/-- What the factory keeps, by id. -/
def kept (f : Factory σ ι) (id : String) : Option ι := f.instances.find? id

/-- What happens in the course of a `get` fits, and tells what is kept afterwards. -/
theorem sound_getting (id : String) (p : Factory σ ι × σ) :
    Sound p.1.kept (getting id p) ∧ replay p.1.kept (getting id p) = (get id p).state.1.kept := by
  obtain ⟨f, s⟩ := p
  -- To be told of a resource and to insert it come to the same.
  have hinsert (x : ι) : Happening.keep f.kept (.got id (.ok x)) =
      kept { f with instances := f.instances.insert id x } := by
    funext i
    exact (Entries.find?_insert f.instances id x i).symm
  rw [getting, attempts_eq_due, due]
  cases hkept : f.instances.find? id with
  -- What is kept already is handed out, and being told of it again changes nothing.
  | some x =>
    rw [get_of_kept hkept]
    refine ⟨⟨?_, trivial⟩, ?_⟩
    · intro y hy
      exact congrArg Except.ok (Option.some.inj (hkept.symm.trans hy))
    · funext i
      by_cases hi : i = id
      · rw [hi]
        exact (if_pos rfl).trans hkept.symm
      · exact if_neg hi
  | none =>
    have hnone : ∀ r : Except Error ι, Happening.Fits f.kept [] (.got id r) :=
      fun r x hx => nomatch hkept.symm.trans hx
    rw [get_of_not_kept hkept, create_apply]
    cases hc : f.commission id s with
    -- Nobody was called, and only the failure is told.
    | error e => exact ⟨⟨hnone _, trivial⟩, rfl⟩
    | ok c =>
      obtain ⟨fields, creator⟩ := c
      simp only
      rcases creator id fields s with ⟨e | x, s', notes⟩
      · exact ⟨⟨⟨hkept, rfl⟩, hnone _, trivial⟩, rfl⟩
      · exact ⟨⟨⟨hkept, rfl⟩, hnone _, trivial⟩, hinsert x⟩

/-- The resources that were got, in order, or the first failure. -/
def gathered : List (Happening ι) → Except Error (List (String × ι))
  | [] => .ok []
  | .got id (.ok x) :: h => (gathered h).map ((id, x) :: ·)
  | .got _ (.error e) :: _ => .error e
  | _ :: h => gathered h

/-- Calls say nothing about what is gathered, only results do. -/
theorem gathered_attempted (as : List (Attempt ι)) (h : List (Happening ι)) :
    gathered (as.map .attempted ++ h) = gathered h := by
  induction as with
  | nil => rfl
  | cons a as ih => exact ih

/-- What happens while resources are got fits, and tells their results and what is kept
afterwards. -/
theorem sound_gettingAll (ids : List String) (p : Factory σ ι × σ) :
    Sound p.1.kept (gettingAll ids p) ∧
      replay p.1.kept (gettingAll ids p) = (getAll ids p).state.1.kept ∧
      (getAll ids p).result = gathered (gettingAll ids p) := by
  induction ids generalizing p with
  | nil => exact ⟨trivial, rfl, rfl⟩
  | cons id rest ih =>
    obtain ⟨hsound, hreplay⟩ := sound_getting id p
    have hall := getAll_cons id rest p
    -- Of what happens in the first `get` only its result is gathered.
    have hgathered (h : List (Happening ι)) :
        gathered (getting id p ++ h) = gathered (.got id (get id p).result :: h) := by
      rw [getting, List.append_assoc, gathered_attempted]
      rfl
    rw [gettingAll, replay_append, hreplay, hgathered]
    cases hresult : (get id p).result with
    | error e =>
      simp only [hresult, Prod.mk.injEq] at hall
      -- The failure is the last thing that happens.
      refine ⟨hsound.append trivial, ?_, hall.1⟩
      rw [hall.2]
      rfl
    | ok x =>
      simp only [hresult, Prod.mk.injEq] at hall
      obtain ⟨hsound', hreplay', hresult'⟩ := ih (get id p).state
      refine ⟨hsound.append (hreplay ▸ hsound'), ?_, ?_⟩
      · rw [hall.2, hreplay']
      · rw [hall.1, hresult']
        rfl

/-- What happens in the course of a demand fits, and tells what is kept afterwards. -/
theorem sound_happenings (p : Factory σ ι × σ) (d : Demand σ ι) :
    Sound p.1.kept (happenings p d) ∧ replay p.1.kept (happenings p d) = (serve p d).1.kept := by
  cases d with
  | register driver creator => exact ⟨trivial, rfl⟩
  | store id resource =>
    refine ⟨⟨trivial, trivial⟩, ?_⟩
    funext i
    exact (Entries.find?_insert p.1.instances id resource i).symm
  | get id => exact sound_getting id p
  | loadAll =>
    obtain ⟨hsound, hreplay, -⟩ := sound_gettingAll (p.1.ids p.2) p
    exact ⟨hsound, hreplay⟩
  | disturb x => exact ⟨trivial, rfl⟩

/-- What happens in a run fits, and tells what is kept at its end. -/
theorem sound_history (p : Factory σ ι × σ) (ds : List (Demand σ ι)) :
    Sound p.1.kept (history p ds) ∧ replay p.1.kept (history p ds) = (serveAll p ds).1.kept := by
  induction ds generalizing p with
  | nil => exact ⟨trivial, rfl⟩
  | cons d ds ih =>
    obtain ⟨hsound, hreplay⟩ := sound_happenings p d
    obtain ⟨hsound', hreplay'⟩ := ih (serve p d)
    -- The later demands start with what the first one has left in the factory.
    refine ⟨hsound.append (hreplay ▸ hsound'), ?_⟩
    rw [history, replay_append, hreplay, hreplay']
    rfl

/-! ## What a factory promises -/

/-- What a factory promises about the resources that it keeps.  Demands led from the start, when it
was empty, to the present, and all that happened is told. -/
structure Keeps (start : Factory σ ι × σ) (ds : List (Demand σ ι)) (p : Factory σ ι × σ)
    (h : List (Happening ι)) : Prop where
  /-- Where creators write down their calls the same demands lead to the same, and what is written
  down are the calls that are told. -/
  calls : serveAll (watching start []) (ds.map Demand.watched) = watching p (called h)
  /-- The factory is the same but for its drivers and resources. -/
  site : ∃ creators instances, p.1 = { start.1 with creators, instances }
  /-- Each driver has the creator that was registered last. -/
  drivers : ∀ driver, p.1.creators.find? driver = registered driver ds
  /-- Once a resource was stored or handed out, whoever gets it gets the same, until another one is
  stored in its place. -/
  same : ∀ {before middle after : List (Happening ι)} {n : Happening ι} {id : String} {x : ι}
    {r : Except Error ι}, h = before ++ n :: middle ++ .got id r :: after →
    n = .stored id x ∨ n = .got id (.ok x) → (∀ y, .stored id y ∉ middle) → r = .ok x
  /-- A creator is called only for a `get`, whose result it makes, and only if the resource was
  neither stored nor handed out so far. -/
  attempted : ∀ {before after : List (Happening ι)} {a : Attempt ι},
    h = before ++ .attempted a :: after →
    after.head? = some (.got a.id a.outcome) ∧ ∀ n ∈ before, ¬ n.Provides a.id
  /-- No two calls for one resource go well, so there is at most one between two stores. -/
  once : ∀ {before middle after : List (Happening ι)} {a b : Attempt ι},
    h = before ++ .attempted a :: middle ++ .attempted b :: after → a.id = b.id →
    ∀ x y, a.outcome = .ok x → b.outcome ≠ .ok y
  /-- What is kept is what was stored or handed out. -/
  has : ∀ id, p.1.has id = false ↔ ∀ n ∈ h, ¬ n.Provides id
  /-- What becomes of a resource that is not kept. -/
  verdict : ∀ id, p.1.has id = false → Verdict p.1 p.2 id (get id p).result
  /-- It is handed out exactly if its definition names a driver whose creator makes it. -/
  created : ∀ id x, p.1.has id = false → ((get id p).result = .ok x ↔
    ∃ fields driver creator, (start.1.view p.2).bag? (Path.join start.1.path id) = some fields ∧
      fields.string? "driver" = some driver ∧ driver ≠ "" ∧
      registered driver ds = some creator ∧ (creator id fields p.2).result = .ok x)
  /-- A failure leaves the factory as it is. -/
  failed : ∀ id e, (get id p).result = .error e → (get id p).state.1 = p.1
  /-- To get all resources is to get one after the other, up to the first failure. -/
  all : (loadAll p).result = gathered (happenings p .loadAll)

/-- A factory has what it keeps. -/
theorem has_eq_false_iff {f : Factory σ ι} {id : String} : f.has id = false ↔ f.kept id = none := by
  rw [has, kept, Entries.contains]
  cases f.instances.find? id <;> simp

/-- A call tells of the time before it and of the answer that follows. -/
theorem Sound.attempted_of_append {kept : String → Option ι} {before after : List (Happening ι)}
    {a : Attempt ι} (h : Sound kept (before ++ .attempted a :: after)) :
    after.head? = some (.got a.id a.outcome) ∧ ∀ n ∈ before, ¬ n.Provides a.id := by
  obtain ⟨⟨hnone, hnext⟩, -⟩ := h.of_append
  exact ⟨hnext, (replay_eq_none_iff.mp hnone).2⟩

/-- What was stored or handed out is handed out again, until something else is stored. -/
theorem Sound.got_of_provided {kept : String → Option ι} {before middle after : List (Happening ι)}
    {n : Happening ι} {id : String} {x : ι} {r : Except Error ι}
    (h : Sound kept (before ++ n :: middle ++ .got id r :: after))
    (hn : n = .stored id x ∨ n = .got id (.ok x)) (hstored : ∀ y, .stored id y ∉ middle) :
    r = .ok x := by
  have hsplit : before ++ n :: middle ++ .got id r :: after =
      (before ++ [n]) ++ (middle ++ .got id r :: after) := by simp
  -- Right after it was provided the resource is kept.
  rw [hsplit] at h
  refine h.of_append.got_of_kept ?_ hstored
  rw [replay_append]
  rcases hn with rfl | rfl <;> exact if_pos rfl

/-- Of two calls for one resource the second does not go well if the first one does. -/
theorem Sound.outcome_ne_ok {kept : String → Option ι} {before middle after : List (Happening ι)}
    {a b : Attempt ι} (h : Sound kept (before ++ .attempted a :: middle ++ .attempted b :: after))
    (hid : a.id = b.id) (x y : ι) (ha : a.outcome = .ok x) : b.outcome ≠ .ok y := by
  intro hb
  obtain ⟨-, hnone⟩ := h.attempted_of_append
  -- The first call that goes well is followed by a `get` that hands its resource out.
  rw [List.append_assoc] at h
  obtain ⟨hnext, -⟩ := h.attempted_of_append
  have hgot : .got a.id a.outcome ∈ middle := by
    cases middle with
    | nil => exact nomatch hnext
    | cons n middle => exact Option.some.inj hnext ▸ List.mem_cons_self
  refine hnone _ (List.mem_append_right _ (List.mem_cons_of_mem _ hgot)) ?_
  rw [ha]
  exact hid

/-- Whatever is asked of a factory that was empty at first, and whatever happens around it, it keeps
its promises. -/
theorem keeps_of_history (kind path : String) (view : σ → Bag) (s : σ) (ds : List (Demand σ ι)) :
    Keeps (empty kind path view, s) ds (serveAll (empty kind path view, s) ds)
      (history (empty kind path view, s) ds) := by
  obtain ⟨hsound, hreplay⟩ := sound_history (empty kind path view, s) ds
  obtain ⟨creators, instances, hfactory, hfind⟩ :=
    exists_factory_serveAll (empty kind path view, s) ds
  have hcalls := serveAll_watching (empty kind path view, s) [] ds
  -- From here on only what the lemmas say of the run counts, not how it came about.
  generalize history (empty kind path view, s) ds = h at hsound hreplay hcalls
  generalize serveAll (empty kind path view, s) ds = p at hreplay hcalls hfactory
  have hdrivers (driver : String) : p.1.creators.find? driver = registered driver ds := by
    rw [hfactory]
    exact (hfind driver).trans Option.or_none
  -- The factory was empty, so whatever is kept was provided in the run.
  have hhas (id : String) : p.1.has id = false ↔ ∀ n ∈ h, ¬ n.Provides id := by
    rw [has_eq_false_iff, ← hreplay, replay_eq_none_iff]
    exact and_iff_right rfl
  have hverdict (id : String) (hid : p.1.has id = false) :
      Verdict p.1 p.2 id (get id p).result := verdict_get (has_eq_false_iff.mp hid) p.2
  exact {
    calls := hcalls
    site := ⟨creators, instances, hfactory⟩
    drivers := hdrivers
    same := by
      rintro before middle after n id x r rfl
      exact hsound.got_of_provided
    attempted := by
      rintro before after a rfl
      exact hsound.attempted_of_append
    once := by
      rintro before middle after a b rfl
      exact hsound.outcome_ne_ok
    has := hhas
    verdict := hverdict
    created := by
      -- The verdict speaks of the creators at present, which are those registered last.
      intro id x hid
      have hcreated := (hverdict id hid).ok_iff x
      simp only [hdrivers] at hcreated
      rwa [hfactory] at hcreated
    failed := fun id e he => factory_of_get_error he
    all := (sound_gettingAll (p.1.ids p.2) p).2.2 }

/-- A factory of numbers. -/
def numbers : Factory Bag Nat := empty "number" "numbers" fun view => view

/-- The creator that makes a number. -/
def numbered (n : Nat) : Creator Bag Nat := fun _ _ => pure n

/-- The definition of a number. -/
def numberFields : Bag := .ofList [("driver", .string "plain")]

/-- A number is created, and then the driver gets another creator. -/
def replacing : List (Demand Bag Nat) :=
  [.register "plain" (numbered 1),
    .disturb (Act.replace (.ofList [("numbers", .bag (.ofList
      [("a", .bag numberFields), ("b", .bag numberFields)]))])),
    .get "a", .register "plain" (numbered 2)]

/-- The number stays when all are loaded, and the new creator is called for the other one only. -/
theorem keeps_of_history_replacing :
    (loadAll (serveAll (numbers, .nil) replacing)).result = .ok [("a", 1), ("b", 2)] ∧
      registered "plain" replacing = some (numbered 2) ∧
      (serveAll (watching (numbers, .nil) [])
        ((replacing ++ [Demand.loadAll]).map Demand.watched)).2.attempts =
          [⟨"a", numberFields, .ok 1⟩, ⟨"b", numberFields, .ok 2⟩] := by
  have hbefore := keeps_of_history "number" "numbers" (fun view => view) .nil replacing
  have hafter := keeps_of_history "number" "numbers" (fun view => view) .nil
    (replacing ++ [.loadAll])
  refine ⟨hbefore.all, (hbefore.drivers "plain").symm, ?_⟩
  exact congrArg (·.2.attempts) hafter.calls

end Factory
end LayeredConfig
