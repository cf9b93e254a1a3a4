import LayeredConfig.Proofs.Factory.Ids
import LayeredConfig.Proofs.Kernel.Retry
import LayeredConfig.Proofs.Loader.Turns

/-!
# What loading comes to

The entry file is read and added first, and what the view defines then is added in ascending order
of ids.  A failure ends the loading and leaves what was added before it.

## Key results

- `Loader.joins_loadEntry`: what the entry file comes to
- `Loader.loads`: what loading comes to
-/

namespace LayeredConfig

namespace Loader

variable {p : Factory Workshop Bag × Workshop} {w w' : Workshop}

/-! ## The entry file -/

/-- Read an entry file, with the parser for its extension. -/
def readEntry (file : String) : Act Workshop Bag :=
  match FilePath.name? file, (FilePath.extension? file).bind Parser.ofExtension? with
  | some name, some parserId => do
    let above := FilePath.directory file
    let parser ← Workshop.onParsers (Factory.get parserId)
    let w ← Act.current
    FileSource.readFrom w.around.files (Disk.directory (if above.isEmpty then "." else above)) name
      parser
  | _, _ => Act.fail ((Error.decode "unsupported config file extension").withContext "path" file)

/-- What becomes of the entry file, if there is one: it is read, and then it is added unless the id
of entry files is taken. -/
inductive Opens (w : Workshop) :
    Option String → Except Error (Option Source) → Workshop → Prop
  | skipped : Opens w none (.ok none) w
  | read {file : String} {r : Except Error Source} {c : Config}
      (h : Joins (readEntry file w).state.config entryId entryPriority (readEntry file w).result
        r c) :
      Opens w (some file) (r.map some) { (readEntry file w).state with config := c }

/-- To load an entry file is to read it and to add what was read. -/
theorem loadEntry_eq (file : String) : ∃ fields, loadEntry file =
    (do
      let bag ← readEntry file
      let _ ← Workshop.onConfig (Config.write (.addSource entryId entryPriority bag))
      Act.report .info "entry config loaded" fields) := by
  -- A file without a name or with an unknown extension fails at once, on both sides.
  unfold loadEntry readEntry
  cases FilePath.name? file with
  | none => exact ⟨[], rfl⟩
  | some name =>
    cases (FilePath.extension? file).bind Parser.ofExtension? with
    | none => exact ⟨[], rfl⟩
    | some parserId =>
      refine ⟨[("path", file), ("parser", parserId)], ?_⟩
      simp only [bind_assoc]

/-- To read a file leaves the configuration alone. -/
theorem respects_readEntry (file : String) : (readEntry file).Respects Workshop.Untouched := by
  unfold readEntry
  split
  · next name parserId _ _ =>
    refine (Workshop.respects_onParsers parserId).bind .trans fun parser => ?_
    intro w
    exact (FileSource.blind_readFrom w.around.files _ name parser).respects .refl w
  · exact fun w => .refl w

/-- What the entry file comes to. -/
theorem joins_loadEntry (file : String) (w : Workshop) :
    ∃ r c, Joins (readEntry file w).state.config entryId entryPriority (readEntry file w).result
        r c ∧
      (loadEntry file w).state = { (readEntry file w).state with config := c } ∧
      (loadEntry file w).result = r.map fun _ => () := by
  obtain ⟨fields, hload⟩ := loadEntry_eq file
  rw [hload, Act.result_bind, Act.state_bind]
  -- A file that cannot be read is not added, and one that can is, unless the id is taken.
  cases (readEntry file w).result with
  | error e => exact ⟨.error e, _, .unbuilt e, rfl, rfl⟩
  | ok bag =>
    obtain ⟨r, hjoin, hresult⟩ :=
      joins_write (readEntry file w).state.config entryId entryPriority bag
    obtain ⟨hstate, hwrite⟩ := Act.bind_const
      (Workshop.onConfig (Config.write (.addSource entryId entryPriority bag)))
      (y := Act.report .info "entry config loaded" fields) (fun _ => ⟨rfl, rfl⟩)
      (readEntry file w).state
    exact ⟨r, _, hjoin, hstate, hwrite.trans hresult⟩

/-! ## Loading -/

/-- The ids under which a view defines sources, in ascending order. -/
structure Defines (view : Bag) (ids : List String) : Prop where
  ascending : ids.Pairwise (· < ·)
  mem_iff : ∀ id, id ∈ ids ↔ ∃ entries fields,
    view.bag? "config.sources" = some entries ∧ entries.find? id = some (.bag fields)

/-- Ids that ascend are all different. -/
theorem Defines.nodup {view : Bag} {ids : List String} (h : Defines view ids) : ids.Nodup :=
  h.ascending.imp fun hlt heq => absurd (heq ▸ hlt) (String.lt_irrefl _)

/-- The ids that a factory of sources lists are those that the view defines. -/
theorem defines_ids (h : Workshop.Sourcing p.1) : Defines p.2.config.merged (p.1.ids p.2) where
  ascending := Factory.pairwise_lt_ids p.1 p.2
  mem_iff id := by
    rw [Factory.mem_ids_iff, h.view, h.path]
    rfl

/-- What loading comes to, and what it leaves.  What the configuration gains is told for drivers
that do not touch it. -/
inductive Loads (entry : Option String) (p : Factory Workshop Bag × Workshop) :
    Except Error (List String) → Factory Workshop Bag × Workshop → Prop
  /-- The entry file could not be added, and nothing else was tried. -/
  | unopened {e : Error} {w : Workshop} (hopen : Opens p.2 entry (.error e) w)
      (hconfig : Workshop.Steady p → w.config = p.2.config) : Loads entry p (.error e) (p.1, w)
  /-- A defined source failed when it had its turn, and those behind it had none. -/
  | failed {first : Option Source} {w : Workshop} {added : List (Config × Source)} {id : String}
      {later : List String} {e : Error} {p' p'' : Factory Workshop Bag × Workshop}
      (hopen : Opens p.2 entry (.ok first) w)
      (hids : Defines w.config.merged (added.map (·.2.id) ++ id :: later))
      (hadded : Turns (p.1, w) added p') (hfailed : Turn id p' (.error e) p'')
      (hlater : ∀ i ∈ later, p''.1.instances.find? i = p.1.instances.find? i)
      (hgains : Workshop.Steady p →
        Gains p.2.config (first.toList.map (p.2.config, ·) ++ added) p''.2.config) :
      Loads entry p (.error e) p''
  /-- All the defined sources were added. -/
  | done {first : Option Source} {w : Workshop} {added : List (Config × Source)}
      {p' : Factory Workshop Bag × Workshop} (hopen : Opens p.2 entry (.ok first) w)
      (hids : Defines w.config.merged (added.map (·.2.id))) (hadded : Turns (p.1, w) added p')
      (hgains : Workshop.Steady p →
        Gains p.2.config (first.toList.map (p.2.config, ·) ++ added) p'.2.config) :
      Loads entry p (.ok (first.toList.map Source.id ++ added.map (·.2.id))) p'

/-- To load the defined sources is to add them and to tell their ids. -/
theorem loadSources_apply (p : Factory Workshop Bag × Workshop) :
    (loadSources p).state = (addSources (p.1.ids p.2) p).state ∧
      (loadSources p).result = (addSources (p.1.ids p.2) p).result.map fun _ => p.1.ids p.2 :=
  Act.bind_pure_apply (addSources (p.1.ids p.2)) (fun _ => p.1.ids p.2) p

/-- Once the entry file is there, the defined sources have their turns. -/
theorem loads_loadSources {entry : Option String} {first : Option Source}
    (hopen : Opens p.2 entry (.ok first) w) (h : Workshop.Sourcing p.1)
    (hsteady : Workshop.Steady p → Workshop.Steady (p.1, w))
    (hgains : ∀ {added p'}, Workshop.Steady p → Turns (p.1, w) added p' →
      Gains p.2.config (first.toList.map (p.2.config, ·) ++ added) p'.2.config) :
    Loads entry p ((loadSources (p.1, w)).result.map (first.toList.map Source.id ++ ·))
      (loadSources (p.1, w)).state := by
  obtain ⟨hstate, hresult⟩ := loadSources_apply (p.1, w)
  rw [hstate, hresult]
  -- The ids are listed once, before the first turn.
  have hids : Defines w.config.merged (p.1.ids w) := defines_ids (p := (p.1, w)) h
  have hruns := runs_addSources (p.1.ids w) (p.1, w)
  dsimp only
  generalize p.1.ids w = ids, (addSources (p.1.ids w) (p.1, w)).result = r,
    (addSources (p.1.ids w) (p.1, w)).state = p'' at hids hruns ⊢
  cases hruns with
  | done hadded => exact .done hopen hids hadded fun hp => hgains hp hadded
  | failed hadded hfailed =>
    rename_i added id later e p'
    -- No id comes twice, so those behind the failure are none of those that had a turn.
    obtain ⟨-, hlater, hapart⟩ := List.nodup_append.mp hids.nodup
    refine .failed hopen hids hadded hfailed ?_ fun hp => ?_
    · intro i hi
      have hne : i ≠ id := by
        rintro rfl
        exact (List.nodup_cons.mp hlater).1 hi
      rw [hfailed.find?_of_ne hne]
      refine hadded.find?_of_forall_ne fun a ha heq => ?_
      exact hapart _ (List.mem_map_of_mem ha) i (List.mem_cons_of_mem _ hi) heq.symm
    · rw [hfailed.config_of_error (hadded.steady (hsteady hp))]
      exact hgains hp hadded

/-- Without an entry file, the defined sources are all there is to load. -/
theorem loads_none (h : Workshop.Sourcing p.1) (hc : (Thread.start p.2.config).Coherent) :
    Loads none p (load none p).result (load none p).state := by
  have hresult : (load none p).result = (loadSources p).result.map ([] ++ ·) := by
    show (loadSources p).result = _
    cases (loadSources p).result <;> rfl
  rw [hresult]
  exact loads_loadSources .skipped h id fun hp hadded => hadded.gains hp hc

/-- With one, it is opened before them. -/
theorem loads_some (h : Workshop.Sourcing p.1) (hc : (Thread.start p.2.config).Coherent)
    (file : String) :
    Loads (some file) p (load (some file) p).result (load (some file) p).state := by
  obtain ⟨f, w⟩ := p
  obtain ⟨r, c, hjoin, hstate, hresult⟩ := joins_loadEntry file w
  have hload : load (some file) (f, w) = ((loadEntry file).within Prod.snd (fun w p => (p.1, w))
      >>= fun _ => loadSources >>= fun ids => pure (entryId :: ids)) (f, w) := rfl
  have hentry : ((loadEntry file).within Prod.snd (fun w p => (p.1, w)) (f, w)).result =
      r.map fun _ => () := hresult
  rw [hload, Act.result_bind, Act.state_bind, hentry]
  cases r with
  | error e =>
    show Loads _ _ (.error e) (f, (loadEntry file w).state)
    rw [hstate]
    refine .unopened (.read hjoin) fun hp => ?_
    exact hjoin.config_of_error.trans (respects_readEntry file w hp.spared).1
  | ok s =>
    -- The entry file is one more addition, before those of the defined sources.
    obtain ⟨hid, hfree, hwritten⟩ := hjoin.of_ok
    have hsteady (hp : Workshop.Steady (f, w)) :
        Workshop.Steady (f, { (readEntry file w).state with config := c }) := by
      obtain ⟨-, hspared⟩ := respects_readEntry file w hp.spared
      exact ⟨hp.sources, hspared.disks, hspared.parsers⟩
    -- What the configuration gains begins with the entry, before the turns of the others.
    have hloads := loads_loadSources (.read hjoin) h hsteady fun hp hadded => by
      obtain ⟨hconfig, -⟩ := respects_readEntry file w hp.spared
      rw [hconfig] at hfree hwritten
      exact Gains.next hc hfree (hwritten ▸ hadded.gains (hsteady hp))
    obtain ⟨hafter, hids⟩ := Act.bind_pure_apply loadSources (entryId :: ·)
      (f, (loadEntry file w).state)
    show Loads _ _
      ((loadSources >>= fun ids => pure (entryId :: ids)) (f, (loadEntry file w).state)).result
      ((loadSources >>= fun ids => pure (entryId :: ids)) (f, (loadEntry file w).state)).state
    rw [hafter, hids, hstate, ← hid]
    exact hloads

/-- What loading comes to, for a configuration that was reached in any way. -/
theorem loads {t : Thread} (h : t.Reachable) (hidle : t.stack = [])
    (hconfig : p.2.config = t.config) (hsourcing : Workshop.Sourcing p.1)
    (entry : Option String) : Loads entry p (load entry p).result (load entry p).state := by
  -- Nothing is under way, so the view is that of the registry and no round waits.
  have hcoherent : (Thread.start p.2.config).Coherent := by
    rw [hconfig]
    exact (h.coherent .start_empty).start_config hidle
  cases entry with
  | none => exact loads_none hsourcing hcoherent
  | some file => exact loads_some hsourcing hcoherent file

/-- Where a single source is defined, has a priority and can be built, to load is to add it. -/
theorem load_of_ids_singleton {id : String} {priority : Int32} {bag : Bag}
    (h : Workshop.Steady p) (hids : p.1.ids p.2 = [id])
    (hpriority : declaredPriority p.2.config.merged id = .ok priority)
    (hget : (Factory.get id p).result = .ok bag) (hfree : id ∉ p.2.config.sources.map Prod.fst) :
    (load none p).result = .ok [id] ∧ (load none p).state.2.config =
      (Config.write (.addSource id priority bag) p.2.config).state := by
  have hload : (load none p).state = (loadSources p).state ∧
      (load none p).result = (loadSources p).result := ⟨rfl, rfl⟩
  obtain ⟨hloadState, hloadResult⟩ := hload
  obtain ⟨hidsState, hidsResult⟩ := loadSources_apply p
  rw [hids] at hidsState hidsResult
  -- There is one turn, and nothing behind it.
  obtain ⟨hturnState, hturnResult⟩ := Act.bind_const (addSource id) (y := addSources [])
    (fun _ => ⟨rfl, rfl⟩) p
  obtain ⟨haddState, haddResult⟩ := addSource_of_built hpriority hget
  rw [(h.get id).1] at haddState haddResult
  have hwrite : (Config.write (.addSource id priority bag) p.2.config).result = .ok true :=
    (Config.result_request (.write _) _).trans (if_neg hfree)
  constructor
  · rw [hloadResult, hidsResult, addSources, hturnResult, haddResult, hwrite]
    rfl
  · rw [hloadState, hidsState, addSources, hturnState, haddState]

/-! ## Kernels -/

/-- The sources of a kernel are those that its configuration defines. -/
theorem sourcing_rewired {σ : Type} (k : Kernel σ) : Workshop.Sourcing k.rewired.sources where
  path := rfl
  view := Kernel.view_rewired k

/-- No driver of a kernel touches the configuration. -/
theorem steady_rewired {σ : Type} (k : Kernel σ) :
    Workshop.Steady (k.rewired.sources, k.rewired.workshop) where
  sources driver creator h id fields := by
    obtain rfl | ⟨-, rfl⟩ := Kernel.creators_rewired h
    · exact EnvSource.respects_creator id fields
    · exact FileSource.respects_create id fields
  spared := ⟨(Kernel.quiet_disks_rewired k).respects Eq.refl,
    (Kernel.quiet_parsers_rewired k).respects Eq.refl⟩

/-! ## Loading while somebody watches -/

/-- The definition of a source of a variable. -/
def definitions : Bag := .ofList [("config", .bag (.ofList [("sources", .bag (.ofList [("s", .bag
  (.ofList [("driver", .string "env"), ("mappings", .bag (.ofList [("X", .string "x")])),
    ("priority", .int 2147483647)]))]))]))]

/-- A configuration that holds it, and in which an observer watches the path of the variable. -/
def watched (observer : Observer) : Thread :=
  ((Thread.start .empty).perform 5 (.write (.addSource "base" 0 definitions))).perform 0
    (.observe "o" "x" observer)

/-- This configuration was reached by two requests. -/
theorem reachable_watched (observer : Observer) : (watched observer).Reachable :=
  (Thread.Reaches.refl.perform 5 rfl trivial).perform 0 rfl trivial

/-- A kernel over it, where the variable is there. -/
def kernel (observer : Observer) : Kernel Unit :=
  (Kernel.new ⟨⟨fun _ => .error .notFound, fun _ => .error .notFound⟩,
    [("X", "1")]⟩).reconfigured (watched observer).config

/-- What the kernel loads with. -/
def start (observer : Observer) : Factory Workshop Bag × Workshop :=
  ((kernel observer).rewired.sources, (kernel observer).rewired.workshop)

/-- The source that is defined. -/
def defined : Source := ⟨"s", 2147483647, .ofList [("x", .string "1")]⟩

/-- To load is to add that source, once it is built. -/
theorem load_start (observer : Observer)
    (hget : (Factory.get "s" (start observer)).result = .ok defined.bag) :
    (load none (start observer)).result = .ok ["s"] ∧
      (load none (start observer)).state.2.config =
        (Config.write defined.addition (watched observer).config).state := by
  have hview : (start observer).1.view (start observer).2 = definitions := rfl
  have hpath : (start observer).1.path = "config.sources" := rfl
  have hids : (start observer).1.ids (start observer).2 = ["s"] := by
    rw [Factory.ids, hview, hpath]
    rfl
  have hpriority : declaredPriority (start observer).2.config.merged "s" = .ok 2147483647 := rfl
  have hsources : (start observer).2.config.sources.map Prod.fst = ["base"] := rfl
  have hfree : "s" ∉ (start observer).2.config.sources.map Prod.fst := by
    rw [hsources]
    decide
  exact load_of_ids_singleton (steady_rewired (kernel observer)) hids hpriority hget hfree

/-- An observer that only looks. -/
def looks : Observer := fun _ => .look fun _ => .finish (.ok ())

/-- Before an observer that only looks, the source is added with the greatest priority. -/
theorem loads_looks :
    Loads none (start looks) (.ok ["s"]) (load none (start looks)).state ∧
      (load none (start looks)).state.2.config.sources = [("base", 0), ("s", 2147483647)] ∧
      (load none (start looks)).state.2.config.merged.get? "x" = some (.string "1") := by
  obtain ⟨hresult, hwrite⟩ := load_start looks rfl
  have hsourcing : Workshop.Sourcing (start looks).1 := sourcing_rewired (kernel looks)
  have hloads := loads (reachable_watched looks) rfl rfl hsourcing none
  rw [hresult] at hloads
  rw [Config.write_of_stack_eq_nil (n := 10) rfl] at hwrite
  refine ⟨hloads, ?_, ?_⟩
  · rw [hwrite]
    rfl
  · rw [hwrite]
    rfl

/-- An observer that removes the source. -/
def removes : Observer := fun _ => .write (.removeSource "s") fun _ => .finish (.ok ())

/-- An observer that removes the source undoes what the loading tells that it did. -/
theorem loads_undone :
    (load none (start removes)).result = .ok ["s"] ∧
      (load none (start removes)).state.2.config.sources = [("base", 0)] ∧
      (load none (start removes)).state.2.config.merged = definitions := by
  obtain ⟨hresult, hwrite⟩ := load_start removes rfl
  rw [Config.write_of_stack_eq_nil (n := 18) rfl] at hwrite
  refine ⟨hresult, ?_, ?_⟩
  · rw [hwrite]
    rfl
  · rw [hwrite]
    rfl

end Loader
end LayeredConfig
