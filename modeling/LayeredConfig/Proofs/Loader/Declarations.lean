import LayeredConfig.Proofs.Config.Resolution
import LayeredConfig.Proofs.Json.RoundTrip
import LayeredConfig.Proofs.Loader.Load

/-!
# Sources as they are declared

The ids of sources are listed once, but a source is ranked and built by the view that it finds when
it has its turn, and by then this view holds what was added before it.  So a source is what the
entry file declares as long as nothing that is added before it says anything about its definition.

## Key results

- `Registry.lookup_merged_append`: silent sources decide nothing
- `Gains.registry_of_onlyRead`: what the registry gains where no observer writes
- `Loader.loads_declared`: what the sources of a fresh kernel are loaded from
-/

namespace LayeredConfig

namespace Registry

/-- To place a source is to put it somewhere between the others. -/
theorem place_eq_insert (s : Source) (l : List Source) :
    ∃ lower upper, l = lower ++ upper ∧ place s l = lower ++ s :: upper := by
  induction l with
  | nil => exact ⟨[], [], rfl, rfl⟩
  | cons t l ih =>
    rw [place]
    split
    · obtain ⟨lower, upper, hl, hplace⟩ := ih
      exact ⟨t :: lower, upper, by rw [hl, List.cons_append], by rw [hplace, List.cons_append]⟩
    · exact ⟨[], t :: l, rfl, rfl⟩

/-- Silent sources decide nothing, whatever their priorities. -/
theorem lookup_merged_append {sources added : List Source} {overrides : Bag} {p : Path}
    (h : ∀ s ∈ added, s.bag.silent p = true) :
    (merged ⟨sources ++ added, overrides⟩).lookup p = (merged ⟨sources, overrides⟩).lookup p := by
  -- The source added last is taken off, wherever it was placed.
  induction added using List.reverseRecOn with
  | nil => rw [List.append_nil]
  | append_singleton added s ih =>
    obtain ⟨hadded, hs⟩ := List.forall_mem_append.mp h
    rw [← ih hadded]
    -- The last source is placed between layers, where it is silent.
    obtain ⟨lower, upper, hordered, hplace⟩ :=
      place_eq_insert s (ordered ⟨sources ++ added, overrides⟩)
    have hlast : ordered ⟨sources ++ (added ++ [s]), overrides⟩ = lower ++ s :: upper := by
      rw [← hplace, ← List.append_assoc, ordered, List.foldl_append]
      rfl
    rw [merged_eq_mergeAll, merged_eq_mergeAll, layers, layers, hlast, hordered,
      Layers.lookup_mergeAll, Layers.lookup_mergeAll, List.map_append, List.map_append,
      List.map_cons, List.append_assoc, List.append_assoc, List.cons_append]
    exact Layers.resolve_insert_silent _ _ (hs s List.mem_cons_self)

/-- A single source is all that there is to see. -/
theorem merged_singleton (s : Source) : merged ⟨[s], .nil⟩ = s.bag :=
  (Bag.nil_merge s.bag : _)

end Registry

/-- Additions alone, with nothing set between them. -/
theorem Interleaves.additions (ss : List Source) : Interleaves ss [] (ss.map Source.addition) := by
  induction ss with
  | nil => exact .done
  | cons s ss ih => exact .add s ih

namespace Loader

variable {p p' : Factory Workshop Bag × Workshop}

/-! ## What the configuration gains -/

/-- Where no observer writes, the sources that are added come behind the others, and that is all. -/
theorem Gains.registry_of_onlyRead {c c' : Config} {added : List (Config × Source)}
    (h : Gains c added c') (hread : c.OnlyRead) :
    c'.registry = ⟨c.registry.sources ++ added.map Prod.snd, c.registry.overrides⟩ ∧
      c'.merged = c'.registry.merged := by
  obtain ⟨hsettled, hasides⟩ := h.quiet hread
  -- Nobody writes aside, so the additions are all the writes there are.
  have hsources := h.sources hsettled fun a ha w hw => by
    rw [hasides a ha] at hw
    exact nomatch hw
  have hwrites : (added.flatMap fun a => a.2.addition :: asides a) =
      (added.map Prod.snd).map Source.addition := by
    rw [List.flatMap_congr fun a ha => by rw [hasides a ha], ← List.map_eq_flatMap, List.map_map]
    rfl
  have hoverrides : c'.registry.overrides = c.registry.overrides := by
    rw [h.registry hsettled, hwrites, (Interleaves.additions _).overrides_after]
    rfl
  exact ⟨by rw [← hsources, ← hoverrides], (h.coherent hsettled).view⟩

/-- Turns come after the first of them. -/
theorem Turns.of_append {earlier later : List (Config × Source)}
    (h : Turns p (earlier ++ later) p') : ∃ q, Turns p earlier q ∧ Turns q later p' := by
  induction earlier generalizing p with
  | nil => exact ⟨p, .done p, h⟩
  | cons a earlier ih =>
    cases h with
    | next hfirst hrest =>
      obtain ⟨q, hearlier, hlater⟩ := ih hrest
      exact ⟨q, .next hfirst hearlier, hlater⟩

/-- To get sources leaves the factory one of sources. -/
theorem Turns.sourcing {added : List (Config × Source)} (h : Turns p added p')
    (hp : Workshop.Sourcing p.1) : Workshop.Sourcing p'.1 := by
  induction h with
  | done => exact hp
  | @next p p' p'' s added h _ ih =>
    refine ih ?_
    -- A turn only adds to what the factory keeps.
    cases h with
    | ranked =>
      obtain ⟨m, hm⟩ := Factory.factory_get_eq_keeping p.1 p.2 s.id
      rw [hm]
      exact ⟨hp.path, hp.view⟩

/-! ## What a source is loaded from -/

/-- A source is loaded from a view: it has the priority that the view gives to it, and it is what
the creator for its driver makes of all the fields of its definition. -/
structure LoadedFrom (view : Bag) (p : Factory Workshop Bag × Workshop) (s : Source) : Prop where
  ranked : Ranks view s.id s.priority
  built : ∃ fields driver creator,
    view.bag? (Path.join Workshop.sourcesPath s.id) = some fields ∧
      fields.string? "driver" = some driver ∧ driver ≠ "" ∧
      p.1.creators.find? driver = some creator ∧ (creator s.id fields p.2).result = .ok s.bag

/-- Whether a bag says nothing about the definition of a source. -/
def Spares (b : Bag) (id : String) : Prop :=
  ∀ path, Path.parse? (Path.join Workshop.sourcesPath id) = some path → b.silent path = true

/-- A source that was not kept is loaded from the view at its turn. -/
theorem Turn.loadedFrom {id : String} {s : Source} (h : Turn id p (.ok s) p')
    (hp : Workshop.Sourcing p.1) (hkept : p.1.instances.find? id = none) :
    LoadedFrom p.2.config.merged p s := by
  have hverdict := Factory.verdict_get hkept p.2
  cases h with
  | ranked hranks hjoin =>
    generalize hresult : (Factory.get id p).result = r at hjoin
    cases hjoin with
    | added =>
      refine ⟨hranks, ?_⟩
      -- The factory looks below its own path in its own view, which are these.
      rw [← hp.path, ← hp.view]
      exact (hverdict.ok_iff _).mp hresult

/-- Views that agree on its definition load the same source. -/
theorem LoadedFrom.congr {view view' : Bag} {s : Source} (h : LoadedFrom view p s)
    (heq : ∀ path, Path.parse? (Path.join Workshop.sourcesPath s.id) = some path →
      view.lookup path = view'.lookup path) : LoadedFrom view' p s := by
  obtain ⟨hranks, fields, driver, creator, hfields, hbuilt⟩ := h
  -- The definition was found, so its path can be read.
  obtain ⟨path, hpath⟩ : ∃ path, Path.parse? (Path.join Workshop.sourcesPath s.id) = some path := by
    cases hparse : Path.parse? (Path.join Workshop.sourcesPath s.id) with
    | some path => exact ⟨path, rfl⟩
    | none => simp [Bag.bag?, Bag.get?, hparse] at hfields
  have hbag : view.bag? (Path.join Workshop.sourcesPath s.id) =
      view'.bag? (Path.join Workshop.sourcesPath s.id) := by
    rw [Bag.bag?, Bag.bag?, Bag.get?_of_parse? hpath, Bag.get?_of_parse? hpath]
    exact congrArg (Option.bind · _) (heq path hpath)
  have hpriority : view.get? ("config.sources." ++ s.id ++ ".priority") =
      view'.get? ("config.sources." ++ s.id ++ ".priority") := by
    rw [← Loader.join_priority, Bag.get?_join hpath, Bag.get?_join hpath, hbag]
  refine ⟨?_, fields, driver, creator, hbag ▸ hfields, hbuilt⟩
  generalize s.priority = priority at hranks ⊢
  cases hranks with
  | unset hnone => exact .unset (hpriority ▸ hnone)
  | set hsome hi hint => exact .set (hpriority ▸ hsome) hi hint

/-! ## Fresh kernels -/

/-- What a fresh kernel loads with. -/
def fresh (around : Surroundings) : Factory Workshop Bag × Workshop :=
  let k : Kernel Unit := Kernel.new around
  (k.sources, k.workshop)

/-- A fresh kernel has a factory of sources. -/
theorem sourcing_fresh (around : Surroundings) : Workshop.Sourcing (fresh around).1 :=
  sourcing_rewired (Kernel.new around : Kernel Unit)

/-- No driver of a fresh kernel touches the configuration. -/
theorem steady_fresh (around : Surroundings) : Workshop.Steady (fresh around) :=
  steady_rewired (Kernel.new around : Kernel Unit)

/-- Nobody observes a configuration that is empty. -/
theorem onlyRead_empty : Config.empty.OnlyRead := by
  intro path o ho
  exact nomatch ho

/-- After an entry file was added to a fresh kernel, every turn comes behind that addition. -/
theorem Opens.of_fresh {around : Surroundings} {file : String} {first : Option Source}
    {w : Workshop} (h : Opens (fresh around).2 (some file) (.ok first) w) :
    ∃ bag, first = some ⟨entryId, entryPriority, bag⟩ ∧
      ∀ {added : List (Config × Source)} {q : Factory Workshop Bag × Workshop},
        Turns ((fresh around).1, w) added q →
          Gains .empty ((.empty, ⟨entryId, entryPriority, bag⟩) :: added) q.2.config := by
  have hspared := (steady_fresh around).spared
  generalize hr : Except.ok first = r at h
  cases h with
  | @read _ r c hjoin =>
    obtain ⟨hread, hspared'⟩ := respects_readEntry file _ hspared
    have hconfig : (readEntry file (fresh around).2).state.config = .empty := hread
    cases r with
    | error e => exact nomatch hr
    | ok s =>
      -- The configuration is empty until the entry file is added.
      obtain ⟨-, hfree, hwritten⟩ := hjoin.of_ok
      rw [hconfig] at hfree hwritten
      generalize (readEntry file (fresh around).2).result = built at hjoin
      cases hjoin with
      | added =>
        refine ⟨_, Except.ok.inj hr, fun hturns => ?_⟩
        refine Gains.next .start_empty hfree fun hcoherent => ?_
        rw [← hwritten] at hcoherent ⊢
        exact hturns.gains ⟨(steady_fresh around).sources, hspared'.disks, hspared'.parsers⟩ hcoherent

/-- Where a fresh kernel loads an entry file, the sources that it declares are added in ascending
order of ids.  Each is loaded from the view of what was added before it, and from the entry file
itself where nothing else among this says anything about its definition. -/
theorem loads_declared {around : Surroundings} {file : String} {ids : List String}
    (h : (load (some file) (fresh around)).result = .ok ids) :
    ∃ (bag : Bag) (w : Workshop) (added : List (Config × Source)),
      Opens (fresh around).2 (some file) (.ok (some ⟨entryId, entryPriority, bag⟩)) w ∧
      w.config.merged = bag ∧ Defines bag (added.map (·.2.id)) ∧
      ids = entryId :: added.map (·.2.id) ∧
      (load (some file) (fresh around)).state.2.config.registry =
        ⟨⟨entryId, entryPriority, bag⟩ :: added.map Prod.snd, .nil⟩ ∧
      ∀ earlier a later, added = earlier ++ a :: later →
        ∃ q, Turns ((fresh around).1, w) earlier q ∧
          LoadedFrom (Registry.merged
            ⟨⟨entryId, entryPriority, bag⟩ :: earlier.map Prod.snd, .nil⟩) q a.2 ∧
          ((∀ e ∈ earlier, Spares e.2.bag a.2.id) → LoadedFrom bag q a.2) := by
  have hloads := loads_some (sourcing_fresh around) .start_empty file
  rw [h] at hloads
  generalize (load (some file) (fresh around)).state = p', hr : Except.ok ids = r at hloads ⊢
  cases hloads with
  | unopened => exact nomatch hr
  | failed => exact nomatch hr
  | @done first w added p' hopen hids hadded =>
    obtain ⟨bag, rfl, hgains⟩ := hopen.of_fresh
    -- At every turn, the registry holds the entry and what had its turn before.
    have hheld {earlier : List (Config × Source)} {q : Factory Workshop Bag × Workshop}
        (hturns : Turns ((fresh around).1, w) earlier q) :
        q.2.config.registry = ⟨⟨entryId, entryPriority, bag⟩ :: earlier.map Prod.snd, .nil⟩ ∧
          q.2.config.merged = q.2.config.registry.merged :=
      (hgains hturns).registry_of_onlyRead onlyRead_empty
    have hentry : w.config.merged = bag := by
      obtain ⟨hregistry, hmerged⟩ := hheld (.done _)
      exact hmerged.trans (hregistry ▸ Registry.merged_singleton _)
    refine ⟨bag, w, added, hopen, hentry, hentry ▸ hids, Except.ok.inj hr, (hheld hadded).1, ?_⟩
    rintro earlier a later rfl
    obtain ⟨q, hearlier, hlater⟩ := hadded.of_append
    obtain ⟨hregistry, hmerged⟩ := hheld hearlier
    -- No id has two turns, so nothing is kept for this one.
    have hkept : q.1.instances.find? a.2.id = none := by
      refine hearlier.find?_of_forall_ne fun e he heq => ?_
      have hnodup := hids.nodup
      rw [List.map_append, List.nodup_append] at hnodup
      exact hnodup.2.2 _ (List.mem_map_of_mem he) _ List.mem_cons_self heq.symm
    have hloaded : LoadedFrom q.2.config.merged q a.2 := by
      cases hlater with
      | next hturn => exact hturn.loadedFrom (hearlier.sourcing (sourcing_fresh around)) hkept
    rw [hmerged, hregistry] at hloaded
    refine ⟨q, hearlier, hloaded, fun hspares => hloaded.congr fun path hpath => ?_⟩
    have hsilent : ∀ s ∈ earlier.map Prod.snd, s.bag.silent path = true := by
      intro s hs
      obtain ⟨e, he, rfl⟩ := List.mem_map.mp hs
      exact hspares e he path hpath
    rw [← List.singleton_append, Registry.lookup_merged_append hsilent, Registry.merged_singleton]

/-! ## A source that declares another one anew -/

/-- A source that has a priority and can be built is added, if its id is free, before the others
have their turns. -/
theorem addSources_cons_of_built {id : String} {priority : Int32} {bag : Bag} {c : Config}
    (rest : List String) (hpriority : declaredPriority p.2.config.merged id = .ok priority)
    (hget : (Factory.get id p).result = .ok bag)
    (hfree : id ∉ (Factory.get id p).state.2.config.sources.map Prod.fst)
    (hwrite : (Config.write (.addSource id priority bag)
      (Factory.get id p).state.2.config).state = c) :
    let p' := ((Factory.get id p).state.1, { (Factory.get id p).state.2 with config := c })
    (addSources (id :: rest) p).state = (addSources rest p').state ∧
      (addSources (id :: rest) p).result = (addSources rest p').result := by
  obtain ⟨hstate, hresult⟩ := addSource_of_built hpriority hget
  have hok : (Config.write (.addSource id priority bag)
      (Factory.get id p).state.2.config).result = .ok true :=
    (Config.result_request (.write _) _).trans (if_neg hfree)
  rw [hwrite] at hstate
  rw [hok] at hresult
  rw [addSources, Act.state_bind, Act.result_bind, hresult, hstate]
  exact ⟨rfl, rfl⟩

/-- An entry file that can be read is added, if the id of entries is free, before the defined
sources have their turns. -/
theorem load_of_read {file : String} {bag : Bag} {w : Workshop} {c : Config} {ids : List String}
    (hread : (readEntry file p.2).result = .ok bag) (hstate : (readEntry file p.2).state = w)
    (hfree : entryId ∉ w.config.sources.map Prod.fst)
    (hwrite : (Config.write (.addSource entryId entryPriority bag) w.config).state = c)
    (hids : p.1.ids { w with config := c } = ids) :
    (load (some file) p).state = (addSources ids (p.1, { w with config := c })).state ∧
      (load (some file) p).result =
        (addSources ids (p.1, { w with config := c })).result.map fun _ => entryId :: ids := by
  obtain ⟨f, w₀⟩ := p
  have hload : load (some file) (f, w₀) = ((loadEntry file).within Prod.snd (fun w p => (p.1, w))
      >>= fun _ => loadSources >>= fun ids => pure (entryId :: ids)) (f, w₀) := rfl
  obtain ⟨r, c', hjoin, hentry, hresult⟩ := joins_loadEntry file w₀
  rw [hread, hstate] at hjoin
  rw [hstate] at hentry
  cases hjoin with
  -- The id is free, so this cannot have happened.
  | taken htaken => exact absurd htaken hfree
  | added =>
    rw [hwrite] at hentry
    have hopened : ((loadEntry file).within Prod.snd (fun w p => (p.1, w)) (f, w₀)).result =
        .ok () := hresult
    have hafter : ((loadEntry file).within Prod.snd (fun w p => (p.1, w)) (f, w₀)).state =
        (f, { w with config := c }) := congrArg (f, ·) hentry
    obtain ⟨htold, htoldResult⟩ :=
      Act.bind_pure_apply loadSources (entryId :: ·) (f, { w with config := c })
    obtain ⟨hsources, hsourcesResult⟩ := loadSources_apply (f, { w with config := c })
    rw [hids] at hsources hsourcesResult
    rw [hload, Act.state_bind, Act.result_bind, hopened, hafter]
    refine ⟨htold.trans hsources, htoldResult.trans ?_⟩
    rw [hsourcesResult]
    cases (addSources ids (f, { w with config := c })).result <;> rfl

/-- The definitions of two sources of variables.  The first one writes to the definition of the
second one. -/
def redeclaring : Bag := .ofList [("config", .bag (.ofList [("sources", .bag (.ofList [
  ("a", .bag (.ofList [("driver", .string "env"), ("mappings", .bag (.ofList [
    ("M", .string "config.sources.b.mappings.P"), ("P", .string "config.sources.b.priority")])),
    ("priority", .int 10)])),
  ("b", .bag (.ofList [("driver", .string "env"), ("priority", .int 5)]))]))]))]

/-- What the entry file becomes. -/
def redeclaringEntry : Source := ⟨entryId, entryPriority, redeclaring⟩

/-- The first source, which gives mappings and another priority to the second one. -/
def redeclarer : Source := ⟨"a", 10, .ofList [("config", .bag (.ofList [("sources", .bag (.ofList [
  ("b", .bag (.ofList [("mappings", .bag (.ofList [("P", .string "v")])),
    ("priority", .string "50")]))]))]))]⟩

/-- The second source, which is loaded with what the first one gives to it. -/
def redeclared : Source := ⟨"b", 50, .ofList [("v", .string "50")]⟩

/-- A file beside two variables. -/
def beside (content : RawText) : Surroundings where
  files := ⟨fun path => if path = "./config.json" then .ok (.file content) else .error .notFound,
    fun _ => .error .notFound⟩
  environment := [("M", "v"), ("P", "50")]

/-- The file beside the variables is read as what its text denotes, and nothing changes. -/
theorem readEntry_beside {content : RawText} {bag : Bag}
    (h : Parser.json.parse (.file content) = .ok bag) :
    (readEntry "config.json" (fresh (beside content)).2).result = .ok bag ∧
      (readEntry "config.json" (fresh (beside content)).2).state = (fresh (beside content)).2 := by
  have hread : readEntry "config.json" = (do
      let parser ← Workshop.onParsers (Factory.get "json")
      let w ← Act.current
      FileSource.readFrom w.around.files (Disk.directory ".") "config.json" parser) := rfl
  have hparser : Workshop.onParsers (Factory.get "json") (fresh (beside content)).2 =
      ⟨.ok Parser.json, (fresh (beside content)).2, []⟩ := rfl
  rw [hread, Act.result_bind, Act.state_bind, hparser]
  refine ⟨(FileSource.result_readFrom_apply _ _ _ _ _).trans ?_,
    (FileSource.blind_readFrom ..).state _⟩
  exact congrArg (Except.mapError (·.withContext "path" "config.json")) h

/-- The text of the definitions. -/
def redeclaringText : RawText := .ofString (redeclaring.toJson.pretty ++ "\n")

/-- The text denotes the definitions. -/
theorem parse_redeclaringText : Parser.json.parse (.file redeclaringText) = .ok redeclaring := by
  rw [redeclaringText]
  exact Bag.parse_pretty rfl (by decide)

/-- A configuration with one more source, where nobody observes it. -/
def plus (c : Config) (s : Source) : Config := (c.writing s.addition 5).config

/-- Such a source is added by a write whose delivery ends. -/
theorem write_plus {c : Config} {s : Source} (h : (c.writing s.addition 5).stack = []) :
    (Config.write s.addition c).state = plus c s := by
  rw [Config.write_of_stack_eq_nil h, plus]

/-- What a fresh kernel loads the definitions with. -/
def unloaded : Factory Workshop Bag × Workshop := fresh (beside redeclaringText)

/-- The kernel after the entry file was added. -/
def opened : Factory Workshop Bag × Workshop :=
  (unloaded.1, { unloaded.2 with config := plus .empty redeclaringEntry })

/-- The kernel after the first source was added. -/
def halfway : Factory Workshop Bag × Workshop :=
  ((Factory.get "a" opened).state.1, { (Factory.get "a" opened).state.2 with
    config := plus opened.2.config redeclarer })

/-- The first source is built from its mappings. -/
theorem get_opened : (Factory.get "a" opened).result = .ok redeclarer.bag :=
  Bag.eq_ok_of_any rfl (by decide +kernel)

/-- The second source is built from the mappings that the first one gave to it. -/
theorem get_halfway : (Factory.get "b" halfway).result = .ok redeclared.bag :=
  Bag.eq_ok_of_any rfl (by decide +kernel)

/-- Both are listed before the first turn. -/
theorem ids_opened : unloaded.1.ids opened.2 = ["a", "b"] := by decide +kernel

/-- The first source has the priority of the entry file. -/
theorem declaredPriority_opened : declaredPriority opened.2.config.merged "a" = .ok 10 := rfl

/-- The second source has the priority that the first one gave to it. -/
theorem declaredPriority_halfway : declaredPriority halfway.2.config.merged "b" = .ok 50 := rfl

/-- To load is to add the file and the two sources. -/
theorem load_unloaded :
    (load (some "config.json") unloaded).result = .ok ["entry", "a", "b"] ∧
      (load (some "config.json") unloaded).state.2.config.registry.sources =
        [redeclaringEntry, redeclarer, redeclared] := by
  obtain ⟨hread, hstate⟩ := readEntry_beside parse_redeclaringText
  have hentry : (Config.write redeclaringEntry.addition .empty).state =
      plus .empty redeclaringEntry := write_plus rfl
  have hfirst : (Config.write redeclarer.addition opened.2.config).state =
      plus opened.2.config redeclarer := write_plus rfl
  have hsecond : (Config.write redeclared.addition halfway.2.config).state =
      plus halfway.2.config redeclared := write_plus rfl
  -- To build a source of variables leaves the configuration as it is.
  have hopened : Workshop.Steady opened := (steady_fresh _).reconfigured _
  obtain ⟨hbuilt, hsteady⟩ := hopened.get "a"
  have hhalfway : Workshop.Steady halfway := hsteady.reconfigured _
  obtain ⟨hbuilt', -⟩ := hhalfway.get "b"
  obtain ⟨hstate₁, hresult₁⟩ := load_of_read (p := unloaded) hread hstate List.not_mem_nil hentry
    ids_opened
  obtain ⟨hstate₂, hresult₂⟩ := addSources_cons_of_built (p := opened) ["b"]
    (c := plus opened.2.config redeclarer) declaredPriority_opened get_opened
    (by rw [hbuilt]; decide) (by rw [hbuilt]; exact hfirst)
  obtain ⟨hstate₃, hresult₃⟩ := addSources_cons_of_built (p := halfway) []
    (c := plus halfway.2.config redeclared) declaredPriority_halfway get_halfway
    (by rw [hbuilt']; decide) (by rw [hbuilt']; exact hsecond)
  constructor
  · rw [hresult₁]
    exact congrArg (Except.map _) (hresult₂.trans hresult₃)
  · rw [hstate₁]
    exact congrArg (fun p => p.2.config.registry.sources) (hstate₂.trans hstate₃)

/-- The first source is loaded from the entry file.  The second one is not, as the first one says
something about its definition. -/
theorem loads_declared_halfway :
    (load (some "config.json") unloaded).result = .ok ["entry", "a", "b"] ∧
      (∃ q, LoadedFrom redeclaring q redeclarer) ∧
      ∃ q, LoadedFrom (Registry.merged ⟨[redeclaringEntry, redeclarer], .nil⟩) q redeclared := by
  obtain ⟨hresult, hsources⟩ := load_unloaded
  obtain ⟨bag, w, added, -, -, -, -, hregistry, hloaded⟩ := loads_declared hresult
  rw [unloaded, hregistry] at hsources
  have hadded : (⟨entryId, entryPriority, bag⟩ : Source) :: added.map Prod.snd =
      [redeclaringEntry, redeclarer, redeclared] := hsources
  have hbag : bag = redeclaring := congrArg Source.bag (List.cons.inj hadded).1
  rw [hbag] at hloaded
  obtain ⟨a, rest, rfl, ha, hrest⟩ := List.map_eq_cons_iff.mp (List.cons.inj hadded).2
  obtain ⟨b, rest, rfl, hb, hnone⟩ := List.map_eq_cons_iff.mp hrest
  obtain ⟨q, -, -, hdeclared⟩ := hloaded [] a (b :: rest) rfl
  obtain ⟨q', -, hmerged, -⟩ := hloaded [a] b rest rfl
  rw [List.map_cons, ha, hb] at hmerged
  exact ⟨hresult, ⟨q, ha ▸ hdeclared (List.forall_mem_nil _)⟩, q', hmerged⟩

/-- The second source is loaded with the priority and the mappings that the first one gives to it,
none of which is in the entry file. -/
theorem loads_redeclared :
    (load (some "config.json") unloaded).result = .ok ["entry", "a", "b"] ∧
      (load (some "config.json") unloaded).state.2.config.registry.sources =
        [redeclaringEntry, redeclarer, redeclared] ∧
      Ranks redeclaring "b" 5 ∧ redeclared.priority = 50 ∧
      redeclaring.get? "config.sources.b.mappings" = none := by
  obtain ⟨hresult, hsources⟩ := load_unloaded
  exact ⟨hresult, hsources, .set rfl rfl rfl, rfl, rfl⟩

end Loader
end LayeredConfig
