import LayeredConfig.Proofs.Bag.Agreement
import LayeredConfig.Proofs.Loader.Declarations

/-!
# What loading looks at

Sources, disks, parsers and defaults are all defined below two keys of the view, so loading looks at
nothing else: two fresh kernels load alike as long as what they load agrees on these keys.

## Key results

- `Loader.Twins.get`: sources that are got in the same way leave the same behind
- `Loader.Twins.result_get`: and the same comes out where the surroundings are the same
- `Loader.load_alike`: fresh kernels load alike from entry files that agree on two keys
-/

namespace LayeredConfig

namespace Factory

variable {σ ι : Type} {f : Factory σ ι} {id : String} {s t : σ}

/-- Who is called depends on the definition only. -/
theorem commission_congr_definition (h : f.definition id s = f.definition id t) :
    f.commission id s = f.commission id t := by
  simp only [commission, h]

/-- What is left in a factory depends on the definition only, too. -/
theorem Quiet.factory_get_congr (h : f.Quiet) (hsame : f.definition id s = f.definition id t) :
    (get id (f, s)).state.1 = (get id (f, t)).state.1 := by
  rw [factory_get, factory_get, h.result_get_congr hsame]

/-- Factories that differ in nothing but in what they keep. -/
def Matches (fresh f : Factory σ ι) : Prop := f = fresh.keeping f.instances

/-- To get a resource leaves such factories what they are. -/
theorem Matches.get {fresh : Factory σ ι} (h : Matches fresh f) (id : String) (s : σ) :
    Matches fresh (get id (f, s)).state.1 := by
  obtain ⟨m, hm⟩ := factory_get_eq_keeping f s id
  rw [hm]
  exact congrArg (·.keeping m) h

/-- Factories that differ in nothing else find the same definitions. -/
theorem Matches.definition_congr {fresh : Factory σ ι} (h : Matches fresh f)
    (hsame : (fresh.view s).bag? (Path.join fresh.path id) =
      (fresh.view t).bag? (Path.join fresh.path id)) :
    f.definition id s = f.definition id t := by
  rw [h]
  simp only [definition, keeping, hsame]

theorem Matches.creators {fresh : Factory σ ι} (h : Matches fresh f) :
    f.creators = fresh.creators := by
  rw [h]
  rfl

/-- Matching factories call the same creator. -/
theorem Matches.commission {fresh : Factory σ ι} (h : Matches fresh f) (id : String) (s : σ) :
    f.commission id s = fresh.commission id s := by
  rw [h]
  rfl

end Factory

namespace Loader

/-! ## Two keys -/

/-- The keys that loading looks at. -/
def keys : List String := ["config", "filesystem"]

/-- The definition of a source lies below the first of these keys. -/
theorem under_sources (id : String) :
    Path.Under "config" (Path.join Workshop.sourcesPath id) :=
  Path.under_join (p := ⟨"config", ["sources"]⟩) rfl id

variable {q q' : Factory Workshop Bag × Workshop} {id : String} {b b' : Bag}

/-- The priorities that views define depend on these keys alone. -/
theorem declaredPriority_congr (h : b.AgreeOn keys b') (id : String) :
    declaredPriority b id = declaredPriority b' id := by
  -- The priority is part of the definition, whatever the id is made of.
  have hunder : Path.Under "config" ("config.sources." ++ id ++ ".priority") := by
    rw [String.append_assoc]
    exact under_sources (id ++ ".priority")
  rw [declaredPriority, declaredPriority, join_priority, h.get? (by decide) hunder]

/-- So does what a definition of a file source names. -/
theorem named_congr (h : b.AgreeOn keys b') (id : String) (fields : Bag) :
    FileSource.named b id fields = FileSource.named b' id fields := by
  have hdisk : b.string? defaultDiskPath = b'.string? defaultDiskPath :=
    h.string? (by decide) (Path.under_of_parse? (p := ⟨"config", ["default_disk_id"]⟩) rfl)
  have hparser : b.string? defaultParserPath = b'.string? defaultParserPath :=
    h.string? (by decide) (Path.under_of_parse? (p := ⟨"config", ["default_parser_id"]⟩) rfl)
  simp only [FileSource.named, Definition.requireStringOr, Definition.nonEmpty?, Option.bind_some,
    hdisk, hparser]
  rfl

/-! ## Kernels that are wired alike -/

/-- Nothing tells the factories from those of a fresh kernel but what they keep. -/
structure Wired (q : Factory Workshop Bag × Workshop) : Prop where
  sources : Factory.Matches (fresh q.2.around).1 q.1
  disks : Factory.Matches (fresh q.2.around).2.disks q.2.disks
  parsers : Factory.Matches (fresh q.2.around).2.parsers q.2.parsers

/-- A fresh kernel is what it is compared with. -/
theorem wired_fresh (around : Surroundings) : Wired (fresh around) := ⟨rfl, rfl, rfl⟩

/-- The disks of such a kernel are constructed without its configuration. -/
theorem Wired.quiet_disks (h : Wired q) : q.2.disks.Quiet := by
  rw [h.disks]
  exact Kernel.quiet_disks_rewired (Kernel.new q.2.around : Kernel Unit)

theorem Wired.quiet_parsers (h : Wired q) : q.2.parsers.Quiet := by
  rw [h.parsers]
  exact Kernel.quiet_parsers_rewired (Kernel.new q.2.around : Kernel Unit)

/-- The sources of such a kernel leave the configuration alone. -/
theorem Wired.steady (h : Wired q) : Workshop.Steady q where
  sources := by
    rw [h.sources]
    exact (steady_fresh q.2.around).sources
  spared := ⟨h.quiet_disks.respects Eq.refl, h.quiet_parsers.respects Eq.refl⟩

/-- What a configuration becomes is nothing to the factories. -/
theorem Wired.reconfigured (h : Wired q) (config : Config) :
    Wired (q.1, { q.2 with config }) :=
  ⟨h.sources, h.disks, h.parsers⟩

/-- What the definition of a file source names, if that is what is defined. -/
def namedAt (q : Factory Workshop Bag × Workshop) (id : String) : Option FileSource.Names :=
  match q.1.commission id q.2 with
  | .ok (fields, _) =>
    if fields.string? "driver" = some "file" then
      (FileSource.named q.2.config.merged id fields).toOption
    else none
  | .error _ => none

/-- A source that is got leaves its disk and its parser behind, if it names some. -/
theorem Wired.workshop_get (h : Wired q) (hkept : q.1.instances.find? id = none) :
    (Factory.get id q).state.2 = match namedAt q id with
      | none => q.2
      | some n => FileSource.storing q.2 n := by
  obtain ⟨f, w⟩ := q
  rw [Factory.around_get_of_not_kept hkept, Factory.create_apply, namedAt]
  cases hc : f.commission id w with
  | error e => rfl
  | ok c =>
    obtain ⟨fields, creator⟩ := c
    obtain ⟨driver, hdriver, hcreator⟩ := Factory.registered_of_commission hc
    have hfresh : (fresh w.around).1.creators.find? driver = some creator :=
      h.sources.creators ▸ hcreator
    -- Of the two drivers only that of files asks for a disk and a parser.
    by_cases hfile : driver = "file"
    · subst hfile
      have hcreate : (fresh w.around).1.creators.find? "file" = some FileSource.create := rfl
      obtain rfl := Option.some.inj (hcreate.symm.trans hfresh)
      simp only [hdriver, if_true, FileSource.state_create h.quiet_disks h.quiet_parsers]
      cases FileSource.named w.config.merged id fields <;> rfl
    · -- Sources of variables leave nothing behind.
      have henv : creator = EnvSource.creator :=
        (Kernel.creators_rewired (k := (Kernel.new w.around : Kernel Unit)) hfresh).resolve_right
          fun hcreate => hfile hcreate.1
      have hother : fields.string? "driver" ≠ some "file" := by
        rw [hdriver]
        exact fun heq => hfile (Option.some.inj heq)
      simp only [henv, EnvSource.creator_apply, if_neg hother]
      exact (EnvSource.blind_create w.around _).state w

/-- To get a source leaves all factories wired. -/
theorem Wired.get (h : Wired q) (hkept : q.1.instances.find? id = none) :
    Wired (Factory.get id q).state ∧ (Factory.get id q).state.2.around = q.2.around := by
  have hworkshop := h.workshop_get hkept
  have hsources : Factory.Matches (fresh q.2.around).1 (Factory.get id q).state.1 :=
    h.sources.get id q.2
  generalize (Factory.get id q).state = p at hworkshop hsources ⊢
  obtain ⟨f, w⟩ := p
  obtain rfl : w = _ := hworkshop
  -- Whatever was stored, it was stored by getting from factories that stay wired.
  cases namedAt q id with
  | none => exact ⟨⟨hsources, h.disks, h.parsers⟩, rfl⟩
  | some n =>
    simp only [FileSource.storing]
    split
    · exact ⟨⟨hsources, h.disks, h.parsers⟩, rfl⟩
    · exact ⟨⟨hsources, h.disks.get n.diskId _, h.parsers.get n.parserId _⟩, rfl⟩

/-! ## Twins -/

/-- Everything that loading looks at is the same here and there. -/
structure Twins (w w' : Workshop) : Prop where
  view : w.config.merged.AgreeOn keys w'.config.merged
  disks : w.disks = w'.disks
  parsers : w.parsers = w'.parsers
  environment : w.around.environment = w'.around.environment

/-- Twins call the same creator for a source. -/
theorem Twins.commission (h : Twins q.2 q'.2) (hq : Wired q) (hq' : Wired q') (id : String) :
    q.1.commission id q.2 = q'.1.commission id q'.2 := by
  have hbag : q.2.config.merged.bag? (Path.join Workshop.sourcesPath id) =
      q'.2.config.merged.bag? (Path.join Workshop.sourcesPath id) :=
    h.view.bag? (k := "config") (by decide) (under_sources id)
  have hfresh : (fresh q'.2.around).1 = (fresh q.2.around).1 := rfl
  have hsourcing := sourcing_fresh q.2.around
  -- The factory is that of a fresh kernel on both sides, so only the definition is left to compare.
  rw [hq.sources.commission, hq'.sources.commission, hfresh]
  apply Factory.commission_congr_definition
  simp only [Factory.definition, hsourcing.view, hsourcing.path, hbag]

/-- A file source of twins names the same disk and parser. -/
theorem Twins.namedAt (h : Twins q.2 q'.2) (hq : Wired q) (hq' : Wired q') (id : String) :
    namedAt q id = namedAt q' id := by
  simp only [Loader.namedAt, h.commission hq hq' id, named_congr h.view]

/-- Twins define the same disks. -/
theorem Twins.definition_disks (h : Twins q.2 q'.2) (hq : Wired q) (diskId : String) :
    q.2.disks.definition diskId q.2.config = q.2.disks.definition diskId q'.2.config := by
  have hunder : Path.Under "filesystem" (Path.join Disk.path diskId) :=
    Path.under_join (p := ⟨"filesystem", ["disks"]⟩) rfl diskId
  exact hq.disks.definition_congr (h.view.bag? (by decide) hunder)

theorem Twins.definition_parsers (h : Twins q.2 q'.2) (hq : Wired q) (parserId : String) :
    q.2.parsers.definition parserId q.2.config = q.2.parsers.definition parserId q'.2.config := by
  have hunder : Path.Under "config" (Path.join Parser.path parserId) :=
    Path.under_join (p := ⟨"config", ["parsers"]⟩) rfl parserId
  exact hq.parsers.definition_congr (h.view.bag? (by decide) hunder)

/-- File sources leave the same disk and the same parser behind. -/
theorem Twins.storing (h : Twins q.2 q'.2) (hq : Wired q) (n : FileSource.Names) :
    Twins (FileSource.storing q.2 n) (FileSource.storing q'.2 n) := by
  have hdisks := h.definition_disks hq n.diskId
  have hparsers := h.definition_parsers hq n.parserId
  -- What is stored depends on the definitions alone, which agree.
  simp only [FileSource.storing, ← h.disks, ← h.parsers, hq.quiet_disks.result_get_congr hdisks,
    hq.quiet_disks.factory_get_congr hdisks, hq.quiet_parsers.factory_get_congr hparsers]
  split
  · exact h
  · exact ⟨h.view, rfl, rfl, h.environment⟩

/-- Sources that are got here and there leave the same behind. -/
theorem Twins.get (h : Twins q.2 q'.2) (hq : Wired q) (hq' : Wired q')
    (hkept : q.1.instances.find? id = none) (hkept' : q'.1.instances.find? id = none) :
    Twins (Factory.get id q).state.2 (Factory.get id q').state.2 := by
  rw [hq.workshop_get hkept, hq'.workshop_get hkept', ← h.namedAt hq hq' id]
  cases Loader.namedAt q id with
  | none => exact h
  | some n => exact h.storing hq n

/-- Where files and variables are the same, the same comes out. -/
theorem Twins.result_get (h : Twins q.2 q'.2) (hq : Wired q) (hq' : Wired q')
    (hkept : q.1.instances.find? id = none) (hkept' : q'.1.instances.find? id = none)
    (haround : q.2.around = q'.2.around) :
    (Factory.get id q).result = (Factory.get id q').result := by
  obtain ⟨f, w⟩ := q
  obtain ⟨f', w'⟩ := q'
  have hcommission := h.commission hq hq' id
  have hdisks := h.definition_disks hq
  have hparsers := h.definition_parsers hq
  dsimp only at hcommission hdisks hparsers h haround
  rw [Factory.result_get_of_not_kept hkept, Factory.result_get_of_not_kept hkept',
    Factory.create_apply, Factory.create_apply, ← hcommission]
  cases hc : f.commission id w with
  | error e => rfl
  | ok c =>
    obtain ⟨fields, creator⟩ := c
    obtain ⟨driver, -, hcreator⟩ := Factory.registered_of_commission hc
    have hfresh : (fresh w.around).1.creators.find? driver = some creator :=
      hq.sources.creators ▸ hcreator
    rcases Kernel.creators_rewired (k := (Kernel.new w.around : Kernel Unit)) hfresh with
      rfl | ⟨-, rfl⟩
    -- A source of variables reads the surroundings, which are the same.
    · simp only [EnvSource.creator_apply, ← haround]
      exact (EnvSource.blind_create _ _).result _ _
    -- A file source reads its fields, two defaults, two definitions and the file.
    · have hnamed := named_congr h.view id fields
      simp only [FileSource.result_create hq.quiet_disks, FileSource.result_create hq'.quiet_disks,
        ← hnamed]
      refine bind_congr fun n => ?_
      simp only [FileSource.furnished, ← h.disks, ← h.parsers, ← haround,
        hq.quiet_disks.result_get_congr (hdisks n.diskId),
        hq.quiet_parsers.result_get_congr (hparsers n.parserId)]

/-! ## Turns -/

/-- Two results that are alike: both are there and related, or both are the same failure. -/
inductive Alike {α : Type} (R : α → α → Prop) : Except Error α → Except Error α → Prop
  | ok {a a' : α} (h : R a a') : Alike R (.ok a) (.ok a')
  | error (e : Error) : Alike R (.error e) (.error e)

/-- The priority that is read is the one by which the view ranks the source. -/
theorem Ranks.declaredPriority_eq {view : Bag} {priority : Int32} (h : Ranks view id priority) :
    declaredPriority view id = .ok priority := by
  cases h with
  | unset h => simp only [declaredPriority, join_priority, h]
  | @set v i priority h hi hpriority =>
    have hrange : -2147483648 ≤ priority.toInt ∧ priority.toInt < 2147483648 :=
      ⟨priority.le_toInt, priority.toInt_lt⟩
    simp only [declaredPriority, join_priority, h, hi, ← hpriority, if_pos hrange,
      Int32.ofInt_toInt]

/-- What becomes of a source when it has its turn: it has to be ranked, to be built and to have an
id of its own, in this order. -/
def verdict (q : Factory Workshop Bag × Workshop) (id : String) : Except Error Source := do
  let priority ← declaredPriority q.2.config.merged id
  let bag ← (Factory.get id q).result
  if id ∈ q.2.config.sources.map Prod.fst then
    .error (.duplicateResource "config source" id)
  else .ok ⟨id, priority, bag⟩

/-- What becomes of a source in its turn is this verdict. -/
theorem Turn.eq_verdict {r : Except Error Source} {p : Factory Workshop Bag × Workshop}
    (h : Turn id q r p) (hq : Wired q) : r = verdict q id := by
  -- Building the source leaves the configuration alone, so its id is looked for among the same
  -- sources.
  have hconfig := (hq.steady.get id).1
  cases h with
  | unranked hnone =>
    rcases declaredPriority_cases q.2.config.merged id with ⟨priority, -, hranks⟩ | ⟨herror, -⟩
    · exact absurd hranks (hnone priority)
    · rw [verdict, herror]
      rfl
  | ranked hranks hjoin =>
    rw [hconfig] at hjoin
    rw [verdict, hranks.declaredPriority_eq]
    generalize (Factory.get id q).result = built at hjoin ⊢
    cases hjoin with
    | unbuilt e => rfl
    | taken hid => exact (if_pos hid).symm
    | added hid => exact (if_neg hid).symm

/-- A turn leaves the factories wired. -/
theorem Turn.wired {r : Except Error Source} {p : Factory Workshop Bag × Workshop}
    (h : Turn id q r p) (hq : Wired q) (hkept : q.1.instances.find? id = none) : Wired p := by
  cases h with
  | unranked => exact hq
  | ranked => exact (hq.get hkept).1.reconfigured _

/-- Sources that are built alike come to the same. -/
theorem Twins.verdict (h : Twins q.2 q'.2)
    (hsources : q.2.config.sources = q'.2.config.sources)
    (hbuilt : Alike (Bag.AgreeOn keys) (Factory.get id q).result (Factory.get id q').result) :
    Alike (Source.Like keys) (verdict q id) (verdict q' id) := by
  rw [Loader.verdict, Loader.verdict, declaredPriority_congr h.view, hsources]
  generalize (Factory.get id q).result = r, (Factory.get id q').result = r' at hbuilt
  -- Each of the three questions has the same answer on both sides.
  cases declaredPriority q'.2.config.merged id with
  | error e => exact .error e
  | ok priority =>
    cases hbuilt with
    | error e => exact .error e
    | ok hbag =>
      by_cases hid : id ∈ q'.2.config.sources.map Prod.fst
      · simp only [bind, Except.bind, if_pos hid]
        exact .error _
      · simp only [bind, Except.bind, if_neg hid]
        exact .ok ⟨rfl, rfl, hbag⟩

/-! ## All the turns -/

/-- The source `id` has its turn in `q` when an entry file is loaded from `p`. -/
def Comes (file : String) (p : Factory Workshop Bag × Workshop) (id : String)
    (q : Factory Workshop Bag × Workshop) : Prop :=
  ∃ first w added later, Opens p.2 (some file) (.ok first) w ∧
    Defines w.config.merged (added.map (·.2.id) ++ id :: later) ∧ Turns (p.1, w) added q

/-- The source `id` fails in its turn. -/
def FailsAt (file : String) (p : Factory Workshop Bag × Workshop) (id : String) (e : Error) :
    Prop :=
  ∃ q q', Comes file p id q ∧ Turn id q (.error e) q'

/-- One more turn may come behind the others. -/
theorem Turns.snoc {p p' : Factory Workshop Bag × Workshop} {added : List (Config × Source)}
    {s : Source} (h : Turns p added q) (hlast : Turn s.id q (.ok s) p') :
    Turns p (added ++ [(q.2.config, s)]) p' := by
  induction h with
  | done => exact .next hlast (.done p')
  | next hfirst _ ih => exact .next hfirst (ih hlast)

/-- A fresh kernel in the course of loading: an entry file was added, and then other sources. -/
structure Underway (around : Surroundings) (file : String) (bag : Bag)
    (added : List (Config × Source)) (q : Factory Workshop Bag × Workshop) (ids : List String) :
    Prop where
  opened : ∃ w, Opens (fresh around).2 (some file) (.ok (some ⟨entryId, entryPriority, bag⟩)) w ∧
    Defines w.config.merged (added.map (·.2.id) ++ ids) ∧ Turns ((fresh around).1, w) added q
  wired : Wired q

variable {around around' : Surroundings} {file file' : String} {bag bag' : Bag}
  {added added' : List (Config × Source)} {ids : List String}

/-- The view is that of the entry file and of what was added since. -/
theorem Underway.registry (h : Underway around file bag added q ids) :
    q.2.config.registry = ⟨⟨entryId, entryPriority, bag⟩ :: added.map Prod.snd, .nil⟩ ∧
      q.2.config.merged = q.2.config.registry.merged := by
  obtain ⟨w, hopen, -, hturns⟩ := h.opened
  obtain ⟨bag', hfirst, hgains⟩ := hopen.of_fresh
  cases hfirst
  exact (hgains hturns).registry_of_onlyRead onlyRead_empty

/-- The next id is one that has its turn then. -/
theorem Underway.comes (h : Underway around file bag added q (id :: ids)) :
    Comes file (fresh around) id q := by
  obtain ⟨w, hopen, hdefines, hturns⟩ := h.opened
  exact ⟨_, w, added, ids, hopen, hdefines, hturns⟩

/-- A source that did not have its turn yet is not kept. -/
theorem Underway.find?_eq_none (h : Underway around file bag added q (id :: ids)) :
    q.1.instances.find? id = none := by
  obtain ⟨w, hopen, hdefines, hturns⟩ := h.opened
  refine hturns.find?_of_forall_ne fun a ha heq => ?_
  -- The ids are those of one listing, in which none comes twice.
  have hnodup := List.nodup_append.mp hdefines.nodup
  exact hnodup.2.2 _ (List.mem_map_of_mem ha) id List.mem_cons_self heq.symm

/-- After its turn the loading is still underway, with one id less to come. -/
theorem Underway.next {s : Source} {p : Factory Workshop Bag × Workshop}
    (h : Underway around file bag added q (id :: ids)) (hturn : Turn id q (.ok s) p) :
    Underway around file bag (added ++ [(q.2.config, s)]) p ids where
  opened := by
    obtain ⟨w, hopen, hdefines, hturns⟩ := h.opened
    obtain ⟨rfl, -⟩ := hturn.of_ok
    refine ⟨w, hopen, ?_, hturns.snoc hturn⟩
    rwa [List.map_append, List.append_assoc]
  wired := hturn.wired h.wired h.find?_eq_none

/-! ## Two runs -/

/-- Sources that are defined alike, when they have their turns, are built alike. -/
def BuildsAlike (p p' : Factory Workshop Bag × Workshop) (file file' : String) : Prop :=
  ∀ id fields q q', Comes file p id q → Comes file' p' id q' → Twins q.2 q'.2 →
    q.1.definition id q.2 = .ok fields → q'.1.definition id q'.2 = .ok fields →
      Alike (Bag.AgreeOn keys) (Factory.get id q).result (Factory.get id q').result

/-- Two kernels in the course of loading, with additions that are alike. -/
structure Abreast (bag bag' : Bag) (added added' : List (Config × Source)) : Prop where
  entries : bag.AgreeOn keys bag'
  added : List.Forall₂ (fun a a' => Source.Like keys a.2 a'.2) added added'

/-- The sources that were added rank alike and agree on the two keys. -/
theorem Abreast.registry {ids' : List String} (h : Abreast bag bag' added added')
    (hq : Underway around file bag added q ids)
    (hq' : Underway around' file' bag' added' q' ids') :
    List.Forall₂ (Source.Like keys) q.2.config.registry.sources q'.2.config.registry.sources := by
  rw [hq.registry.1, hq'.registry.1]
  refine .cons ⟨rfl, rfl, h.entries⟩ ?_
  rw [List.forall₂_map_left_iff, List.forall₂_map_right_iff]
  exact h.added

/-- The views agree on the two keys where the sources that were added do. -/
theorem Abreast.view {ids' : List String} (h : Abreast bag bag' added added')
    (hq : Underway around file bag added q ids)
    (hq' : Underway around' file' bag' added' q' ids') :
    q.2.config.merged.AgreeOn keys q'.2.config.merged := by
  have hsources := h.registry hq hq'
  rw [hq.registry.2, hq'.registry.2]
  refine Registry.agreeOn_merged hsources ?_
  rw [hq.registry.1, hq'.registry.1]
  exact .refl keys .nil

/-- A source that is defined here and there, or neither here nor there, is built alike. -/
theorem BuildsAlike.get (h : BuildsAlike (fresh around) (fresh around') file file')
    (hq : Underway around file bag added q (id :: ids))
    (hq' : Underway around' file' bag' added' q' (id :: ids)) (htwins : Twins q.2 q'.2) :
    Alike (Bag.AgreeOn keys) (Factory.get id q).result (Factory.get id q').result := by
  have hcommission := htwins.commission hq.wired hq'.wired id
  cases hc : q.1.commission id q.2 with
  | error e =>
    -- Where nobody is to be called, the failure is that of the definition, which is the same.
    have hresult : ∀ {q : Factory Workshop Bag × Workshop}, q.1.instances.find? id = none →
        q.1.commission id q.2 = .error e → (Factory.get id q).result = .error e := by
      intro q hkept hc
      obtain ⟨f, w⟩ := q
      rw [Factory.result_get_of_not_kept hkept, Factory.create_apply, hc]
    rw [hresult hq.find?_eq_none hc, hresult hq'.find?_eq_none (hcommission ▸ hc)]
    exact .error e
  | ok c =>
    obtain ⟨fields, creator⟩ := c
    obtain ⟨hfields, -⟩ := Factory.commission_eq_ok_iff.mp hc
    obtain ⟨hfields', -⟩ := Factory.commission_eq_ok_iff.mp (hcommission ▸ hc)
    exact h id fields q q' hq.comes hq'.comes htwins hfields hfields'

/-- Sources that are added alike leave twins behind. -/
theorem Twins.turn {s s' : Source} {p p' : Factory Workshop Bag × Workshop}
    (h : Twins q.2 q'.2) (hturn : Turn id q (.ok s) p) (hturn' : Turn id q' (.ok s') p')
    (hq : Wired q) (hq' : Wired q') (hkept : q.1.instances.find? id = none)
    (hkept' : q'.1.instances.find? id = none)
    (hview : p.2.config.merged.AgreeOn keys p'.2.config.merged) : Twins p.2 p'.2 := by
  have hgot := h.get hq hq' hkept hkept'
  cases hturn with
  | ranked =>
    cases hturn' with
    | ranked => exact ⟨hview, hgot.disks, hgot.parsers, hgot.environment⟩

/-- All sources are added alike, or the same one fails here and there. -/
theorem Abreast.addSources (h : Abreast bag bag' added added')
    (hq : Underway around file bag added q ids)
    (hq' : Underway around' file' bag' added' q' ids) (htwins : Twins q.2 q'.2)
    (hbuilds : BuildsAlike (fresh around) (fresh around') file file') :
    ((addSources ids q).result = .ok () ∧ (addSources ids q').result = .ok () ∨
        ∃ id e, FailsAt file (fresh around) id e ∧ FailsAt file' (fresh around') id e ∧
          (addSources ids q).result = .error e ∧ (addSources ids q').result = .error e) ∧
      (addSources ids q).state.2.config.sources = (addSources ids q').state.2.config.sources := by
  -- The invariant is that both are underway, abreast of each other, and twins.
  induction ids generalizing added added' q q' with
  | nil => exact ⟨.inl ⟨rfl, rfl⟩, Config.sources_congr (h.registry hq hq')⟩
  | cons id rest ih =>
    have hsources := Config.sources_congr (h.registry hq hq')
    obtain ⟨r, hturn, hresult⟩ := turn_addSource id q
    obtain ⟨r', hturn', hresult'⟩ := turn_addSource id q'
    have halike := htwins.verdict hsources (hbuilds.get hq hq' htwins)
    rw [← hturn.eq_verdict hq.wired, ← hturn'.eq_verdict hq'.wired] at halike
    rw [Loader.addSources, Act.result_bind, Act.state_bind, Act.result_bind, Act.state_bind,
      hresult, hresult']
    cases halike with
    | error e =>
      refine ⟨.inr ⟨id, e, ⟨q, _, hq.comes, hturn⟩, ⟨q', _, hq'.comes, hturn'⟩, rfl, rfl⟩, ?_⟩
      simp only [Except.map]
      rw [hturn.config_of_error hq.wired.steady, hturn'.config_of_error hq'.wired.steady]
      exact hsources
    | @ok s s' hlike =>
      have hnext := hq.next hturn
      have hnext' := hq'.next hturn'
      have habreast : Abreast bag bag' (added ++ [(q.2.config, s)])
          (added' ++ [(q'.2.config, s')]) :=
        ⟨h.entries, List.rel_append h.added (.cons hlike .nil)⟩
      exact ih habreast hnext hnext' (htwins.turn hturn hturn' hq.wired hq'.wired
        hq.find?_eq_none hq'.find?_eq_none (habreast.view hnext hnext'))

/-! ## Fresh kernels -/

/-- The parsers for entry files are there from the start. -/
theorem onParsers_fresh {extension parserId : String}
    (h : Parser.ofExtension? extension = some parserId) (around : Surroundings) :
    ∃ parser, Workshop.onParsers (Factory.get parserId) (fresh around).2 =
      ⟨.ok parser, (fresh around).2, []⟩ := by
  -- There are as many cases as extensions, and two parsers that are kept from the start.
  simp only [Parser.ofExtension?] at h
  split at h
  · obtain rfl := Option.some.inj h
    exact ⟨Parser.json, rfl⟩
  · obtain rfl := Option.some.inj h
    exact ⟨Parser.yaml, rfl⟩
  · obtain rfl := Option.some.inj h
    exact ⟨Parser.yaml, rfl⟩
  · exact nomatch h

/-- So to read an entry file leaves a fresh kernel as it is. -/
theorem state_readEntry_fresh (file : String) (around : Surroundings) :
    (readEntry file (fresh around).2).state = (fresh around).2 := by
  unfold readEntry
  cases FilePath.name? file with
  | none => rfl
  | some name =>
    cases hparser : (FilePath.extension? file).bind Parser.ofExtension? with
    | none => rfl
    | some parserId =>
      obtain ⟨extension, -, hextension⟩ := Option.bind_eq_some_iff.mp hparser
      obtain ⟨parser, hget⟩ := onParsers_fresh hextension around
      simp only [Act.state_bind, hget]
      exact (FileSource.blind_readFrom ..).state _

/-- A fresh kernel to which an entry file was added. -/
def begun (around : Surroundings) (bag : Bag) : Factory Workshop Bag × Workshop :=
  ((fresh around).1, { (fresh around).2 with
    config := (Config.write (.addSource entryId entryPriority bag) .empty).state })

/-- The ids under which the entry file defines sources. -/
def begunIds (around : Surroundings) (bag : Bag) : List String :=
  (begun around bag).1.ids (begun around bag).2

/-- Once the entry file was added the loading is underway. -/
theorem underway_begun (hread : (readEntry file (fresh around).2).result = .ok bag) :
    Underway around file bag [] (begun around bag) (begunIds around bag) where
  opened := by
    have hjoin : Joins (readEntry file (fresh around).2).state.config entryId entryPriority
        (readEntry file (fresh around).2).result (.ok ⟨entryId, entryPriority, bag⟩)
        (begun around bag).2.config := by
      rw [hread, state_readEntry_fresh]
      exact .added List.not_mem_nil
    -- Reading the file has left the kernel fresh, so the entry is added to an empty configuration.
    have hopen := Opens.read hjoin
    rw [state_readEntry_fresh] at hopen
    exact ⟨_, hopen, defines_ids (sourcing_fresh around), .done _⟩
  wired := (wired_fresh around).reconfigured _

/-- To load is then to add the sources that are defined. -/
theorem load_eq_addSources (hread : (readEntry file (fresh around).2).result = .ok bag) :
    (load (some file) (fresh around)).state =
        (addSources (begunIds around bag) (begun around bag)).state ∧
      (load (some file) (fresh around)).result =
        (addSources (begunIds around bag) (begun around bag)).result.map
          fun _ => entryId :: begunIds around bag :=
  load_of_read hread (state_readEntry_fresh file around) List.not_mem_nil rfl rfl

/-- Fresh kernels are twins once entry files were added that agree. -/
theorem twins_begun (hagree : bag.AgreeOn keys bag')
    (henvironment : around.environment = around'.environment)
    (hread : (readEntry file (fresh around).2).result = .ok bag)
    (hread' : (readEntry file' (fresh around').2).result = .ok bag') :
    Twins (begun around bag).2 (begun around' bag').2 where
  view := Abreast.view ⟨hagree, .nil⟩ (underway_begun hread) (underway_begun hread')
  disks := rfl
  parsers := rfl
  environment := henvironment

/-- Views that agree define sources under the same ids. -/
theorem begunIds_congr (h : Twins (begun around bag).2 (begun around' bag').2) :
    begunIds around bag = begunIds around' bag' := by
  have hsourcing := sourcing_fresh around
  have hsourcing' := sourcing_fresh around'
  have hunder : Path.Under "config" Workshop.sourcesPath :=
    Path.under_of_parse? (p := ⟨"config", ["sources"]⟩) rfl
  have hbag := h.view.bag? (by decide) hunder
  simp only [begun] at hbag
  simp only [begunIds, begun, Factory.ids, hsourcing.view, hsourcing.path, hsourcing'.view,
    hsourcing'.path, hbag]

/-- Turns of sources that are not kept leave the factories wired. -/
theorem Turns.wired {p : Factory Workshop Bag × Workshop} (h : Turns p added q) (hp : Wired p)
    (hnodup : (added.map (·.2.id)).Nodup)
    (hkept : ∀ a ∈ added, p.1.instances.find? a.2.id = none) :
    Wired q ∧ q.2.around = p.2.around := by
  induction h with
  | done => exact ⟨hp, rfl⟩
  | @next p p' q s added hturn _ ih =>
    obtain ⟨hfirst, hothers⟩ := List.forall_mem_cons.mp hkept
    obtain ⟨hid, hrest⟩ := List.nodup_cons.mp hnodup
    have haround : p'.2.around = p.2.around := by
      cases hturn with
      | ranked => exact (hp.get hfirst).2
    refine (ih (hturn.wired hp hfirst) hrest fun a ha => ?_).imp id (·.trans haround)
    -- The ids of later turns are others, so nothing is kept for them after this one.
    have hne : a.2.id ≠ s.id := fun heq => hid (List.mem_map.mpr ⟨a, ha, heq⟩)
    exact (hturn.find?_of_ne hne).trans (hothers a ha)

/-- To add an entry file changes nothing of a fresh kernel but its configuration. -/
theorem Opens.eq_fresh {r : Except Error (Option Source)} {w : Workshop}
    (h : Opens (fresh around).2 (some file) r w) : ∃ c, w = { (fresh around).2 with config := c } := by
  cases h with
  | @read _ r c hjoin => exact ⟨c, by rw [state_readEntry_fresh]⟩

/-- A source has its turn while the loading is underway, in surroundings that nobody changes. -/
theorem Comes.underway (h : Comes file (fresh around) id q) :
    (∃ bag added ids, Underway around file bag added q (id :: ids)) ∧ q.2.around = around := by
  obtain ⟨first, w, added, later, hopen, hdefines, hturns⟩ := h
  obtain ⟨bag, rfl, -⟩ := hopen.of_fresh
  obtain ⟨c, hw⟩ := hopen.eq_fresh
  have hnodup := hdefines.nodup
  rw [List.nodup_append] at hnodup
  have hwired : Wired ((fresh around).1, w) := hw ▸ (wired_fresh around).reconfigured c
  obtain ⟨hq, haround⟩ := hturns.wired hwired hnodup.1 fun _ _ => rfl
  refine ⟨⟨bag, added, later, ⟨w, hopen, hdefines, hturns⟩, hq⟩, haround.trans ?_⟩
  rw [hw]
  rfl

/-- In the same surroundings, the same sources are built. -/
theorem buildsAlike_same (around : Surroundings) (file file' : String) :
    BuildsAlike (fresh around) (fresh around) file file' := by
  intro id fields q q' hcomes hcomes' htwins _ _
  obtain ⟨⟨bag, added, ids, hq⟩, haround⟩ := hcomes.underway
  obtain ⟨⟨bag', added', ids', hq'⟩, haround'⟩ := hcomes'.underway
  rw [htwins.result_get hq.wired hq'.wired hq.find?_eq_none hq'.find?_eq_none
    (haround.trans haround'.symm)]
  cases (Factory.get id q').result with
  | error e => exact .error e
  | ok b => exact .ok (.refl keys b)

/-- Two fresh kernels load alike from entry files that agree on the two keys, as long as the sources
that these declare are built alike: either all are added, under the same ids and in the same merge
order, or the same one fails with the same error. -/
theorem load_alike (henvironment : around.environment = around'.environment)
    (hread : (readEntry file (fresh around).2).result = .ok bag)
    (hread' : (readEntry file' (fresh around').2).result = .ok bag')
    (hagree : bag.AgreeOn keys bag')
    (hbuilds : BuildsAlike (fresh around) (fresh around') file file') :
    ((∃ ids, (load (some file) (fresh around)).result = .ok ids ∧
          (load (some file') (fresh around')).result = .ok ids) ∨
        ∃ id e, FailsAt file (fresh around) id e ∧ FailsAt file' (fresh around') id e ∧
          (load (some file) (fresh around)).result = .error e ∧
          (load (some file') (fresh around')).result = .error e) ∧
      (load (some file) (fresh around)).state.2.config.sources =
        (load (some file') (fresh around')).state.2.config.sources := by
  -- After the entry files the two are twins and list the same ids, and then they go on abreast.
  have htwins := twins_begun hagree henvironment hread hread'
  have hids := begunIds_congr htwins
  have hq' := underway_begun hread'
  rw [← hids] at hq'
  obtain ⟨hstate, hresult⟩ := load_eq_addSources hread
  obtain ⟨hstate', hresult'⟩ := load_eq_addSources hread'
  rw [← hids] at hstate' hresult'
  obtain ⟨hruns, hsources⟩ :=
    Abreast.addSources ⟨hagree, .nil⟩ (underway_begun hread) hq' htwins hbuilds
  rw [hstate, hstate', hresult, hresult']
  refine ⟨?_, hsources⟩
  rcases hruns with ⟨hdone, hdone'⟩ | ⟨id, e, hfails, hfails', herror, herror'⟩
  · rw [hdone, hdone']
    exact .inl ⟨_, rfl, rfl⟩
  · rw [herror, herror']
    exact .inr ⟨id, e, hfails, hfails', rfl, rfl⟩

/-- A source of a variable beside something that no loading looks at. -/
def document (other : Value) : Bag := .ofList [("app", other), ("config", .bag (.ofList [
  ("sources", .bag (.ofList [("s", .bag (.ofList [("driver", .string "env"),
    ("mappings", .bag (.ofList [("M", .string "v")])), ("priority", .int (-3))]))]))]))]

/-- The text of such a document. -/
def text (other : Value) : RawText := .ofString ((document other).toJson.pretty ++ "\n")

/-- Two entry files with this source, beside the variable. -/
def twoEntries : Surroundings where
  files :=
    { openAt := fun path =>
        if path = "./a.json" then .ok (.file (text (.int 1)))
        else if path = "./b.json" then .ok (.file (text (.list [.null])))
        else .error .notFound
      appendAt := fun _ => .error .notFound }
  environment := [("M", "x")]

theorem parse_text_int : Parser.json.parse (.file (text (.int 1))) = .ok (document (.int 1)) := by
  rw [text]
  exact Bag.parse_pretty rfl (by decide)

theorem parse_text_list :
    Parser.json.parse (.file (text (.list [.null]))) = .ok (document (.list [.null])) := by
  rw [text]
  exact Bag.parse_pretty rfl (by decide)

/-- A file beside these is read as the document it holds. -/
theorem readEntry_twoEntries {file : String} {other : Value}
    (hread : readEntry file = (do
      let parser ← Workshop.onParsers (Factory.get "json")
      let w ← Act.current
      FileSource.readFrom w.around.files (Disk.directory ".") file parser))
    (hopen : (Disk.directory ".").openAt twoEntries.files file = .ok (.file (text other)))
    (hparse : Parser.json.parse (.file (text other)) = .ok (document other)) :
    (readEntry file (fresh twoEntries).2).result = .ok (document other) := by
  have hparser : Workshop.onParsers (Factory.get "json") (fresh twoEntries).2 =
      ⟨.ok Parser.json, (fresh twoEntries).2, []⟩ := rfl
  rw [hread, Act.result_bind, hparser]
  refine (FileSource.result_readFrom_apply twoEntries.files _ _ _ _).trans ?_
  simp only [hopen, bind, Except.bind, hparse, Except.mapError]

/-- Whatever else the two files hold, loading comes to the same. -/
theorem load_alike_twoEntries :
    (document (.int 1)).AgreeOn keys (document (.list [.null])) ∧
      (load (some "a.json") (fresh twoEntries)).result =
        (load (some "b.json") (fresh twoEntries)).result ∧
      (load (some "a.json") (fresh twoEntries)).state.2.config.sources =
        (load (some "b.json") (fresh twoEntries)).state.2.config.sources := by
  have hread : (readEntry "a.json" (fresh twoEntries).2).result = .ok (document (.int 1)) :=
    readEntry_twoEntries rfl rfl parse_text_int
  have hread' : (readEntry "b.json" (fresh twoEntries).2).result =
      .ok (document (.list [.null])) := readEntry_twoEntries rfl rfl parse_text_list
  have hagree : (document (.int 1)).AgreeOn keys (document (.list [.null])) := by
    intro k hk
    rcases List.mem_pair.mp hk with rfl | rfl <;> rfl
  obtain ⟨hruns, hsources⟩ :=
    load_alike rfl hread hread' hagree (buildsAlike_same twoEntries "a.json" "b.json")
  refine ⟨hagree, ?_, hsources⟩
  rcases hruns with ⟨ids, hdone, hdone'⟩ | ⟨id, e, -, -, herror, herror'⟩
  · rw [hdone, hdone']
  · rw [herror, herror']

end Loader
end LayeredConfig
