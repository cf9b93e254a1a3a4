import LayeredConfig.Kernel
import LayeredConfig.Proofs.Loader.Declarations
import LayeredConfig.Proofs.Log.Attaching
import LayeredConfig.Proofs.Log.Levels

/-!
# Booting a kernel

The streams are attached after all sources were added, so they are those that the view defines in
the end.

## Key results

- `Kernel.boot_eq_ok_iff`: a kernel boots if it can be loaded and its streams can be attached
- `Kernel.ids_boot`: those are attached that the configuration defines then
- `Kernel.attached`: what attaching comes to, for any logger and for a kernel that boots
-/

namespace LayeredConfig.Kernel

variable {σ : Type} {k : Kernel σ} {entry : Option String} {report : BootReport}

/-- A kernel boots exactly if its sources can be loaded and its streams can be attached then. -/
theorem boot_eq_ok_iff : (boot entry k).result = .ok report ↔
    (onSources (Loader.load entry) k).result = .ok report.sources ∧
      (onLogger Logger.attachConfigured (onSources (Loader.load entry) k).state).result =
        .ok report.streams := by
  constructor
  · intro h
    -- Both steps went well, and the report only tells what they came to.
    obtain ⟨sources, hload, hrest, -⟩ := Act.ok_of_bind h
    obtain ⟨streams, hattach, hreport, -⟩ := Act.ok_of_bind hrest
    obtain rfl := Except.ok.inj hreport
    exact ⟨hload, hattach⟩
  · rintro ⟨hload, hattach⟩
    rw [boot, Act.result_bind, hload]
    refine (Act.result_bind _ _ _).trans ?_
    rw [hattach]
    rfl

/-- Nothing is changed after the streams were attached. -/
theorem state_boot_of_loaded {sources : List String}
    (h : (onSources (Loader.load entry) k).result = .ok sources) : (boot entry k).state =
      (onLogger Logger.attachConfigured (onSources (Loader.load entry) k).state).state := by
  rw [boot, Act.state_bind, h]
  exact Act.state_bind_of_blind
    (fun _ => (Act.blind_report _ _ _).bind fun _ => Act.blind_pure _) _ _

/-- No driver of streams touches the configuration. -/
theorem respects_streams (around : Surroundings) :
    (new around : Kernel σ).streams.Respects Eq := by
  intro driver creator h id fields c
  have hfind := (Entries.find?_insert .nil "console" Stream.consoleCreator driver).symm.trans h
  split at hfind
  · obtain rfl := Option.some.inj hfind
    rw [Console.consoleCreator_apply]
  · exact nomatch hfind

/-- When a fresh kernel has booted, the streams are attached that its configuration defines then. -/
theorem ids_boot {around : Surroundings}
    (h : (boot entry (new around : Kernel σ)).result = .ok report) :
    let k := (boot entry (new around : Kernel σ)).state
    k.logger.ids = (new around : Kernel σ).streams.ids k.workshop.config ∧
      report.streams = k.logger.ids.length := by
  obtain ⟨hload, hattach⟩ := boot_eq_ok_iff.mp h
  rw [state_boot_of_loaded hload]
  -- To load leaves the streams and the logger as they were wired.
  generalize hk : (onSources (Loader.load entry) (new around : Kernel σ)).state = k at hattach ⊢
  obtain ⟨hstreams, hlogger⟩ :
      k.streams = (new around).streams ∧ k.logger.streams = .nil := hk ▸ ⟨rfl, rfl⟩
  have hattaches := k.logger.attaches_attachConfigured (k.streams, k.workshop.config)
  have hresult : (Logger.attachConfigured (k.logger, k.streams, k.workshop.config)).result =
      .ok report.streams := hattach
  rw [hresult] at hattaches
  obtain ⟨hids, hlength⟩ := hattaches.ids_eq hlogger
  -- To build them leaves the configuration as it was when they were listed.
  have hconfig : (onLogger Logger.attachConfigured k).state.workshop.config = k.workshop.config :=
    hattaches.around_eq (hstreams ▸ respects_streams around)
  refine ⟨?_, hlength⟩
  rw [hconfig, ← hstreams]
  exact hids

/-- What to attach the defined streams comes to.  When a fresh kernel has booted, those are attached
that the view of all its sources defines. -/
theorem attached {τ : Type} (l : Logger σ) (p : Factory τ (Stream σ) × τ) (around : Surroundings)
    (entry : Option String) :
    (p.1.ids p.2).Pairwise (· < ·) ∧
      l.Attaches p (Logger.attachConfigured (l, p)).result (Logger.attachConfigured (l, p)).state
        (l.constructions p) ∧
      ∀ report, (boot entry (new around : Kernel σ)).result = .ok report →
        let k := (boot entry (new around : Kernel σ)).state
        k.logger.ids.Pairwise (· < ·) ∧ report.streams = k.logger.ids.length ∧
          ∀ id, id ∈ k.logger.ids ↔ ∃ entries fields,
            k.workshop.config.merged.bag? "log.streams" = some entries ∧
              entries.find? id = some (.bag fields) := by
  refine ⟨Factory.pairwise_lt_ids p.1 p.2, l.attaches_attachConfigured p, fun report h => ?_⟩
  -- What is attached is what is listed, and to be listed is to be defined in the view.
  obtain ⟨hids, hlength⟩ := ids_boot h
  refine ⟨Entries.pairwise_lt_keys _, hlength, fun id => ?_⟩
  rw [hids]
  exact Factory.mem_ids_iff

/-! ## Two streams -/

/-- A fresh kernel beside an entry file that defines no sources boots with the file alone. -/
theorem boot_beside {content : RawText} {bag : Bag} {c : Config} {n : Nat}
    (h : Parser.json.parse (.file content) = .ok bag)
    (hwrite : (Config.write (.addSource Loader.entryId Loader.entryPriority bag) .empty).state = c)
    (hids : (Loader.fresh (Loader.beside content)).1.ids
      { (Loader.fresh (Loader.beside content)).2 with config := c } = [])
    (hattach : (onLogger Logger.attachConfigured
      ((new (Loader.beside content) : Kernel Unit).reconfigured c)).result = .ok n) :
    (boot (some "config.json") (new (Loader.beside content) : Kernel Unit)).result =
        .ok ⟨["entry"], n⟩ ∧
      (boot (some "config.json") (new (Loader.beside content) : Kernel Unit)).state =
        (onLogger Logger.attachConfigured ((new (Loader.beside content)).reconfigured c)).state := by
  obtain ⟨hread, hstate⟩ := Loader.readEntry_beside h
  obtain ⟨hloaded, hresult⟩ := Loader.load_of_read (p := Loader.fresh (Loader.beside content))
    hread hstate List.not_mem_nil hwrite hids
  have hload : (onSources (Loader.load (some "config.json"))
      (new (Loader.beside content) : Kernel Unit)).result = .ok ["entry"] := hresult
  -- Loading changes the configuration and nothing else, as no source is kept.
  have hafter : (onSources (Loader.load (some "config.json"))
      (new (Loader.beside content) : Kernel Unit)).state =
        (new (Loader.beside content)).reconfigured c :=
    congrArg (fun p => { (new (Loader.beside content) : Kernel Unit) with
      sources := p.1, workshop := p.2 }) hloaded
  refine ⟨boot_eq_ok_iff.mpr ⟨hload, ?_⟩, ?_⟩
  · rw [hafter, hattach]
  · rw [state_boot_of_loaded hload, hafter]

/-- The definitions of two streams, beside an entry that defines none. -/
def streaming : Bag := .ofList [("log", .bag (.ofList [("streams", .bag (.ofList [
  ("a", .bag (.ofList [("driver", .string "console")])),
  ("b", .bag (.ofList [("driver", .string "console"), ("level", .string "error")])),
  ("c", .string "console")]))]))]

/-- The text of the definitions. -/
def streamingText : RawText := .ofString (streaming.toJson.pretty ++ "\n")

/-- The text denotes the definitions. -/
theorem parse_streamingText : Parser.json.parse (.file streamingText) = .ok streaming := by
  rw [streamingText]
  exact Bag.parse_pretty rfl (by decide)

/-- What the entry file becomes. -/
def streamingEntry : Source := ⟨Loader.entryId, Loader.entryPriority, streaming⟩

/-- The kernel once the file was added. -/
def loaded : Kernel Unit :=
  (new (Loader.beside streamingText)).reconfigured (Loader.plus .empty streamingEntry)

/-- The two streams that are defined as bags are attached. -/
theorem attach_loaded : (onLogger Logger.attachConfigured loaded).result = .ok 2 := by
  have hsome : (onLogger Logger.attachConfigured loaded).result.toOption = some 2 := by
    decide +kernel
  -- Results cannot be compared by evaluation, but the numbers in them can.
  generalize (onLogger Logger.attachConfigured loaded).result = r at hsome
  cases r with
  | error e => exact nomatch hsome
  | ok n => exact congrArg Except.ok (Option.some.inj hsome)

/-- The entry that defines no stream is passed over. -/
theorem attached_loaded :
    let o := boot (some "config.json") (new (Loader.beside streamingText) : Kernel Unit)
    o.result = .ok ⟨["entry"], 2⟩ ∧ o.state.logger.ids = ["a", "b"] ∧
      ∀ id, id ∈ o.state.logger.ids ↔ ∃ entries fields,
        o.state.workshop.config.merged.bag? "log.streams" = some entries ∧
          entries.find? id = some (.bag fields) := by
  have hwrite : (Config.write streamingEntry.addition .empty).state =
      Loader.plus .empty streamingEntry := Loader.write_plus rfl
  obtain ⟨hresult, hstate⟩ :=
    boot_beside parse_streamingText hwrite (by decide +kernel) attach_loaded
  obtain ⟨-, -, hbooted⟩ := attached (τ := Config) (.empty : Logger Unit) (Stream.factory, .empty)
    (Loader.beside streamingText) (some "config.json")
  refine ⟨hresult, ?_, (hbooted _ hresult).2.2⟩
  have hids : (onLogger Logger.attachConfigured loaded).state.logger.ids = ["a", "b"] := by
    decide +kernel
  exact (congrArg (fun k => k.logger.ids) hstate).trans hids

end LayeredConfig.Kernel
