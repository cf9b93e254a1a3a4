import LayeredConfig.Kernel
import LayeredConfig.Proofs.Delivery.Trace
import LayeredConfig.Proofs.Source.Construction

/-!
# Trying again after a failure

A source that could not be constructed is constructed anew the next time.  What the failed attempt
leaves behind are the disk and the parser that it got, since factories keep what they construct.
Nothing else tells the kernel from one that is wired afresh over the same configuration.

## Key results

- `Kernel.leftovers_fail`: what a failed attempt leaves behind
- `Kernel.retried`: what comes of the next attempt
-/

namespace LayeredConfig.Kernel

variable {σ : Type} {k k₀ : Kernel σ} {id : String}

/-- Get a source. -/
def source (id : String) : Act (Kernel σ) Bag := onSources (Factory.get id)

/-- The kernel over another configuration. -/
def reconfigured (k : Kernel σ) (config : Config) : Kernel σ :=
  { k with workshop := { k.workshop with config } }

/-- A kernel that is wired afresh over the configuration and the surroundings of another. -/
def rewired (k : Kernel σ) : Kernel σ := (new k.workshop.around).reconfigured k.workshop.config

/-- What may happen while sources cannot be constructed, from one kernel on: the configuration and
the surroundings change, and attempts fail. -/
inductive Struggles (k₀ : Kernel σ) : Kernel σ → Prop
  | start : Struggles k₀ k₀
  | configure {α : Type} {k : Kernel σ} (h : Struggles k₀ k) (x : Act Config α) :
      Struggles k₀ (onConfig x k).state
  | surround {k : Kernel σ} (h : Struggles k₀ k) (around : Surroundings) :
      Struggles k₀ { k with workshop := { k.workshop with around } }
  | fail {k : Kernel σ} (h : Struggles k₀ k) {id : String} {e : Error}
      (hfail : (source id k).result = .error e) : Struggles k₀ (source id k).state

/-! ## A fresh kernel -/

/-- Fresh kernels have the same disks and the same parsers, whatever they are made over. -/
theorem disks_rewired (k k' : Kernel σ) :
    k.rewired.workshop.disks = k'.rewired.workshop.disks := rfl

theorem parsers_rewired (k k' : Kernel σ) :
    k.rewired.workshop.parsers = k'.rewired.workshop.parsers := rfl

theorem config_rewired (k : Kernel σ) : k.rewired.workshop.config = k.workshop.config := rfl

theorem around_rewired (k : Kernel σ) : k.rewired.workshop.around = k.workshop.around := rfl

/-- Sources are defined by the view of the configuration. -/
theorem view_rewired (k : Kernel σ) (w : Workshop) :
    k.rewired.sources.view w = w.config.merged := rfl

/-- No driver of disks that is wired touches the configuration. -/
theorem quiet_disks_rewired (k : Kernel σ) : k.rewired.workshop.disks.Quiet := by
  intro driver creator h id fields
  have hfind := (Entries.find?_insert .nil "local" Disk.localCreator driver).symm.trans h
  split at hfind
  · obtain rfl := Option.some.inj hfind
    exact Act.blind_pure _
  · exact nomatch hfind

/-- No driver of parsers that is wired touches the configuration. -/
theorem quiet_parsers_rewired (k : Kernel σ) : k.rewired.workshop.parsers.Quiet := by
  intro driver creator h id fields
  have hyaml := (Entries.find?_insert _ "yaml" (fun _ _ => pure Parser.yaml) driver).symm.trans h
  split at hyaml
  · obtain rfl := Option.some.inj hyaml
    exact Act.blind_pure _
  · have hjson :=
      (Entries.find?_insert _ "json" (fun _ _ => pure Parser.json) driver).symm.trans hyaml
    split at hjson
    · obtain rfl := Option.some.inj hjson
      exact Act.blind_pure _
    · exact nomatch hjson

/-- The creators of sources are those of variables and of files. -/
theorem creators_rewired {k : Kernel σ} {driver : String} {creator : Creator Workshop Bag}
    (h : k.rewired.sources.creators.find? driver = some creator) :
    creator = EnvSource.creator ∨ driver = "file" ∧ creator = FileSource.create := by
  have hfile := (Entries.find?_insert _ "file" FileSource.create driver).symm.trans h
  split at hfile
  · next hdriver => exact .inr ⟨hdriver, (Option.some.inj hfile).symm⟩
  · have henv := (Entries.find?_insert _ "env" EnvSource.creator driver).symm.trans hfile
    split at henv
    · exact .inl (Option.some.inj henv).symm
    · exact nomatch henv

/-! ## What failures leave behind -/

/-- One of the factories of a fresh kernel would have given the resource `x` for the id `i` while an
attempt failed that led on to the kernel `k`. -/
def Gave {ι : Type} (factory : Workshop → Factory Config ι) (k₀ k : Kernel σ) (i : String) (x : ι) :
    Prop :=
  ∃ j id e, Struggles k₀ j ∧ (source id j).result = .error e ∧ Struggles (source id j).state k ∧
    (Factory.get i (factory j.rewired.workshop, j.workshop.config)).result = .ok x

/-- What was given on the way to a kernel was given on the way to those it leads to. -/
theorem Gave.mono {ι : Type} {factory : Workshop → Factory Config ι} {k' : Kernel σ} {i : String}
    {x : ι} (h : Gave factory k₀ k i x) (hstep : ∀ j, Struggles j k → Struggles j k') :
    Gave factory k₀ k' i x := by
  obtain ⟨j, id, e, hj, hfail, hk, hgot⟩ := h
  exact ⟨j, id, e, hj, hfail, hstep _ hk, hgot⟩

/-- What tells a kernel from one that is wired afresh: nothing but the disks and parsers that failed
attempts got. -/
structure Leftovers (k₀ k : Kernel σ) : Prop where
  sources : k.sources = k.rewired.sources
  disks : Factory.Leftover k.rewired.workshop.disks k.workshop.disks (Gave Workshop.disks k₀ k)
  parsers :
    Factory.Leftover k.rewired.workshop.parsers k.workshop.parsers (Gave Workshop.parsers k₀ k)

/-- The drivers are those that were wired, so they do not touch the configuration either. -/
theorem Leftovers.quiet_disks (h : Leftovers k₀ k) : k.workshop.disks.Quiet := by
  rw [h.disks.factory]
  exact quiet_disks_rewired k

/-- So it is with parsers. -/
theorem Leftovers.quiet_parsers (h : Leftovers k₀ k) : k.workshop.parsers.Quiet := by
  rw [h.parsers.factory]
  exact quiet_parsers_rewired k

/-- A fresh kernel keeps no source. -/
theorem find?_sources_rewired (k : Kernel σ) (id : String) :
    k.rewired.sources.instances.find? id = none := rfl

/-- No source is kept. -/
theorem Leftovers.find?_sources (h : Leftovers k₀ k) (id : String) :
    k.sources.instances.find? id = none := by
  rw [h.sources]
  exact find?_sources_rewired k id

/-- A source that is not kept is constructed. -/
theorem result_source_of_not_kept (h : k.sources.instances.find? id = none) :
    (source id k).result = (k.sources.create id k.workshop).result :=
  Factory.result_get_of_not_kept h k.workshop

/-- What the construction of a source that is not kept leaves is what getting it leaves. -/
theorem workshop_source_of_not_kept (h : k.sources.instances.find? id = none) :
    (source id k).state.workshop = (k.sources.create id k.workshop).state :=
  Factory.around_get_of_not_kept h k.workshop

/-- A change of the configuration or the surroundings leaves nothing behind in the factories. -/
theorem Leftovers.elsewhere {k' : Kernel σ} (h : Leftovers k₀ k)
    (hsources : k'.sources = k.sources) (hdisks : k'.workshop.disks = k.workshop.disks)
    (hparsers : k'.workshop.parsers = k.workshop.parsers)
    (hstep : ∀ j, Struggles j k → Struggles j k') : Leftovers k₀ k' where
  sources := hsources.trans h.sources
  disks := by
    rw [hdisks]
    exact h.disks.mono fun _ _ hgave => hgave.mono hstep
  parsers := by
    rw [hparsers]
    exact h.parsers.mono fun _ _ hgave => hgave.mono hstep

/-- What an attempt leaves behind in the workshop: a file source its disk and its parser, if it came
to that. -/
theorem workshop_source (h : Leftovers k₀ k) (id : String) :
    (source id k).state.workshop = k.workshop ∨
      ∃ n, (source id k).state.workshop = FileSource.storing k.workshop n := by
  rw [workshop_source_of_not_kept (h.find?_sources id), Factory.create_apply]
  cases hc : k.sources.commission id k.workshop with
  | error e => exact .inl rfl
  | ok c =>
    obtain ⟨fields, creator⟩ := c
    obtain ⟨driver, -, hcreator⟩ := Factory.registered_of_commission hc
    rw [h.sources] at hcreator
    -- Only a file source leaves anything behind.
    rcases creators_rewired hcreator with rfl | ⟨-, rfl⟩
    · left
      simp only [EnvSource.creator_apply]
      exact (EnvSource.blind_create _ _).state _
    · simp only [FileSource.state_create h.quiet_disks h.quiet_parsers]
      cases FileSource.named k.workshop.config.merged id fields with
      | error e => exact .inl rfl
      | ok n => exact .inr ⟨n, rfl⟩

/-- An attempt that fails leaves nothing else behind. -/
theorem leftovers_fail (h : Leftovers k₀ k) (hk : Struggles k₀ k) {e : Error}
    (hfail : (source id k).result = .error e) : Leftovers k₀ (source id k).state := by
  have hsources : (source id k).state.sources = k.sources := Factory.factory_of_get_error hfail
  have hstep : ∀ j, Struggles j k → Struggles j (source id k).state := fun j hj => hj.fail hfail
  rcases workshop_source h id with hworkshop | ⟨n, hworkshop⟩
  · exact h.elsewhere hsources (by rw [hworkshop]) (by rw [hworkshop]) hstep
  · rw [FileSource.storing] at hworkshop
    split at hworkshop
    · exact h.elsewhere hsources (by rw [hworkshop]) (by rw [hworkshop]) hstep
    · -- A fresh kernel would have given the same at this moment, which is one of the failures.
      refine ⟨hsources.trans h.sources, ?_, ?_⟩
      · rw [hworkshop]
        exact (h.disks.mono fun _ _ hgave => hgave.mono hstep).get
          fun x hx => ⟨k, id, e, hk, hfail, .start, hx⟩
      · rw [hworkshop]
        exact (h.parsers.mono fun _ _ hgave => hgave.mono hstep).get
          fun x hx => ⟨k, id, e, hk, hfail, .start, hx⟩

/-- This holds after any number of failures, since each of them leaves behind only what a fresh
kernel would have given at the time. -/
theorem leftovers {around : Surroundings} (h : Struggles (new around) k) :
    Leftovers (new around) k := by
  -- Changes of configuration and surroundings touch no factory, so only failures matter.
  induction h with
  | start => exact ⟨rfl, .refl _ _, .refl _ _⟩
  | configure h x ih => exact ih.elsewhere rfl rfl rfl fun j hj => hj.configure x
  | surround h a ih => exact ih.elsewhere rfl rfl rfl fun j hj => hj.surround a
  | fail h hfail ih => exact leftovers_fail ih h hfail

/-! ## The next attempt -/

/-- As far as the disk and the parser of a file source are kept already, they are what a fresh
kernel would construct now. -/
def Current (k : Kernel σ) (id : String) : Prop :=
  ∀ fields n, k.sources.definition id k.workshop = .ok fields →
    fields.string? "driver" = some "file" →
    FileSource.named k.workshop.config.merged id fields = .ok n →
    (∀ disk, k.workshop.disks.instances.find? n.diskId = some disk →
      (Factory.get n.diskId (k.rewired.workshop.disks, k.workshop.config)).result = .ok disk) ∧
    ∀ parser, k.workshop.parsers.instances.find? n.parserId = some parser →
      (Factory.get n.parserId (k.rewired.workshop.parsers, k.workshop.config)).result = .ok parser

/-- Then the next attempt comes out as it would in a fresh kernel. -/
theorem Leftovers.result_source (h : Leftovers k₀ k) (hcurrent : k.Current id) :
    (source id k).result = (source id k.rewired).result := by
  have hkept := result_source_of_not_kept (h.find?_sources id)
  have hfresh := result_source_of_not_kept (find?_sources_rewired k id)
  have hcommission : k.rewired.sources.commission id k.rewired.workshop =
      k.sources.commission id k.workshop := by
    have hview : k.rewired.sources.view k.rewired.workshop =
        k.rewired.sources.view k.workshop := by
      rw [view_rewired, view_rewired, config_rewired]
    rw [h.sources]
    exact Factory.commission_congr hview id
  -- The same creator is called with the same fields, so only disks and parsers may tell.
  rw [hkept, hfresh, Factory.create_apply, Factory.create_apply, hcommission]
  cases hc : k.sources.commission id k.workshop with
  | error e => rfl
  | ok c =>
    obtain ⟨fields, creator⟩ := c
    obtain ⟨hfields, -⟩ := Factory.commission_eq_ok_iff.mp hc
    obtain ⟨driver, hdriver, hfind⟩ := Factory.registered_of_commission hc
    rw [h.sources] at hfind
    rcases creators_rewired hfind with rfl | ⟨rfl, rfl⟩
    · simp only [EnvSource.creator_apply]
      exact (EnvSource.blind_create _ _).result _ _
    · simp only [FileSource.result_create h.quiet_disks,
        FileSource.result_create (quiet_disks_rewired k), config_rewired]
      cases hnamed : FileSource.named k.workshop.config.merged id fields with
      | error e => rfl
      -- A disk that is kept is the one that a fresh kernel would get, and one that is not is
      -- constructed now.
      | ok n =>
        obtain ⟨hdisk, hparser⟩ := hcurrent fields n hfields hdriver hnamed
        have hdisks := h.disks.result hdisk
        have hparsers := h.parsers.result hparser
        show FileSource.furnished k.workshop id n = FileSource.furnished k.rewired.workshop id n
        simp only [FileSource.furnished, hdisks, hparsers, config_rewired, around_rewired]

/-- The disk and the parser of a file source are defined as they were whenever an attempt failed. -/
def Unchanged (k₀ k : Kernel σ) (id : String) : Prop :=
  ∀ fields n, k.sources.definition id k.workshop = .ok fields →
    fields.string? "driver" = some "file" →
    FileSource.named k.workshop.config.merged id fields = .ok n →
    ∀ j i e, Struggles k₀ j → (source i j).result = .error e → Struggles (source i j).state k →
      k.rewired.workshop.disks.definition n.diskId j.workshop.config =
        k.rewired.workshop.disks.definition n.diskId k.workshop.config ∧
      k.rewired.workshop.parsers.definition n.parserId j.workshop.config =
        k.rewired.workshop.parsers.definition n.parserId k.workshop.config

/-- What an earlier failure got is then what a fresh kernel would get now. -/
theorem Leftovers.current (h : Leftovers k₀ k) (hunchanged : Unchanged k₀ k id) : k.Current id := by
  intro fields n hfields hdriver hnamed
  have hsame := hunchanged fields n hfields hdriver hnamed
  constructor
  · intro disk hkept
    -- The disk is kept by the fresh kernel already, or some failure got it from a definition as
    -- now.
    rcases h.disks.given n.diskId disk hkept with hseed | ⟨j, i, e, hj, hfail, hk, hgot⟩
    · rw [Factory.get_of_kept hseed]
    · rw [disks_rewired j k] at hgot
      rw [← hgot, (quiet_disks_rewired k).result_get_congr (hsame j i e hj hfail hk).1]
  · intro parser hkept
    rcases h.parsers.given n.parserId parser hkept with hseed | ⟨j, i, e, hj, hfail, hk, hgot⟩
    · rw [Factory.get_of_kept hseed]
    · rw [parsers_rewired j k] at hgot
      rw [← hgot, (quiet_parsers_rewired k).result_get_congr (hsame j i e hj hfail hk).2]

/-- After any number of failures, changes of the configuration and of the surroundings, the next
attempt comes out as in a kernel that is wired afresh over the same configuration, unless it meets a
disk or a parser that a failed attempt got and that would now be another. -/
theorem retried {around : Surroundings} (h : Struggles (new around) k) :
    Leftovers (new around) k ∧
      (∀ id, k.Current id → (source id k).result = (source id k.rewired).result) ∧
      ∀ id, Unchanged (new around) k id → k.Current id :=
  ⟨leftovers h, fun _ => (leftovers h).result_source, fun _ => (leftovers h).current⟩

/-! ## A disk of its own -/

/-- A write that comes to an end is a change of the configuration. -/
theorem Struggles.write (h : Struggles k₀ k) {w : Write} {n : Nat}
    (hidle : (k.workshop.config.writing w n).stack = []) :
    Struggles k₀ (k.reconfigured (k.workshop.config.writing w n).config) := by
  have hconfigure := h.configure (Config.write w)
  simp only [onConfig, onWorkshop, Workshop.onConfig, Act.within,
    Config.write_of_stack_eq_nil hidle] at hconfigure
  exact hconfigure

/-- The definition of a file source. -/
def fileFields : Bag := .ofList [("disk_id", .string "d"), ("driver", .string "file"),
  ("parser_id", .string "json"), ("path", .string "app.json")]

/-- A file source on a disk of its own. -/
def onDisk (root : String) : Bag := .ofList [
  ("config", .bag (.ofList [("sources", .bag (.ofList [("s", .bag fileFields)]))])),
  ("filesystem", .bag (.ofList [("disks", .bag (.ofList [("d", .bag (.ofList [
    ("driver", .string "local"), ("root", .string root)]))]))]))]

/-- A configuration that defines it. -/
def stocked (root : String) : Config :=
  { Config.empty with registry := ⟨[⟨"base", 0, onDisk root⟩], .nil⟩, merged := onDisk root }

/-- Surroundings with a single file, which holds an empty document. -/
def lone (path : String) : Surroundings where
  files := {
    openAt := fun p => if p = path then .ok (.file (.ofString "\x7b\x7d")) else .error .notFound
    appendAt := fun _ => .error .notFound }
  environment := []

/-- A fresh kernel that keeps the disk, too. -/
def withDisk (around : Surroundings) (root : String) : Kernel Unit :=
  let k := new around
  { k with workshop := { k.workshop with
    disks := k.workshop.disks.keeping (k.workshop.disks.instances.insert "d" (.directory root)) } }

/-- To look for a file that is not there leaves the disk behind. -/
theorem struggles_withDisk : Struggles (new (lone "new/app.json"))
    ((withDisk (lone "new/app.json") "old").reconfigured (stocked "old")) := by
  have h : Struggles (new (lone "new/app.json"))
      ((new (lone "new/app.json") : Kernel Unit).reconfigured (stocked "old")) :=
    Struggles.start.write (w := .addSource "base" 0 (onDisk "old")) (n := 5) rfl
  have hfail : (source "s" ((new (lone "new/app.json") : Kernel Unit).reconfigured
      (stocked "old"))).result = .error (((FileFault.toError .notFound).withContext "path"
        "old/app.json").withContext "source" "s") := rfl
  exact h.fail hfail

/-- The file is found when it comes up. -/
theorem retried_appeared :
    ∃ k : Kernel Unit, Struggles (new (lone "new/app.json")) k ∧
      (source "s" k).result = (source "s" k.rewired).result ∧ (source "s" k).result = .ok .nil := by
  have h : Struggles (new (lone "new/app.json"))
      ((withDisk (lone "old/app.json") "old").reconfigured (stocked "old")) :=
    struggles_withDisk.surround (lone "old/app.json")
  refine ⟨_, h, (retried h).2.1 "s" ?_, rfl⟩
  intro fields n hfields _ hnamed
  -- The disk that was left behind is the one that is defined still.
  obtain rfl : fileFields = fields := Except.ok.inj hfields
  obtain rfl : FileSource.Names.mk "d" "json" "app.json" = n := Except.ok.inj hnamed
  constructor
  · intro disk hdisk
    obtain rfl : Disk.directory "old" = disk := Option.some.inj hdisk
    rfl
  · intro parser hparser
    obtain rfl : Parser.json = parser := Option.some.inj hparser
    rfl

/-- A source fails on a disk, and again when the disk was moved to where the file is: the disk was
kept. -/
theorem retry_on_old_disk :
    ∃ k : Kernel Unit, Struggles (new (lone "new/app.json")) k ∧
      (source "s" k.rewired).result = .ok .nil ∧
      (source "s" k).result = .error (((FileFault.toError .notFound).withContext "path"
        "old/app.json").withContext "source" "s") := by
  have h₁ : Struggles (new (lone "new/app.json"))
      ((withDisk (lone "new/app.json") "old").reconfigured .empty) :=
    struggles_withDisk.write (w := .removeSource "base") (n := 5) rfl
  -- The definition is another now, but the disk stays that of the old one.
  have h₂ : Struggles (new (lone "new/app.json"))
      ((withDisk (lone "new/app.json") "old").reconfigured (stocked "new")) :=
    h₁.write (w := .addSource "base" 0 (onDisk "new")) (n := 5) rfl
  exact ⟨_, h₂, rfl, rfl⟩

end LayeredConfig.Kernel
