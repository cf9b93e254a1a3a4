import LayeredConfig.Kernel
import LayeredConfig.Proofs.Bag.Json
import LayeredConfig.Proofs.Source.Construction

/-!
# The stages of a file source

A file source is constructed in seven stages.  Three fields of its definition are checked, two of
which fall back on the configuration.  Then the disk and the parser are got from their factories,
the file is opened, and it is decoded.  The first stage that fails tells what becomes of the source,
and what comes after that stage is not even begun.

Drivers may do anything to the configuration when a disk or a parser is constructed, and they may
note it.  So a stage that changes nothing and notes nothing has constructed nothing.

A file that cannot be decoded is named by the source.  One that cannot be opened is named by the
disk, which alone knows the whole path, and a disk that is no directory need not do so.

## Key results

- `FileSource.checked_iff`: the fields of a definition, in the order of the checks
- `FileSource.staged_create`: the first stage that fails, and what is done until then
- `FileSource.stages`: when there is a source, and what it does not depend on otherwise
- `FileSource.unlocated_mute`: a disk that names no path
-/

namespace LayeredConfig

/-! ## Required fields -/

namespace Definition

/-- What becomes of a field that has to hold a string. -/
inductive Requires (id : String) (fields : Bag) (field : String) : Except Error String → Prop
  | filled {s : String} (h : fields.string? field = some s) (hs : s ≠ "") :
      Requires id fields field (.ok s)
  | unfilled (h : ∀ s, fields.string? field = some s → s = "") :
      Requires id fields field (.error (.invalidConfig id field))

/-- What becomes of a field that falls back on a path of the configuration. -/
inductive RequiresOr (id : String) (fields view : Bag) (field path : String) :
    Except Error String → Prop
  | filled {s : String} (h : fields.string? field = some s) (hs : s ≠ "") :
      RequiresOr id fields view field path (.ok s)
  | defaulted {s : String} (hfield : ∀ s, fields.string? field = some s → s = "")
      (h : view.string? path = some s) (hs : s ≠ "") :
      RequiresOr id fields view field path (.ok s)
  | unfilled (hfield : ∀ s, fields.string? field = some s → s = "")
      (h : ∀ s, view.string? path = some s → s = "") :
      RequiresOr id fields view field path
        (.error ((Error.invalidConfig id field).withContext "default_path" path))

variable {id field path : String} {fields view : Bag} {r : Except Error String}

/-- A required field is judged by its string alone, and both verdicts are told apart. -/
theorem requires_iff {defaults : Option Bag} :
    requireString ⟨id, fields, defaults⟩ field = r ↔ Requires id fields field r := by
  constructor
  · rintro rfl
    obtain ⟨s, h, hs⟩ | h := string?_cases fields field
    · rw [requireString_of_ne h hs]
      exact .filled h hs
    -- Absent, of another kind or empty: to the check they are one case.
    · rw [requireString_of_forall_eq h]
      exact .unfilled h
  · rintro (⟨h, hs⟩ | h)
    · exact requireString_of_ne h hs
    · exact requireString_of_forall_eq h

/-- A field with a default is judged by its own string first and by the configuration second. -/
theorem requiresOr_iff :
    requireStringOr ⟨id, fields, some view⟩ field path = r ↔
      RequiresOr id fields view field path r := by
  simp only [requireStringOr, Option.bind_some]
  constructor
  · rintro rfl
    obtain ⟨s, h, hs⟩ | h := string?_cases fields field
    · simp only [nonEmpty?_of_ne h hs]
      exact .filled h hs
    -- Only when the field itself says nothing is the configuration asked.
    · obtain ⟨s, hview, hs⟩ | hview := string?_cases view path
      · simp only [nonEmpty?_of_forall_eq h, nonEmpty?_of_ne hview hs]
        exact .defaulted h hview hs
      · simp only [nonEmpty?_of_forall_eq h, nonEmpty?_of_forall_eq hview]
        exact .unfilled h hview
  · rintro (⟨h, hs⟩ | ⟨hfield, h, hs⟩ | ⟨hfield, h⟩)
    · simp only [nonEmpty?_of_ne h hs]
    · simp only [nonEmpty?_of_forall_eq hfield, nonEmpty?_of_ne h hs]
    · simp only [nonEmpty?_of_forall_eq hfield, nonEmpty?_of_forall_eq h, invalid]

end Definition

/-! ## What a factory makes -/

/-- All resources of a factory have a property, those that are kept and those that are made. -/
structure Factory.Makes {σ ι : Type} (P : ι → Prop) (f : Factory σ ι) : Prop where
  kept : ∀ id x, f.instances.find? id = some x → P x
  made : ∀ driver creator, f.creators.find? driver = some creator →
    ∀ id fields s x, (creator id fields s).result = .ok x → P x

/-- So has what is got from it. -/
theorem Factory.Makes.get {σ ι : Type} {P : ι → Prop} {f : Factory σ ι} (h : f.Makes P)
    {id : String} {s : σ} {x : ι} (hget : (Factory.get id (f, s)).result = .ok x) : P x := by
  -- A kept resource is handed out as it is, and any other one comes from its creator.
  cases hkept : f.instances.find? id with
  | some y =>
    rw [get_of_kept hkept] at hget
    obtain rfl := Except.ok.inj hget
    exact h.kept id y hkept
  | none =>
    obtain ⟨fields, driver, creator, -, -, -, hcreator, hmade⟩ :=
      ((verdict_get hkept s).ok_iff x).mp hget
    exact h.made driver creator hcreator id fields s x hmade

/-- What is got is kept like the others. -/
theorem Factory.Makes.state_get {σ ι : Type} {P : ι → Prop} {f : Factory σ ι} (h : f.Makes P)
    (id : String) (s : σ) : (Factory.get id (f, s)).state.1.Makes P := by
  rw [factory_get]
  split
  · next x _ hget =>
    -- What was just got is the one new entry, and creators are never replaced here.
    refine ⟨fun i y hi => ?_, h.made⟩
    have hfind := (Entries.find?_insert f.instances id x i).symm.trans hi
    split at hfind
    · obtain rfl := Option.some.inj hfind
      exact h.get hget
    · exact h.kept i y hfind
  · exact h

namespace Disk

/-- A disk that is a directory of the file system. -/
def IsDirectory (disk : Disk) : Prop := ∃ root, disk = directory root

/-- A directory names the path that it tried whenever it cannot open a file. -/
theorem find?_path_of_directory {root path : String} {files : Files} {e : Error}
    (h : (directory root).openAt files path = .error e) :
    e.context.find? "path" = some (FilePath.join root path) := by
  have hopen : files.openNamed (FilePath.join root path) = .error e := h
  rw [Files.openNamed] at hopen
  -- The fault of the file system carries no path, so the one found is that of the directory.
  cases hfault : files.openAt (FilePath.join root path) with
  | ok opened =>
    rw [hfault] at hopen
    exact nomatch hopen
  | error fault =>
    rw [hfault] at hopen
    obtain rfl := Except.error.inj hopen
    exact (Entries.find?_insert _ _ _ _).trans (if_pos rfl)

/-- The disks of a kernel are directories. -/
theorem isDirectory_kernel {σ : Type} (around : Surroundings) :
    (Kernel.new around : Kernel σ).workshop.disks.Makes IsDirectory where
  kept id disk h := by
    -- One disk is kept from the start and one driver is registered, both under the same name.
    have hfind := (Entries.find?_insert .nil "local" (directory ".") id).symm.trans h
    split at hfind
    · exact ⟨".", (Option.some.inj hfind).symm⟩
    · exact nomatch hfind
  made driver creator h id fields c disk hmade := by
    have hfind := (Entries.find?_insert .nil "local" localCreator driver).symm.trans h
    split at hfind
    · obtain rfl := Option.some.inj hfind
      exact ⟨_, (Except.ok.inj hmade).symm⟩
    · exact nomatch hfind

end Disk

namespace FileSource

variable {id : String} {fields : Bag} {w : Workshop} {n : Names}

/-! ## The stages -/

/-- What becomes of the field that names the disk. -/
def DiskField (view : Bag) (id : String) (fields : Bag) : Except Error String → Prop :=
  Definition.RequiresOr id fields view "disk_id" "config.default_disk_id"

/-- What becomes of the field that names the parser. -/
def ParserField (view : Bag) (id : String) (fields : Bag) : Except Error String → Prop :=
  Definition.RequiresOr id fields view "parser_id" "config.default_parser_id"

/-- What becomes of the field that names the path. -/
def PathField (id : String) (fields : Bag) : Except Error String → Prop :=
  Definition.Requires id fields "path"

/-- What becomes of the fields, which are looked at in this order. -/
inductive Checked (view : Bag) (id : String) (fields : Bag) : Except Error Names → Prop
  | diskless {e : Error} (hdisk : DiskField view id fields (.error e)) :
      Checked view id fields (.error e)
  | parserless {diskId : String} {e : Error} (hdisk : DiskField view id fields (.ok diskId))
      (hparser : ParserField view id fields (.error e)) : Checked view id fields (.error e)
  | pathless {diskId parserId : String} {e : Error}
      (hdisk : DiskField view id fields (.ok diskId))
      (hparser : ParserField view id fields (.ok parserId))
      (hpath : PathField id fields (.error e)) : Checked view id fields (.error e)
  | named {diskId parserId path : String} (hdisk : DiskField view id fields (.ok diskId))
      (hparser : ParserField view id fields (.ok parserId))
      (hpath : PathField id fields (.ok path)) :
      Checked view id fields (.ok ⟨diskId, parserId, path⟩)

/-- To get the disk. -/
def gettingDisk (w : Workshop) (n : Names) : Outcome (Factory Config Disk × Config) Disk :=
  Factory.get n.diskId (w.disks, w.config)

/-- To get the parser in what the disk has left. -/
def gettingParser (w : Workshop) (n : Names) : Outcome (Factory Config Parser × Config) Parser :=
  Factory.get n.parserId (w.parsers, (gettingDisk w n).state.2)

/-- What is left when the disk was got or not. -/
def afterDisk (w : Workshop) (n : Names) : Workshop :=
  { w with disks := (gettingDisk w n).state.1, config := (gettingDisk w n).state.2 }

/-- What is left when the parser was got or not. -/
def afterParser (w : Workshop) (n : Names) : Workshop where
  config := (gettingParser w n).state.2
  disks := (gettingDisk w n).state.1
  parsers := (gettingParser w n).state.1
  around := w.around

/-- A failure names the source, and a path or none. -/
structure Located (e : Error) (id : String) (path? : Option String) : Prop where
  source : e.context.find? "source" = some id
  path : e.context.find? "path" = path?

/-- What the construction of a file source comes to, by the first stage that fails. -/
inductive Staged (id : String) (fields : Bag) (w : Workshop) : Outcome Workshop Bag → Prop
  /-- A field is missing or unusable, and nothing was asked for. -/
  | unnamed {e : Error} (hfields : Checked w.config.merged id fields (.error e)) :
      Staged id fields w ⟨.error e, w, []⟩
  /-- There is no disk, and no parser was asked for. -/
  | undisked {n : Names} {e : Error} (hfields : Checked w.config.merged id fields (.ok n))
      (hdisk : (gettingDisk w n).result = .error e) :
      Staged id fields w ⟨.error e, afterDisk w n, (gettingDisk w n).notes⟩
  /-- There is a disk but no parser. -/
  | unparsered {n : Names} {disk : Disk} {e : Error}
      (hfields : Checked w.config.merged id fields (.ok n))
      (hdisk : (gettingDisk w n).result = .ok disk)
      (hparser : (gettingParser w n).result = .error e) :
      Staged id fields w
        ⟨.error e, afterParser w n, (gettingDisk w n).notes ++ (gettingParser w n).notes⟩
  /-- The file could not be opened.  The failure names a path if the disk names one, and a directory
  does. -/
  | unopened {n : Names} {disk : Disk} {parser : Parser} {e : Error}
      (hfields : Checked w.config.merged id fields (.ok n))
      (hdisk : (gettingDisk w n).result = .ok disk)
      (hparser : (gettingParser w n).result = .ok parser)
      (hopen : disk.openAt w.around.files n.path = .error e)
      (hlocated : Located (e.withContext "source" id) id (e.context.find? "path"))
      (hdirectory : ∀ root, disk = .directory root →
        e.context.find? "path" = some (FilePath.join root n.path)) :
      Staged id fields w ⟨.error (e.withContext "source" id), afterParser w n,
        (gettingDisk w n).notes ++ (gettingParser w n).notes⟩
  /-- The file is no document.  The failure names the path of the source. -/
  | undecoded {n : Names} {disk : Disk} {parser : Parser} {opened : Opened} {e : Error}
      (hfields : Checked w.config.merged id fields (.ok n))
      (hdisk : (gettingDisk w n).result = .ok disk)
      (hparser : (gettingParser w n).result = .ok parser)
      (hopen : disk.openAt w.around.files n.path = .ok opened)
      (hdecode : parser.parse opened = .error e)
      (hlocated : Located ((e.withContext "path" n.path).withContext "source" id) id
        (some n.path)) :
      Staged id fields w ⟨.error ((e.withContext "path" n.path).withContext "source" id),
        afterParser w n, (gettingDisk w n).notes ++ (gettingParser w n).notes⟩
  /-- No stage failed, and the source is the document. -/
  | created {n : Names} {disk : Disk} {parser : Parser} {opened : Opened} {bag : Bag}
      (hfields : Checked w.config.merged id fields (.ok n))
      (hdisk : (gettingDisk w n).result = .ok disk)
      (hparser : (gettingParser w n).result = .ok parser)
      (hopen : disk.openAt w.around.files n.path = .ok opened)
      (hdecode : parser.parse opened = .ok bag) :
      Staged id fields w ⟨.ok bag, afterParser w n,
        (gettingDisk w n).notes ++ (gettingParser w n).notes ++
          [.event ⟨.debug, "config file decoded",
            [("path", n.path), ("keys", toString bag.size)]⟩]⟩

/-! ## Going through the stages -/

/-- The checks of the three fields, one after the other. -/
theorem named_eq (view : Bag) (id : String) (fields : Bag) : named view id fields =
    (Definition.requireStringOr ⟨id, fields, some view⟩ "disk_id" "config.default_disk_id").bind
      fun diskId => (Definition.requireStringOr ⟨id, fields, some view⟩ "parser_id"
        "config.default_parser_id").bind
      fun parserId => (Definition.requireString ⟨id, fields, some view⟩ "path").bind
      fun path => .ok ⟨diskId, parserId, path⟩ := rfl

/-- The names are read off the fields just as `Checked` tells. -/
theorem checked_iff {view : Bag} {r : Except Error Names} :
    named view id fields = r ↔ Checked view id fields r := by
  rw [named_eq]
  constructor
  -- A check that fails ends the reading, so each field is looked at under the success of those
  -- before.
  · rintro rfl
    cases hdisk : Definition.requireStringOr ⟨id, fields, some view⟩ "disk_id"
        "config.default_disk_id" with
    | error e => exact .diskless (Definition.requiresOr_iff.mp hdisk)
    | ok diskId =>
      have hdiskField : DiskField view id fields (.ok diskId) := Definition.requiresOr_iff.mp hdisk
      cases hparser : Definition.requireStringOr ⟨id, fields, some view⟩ "parser_id"
          "config.default_parser_id" with
      | error e => exact .parserless hdiskField (Definition.requiresOr_iff.mp hparser)
      | ok parserId =>
        have hparserField : ParserField view id fields (.ok parserId) :=
          Definition.requiresOr_iff.mp hparser
        cases hpath : Definition.requireString ⟨id, fields, some view⟩ "path" with
        | error e => exact .pathless hdiskField hparserField (Definition.requires_iff.mp hpath)
        | ok path => exact .named hdiskField hparserField (Definition.requires_iff.mp hpath)
  -- Conversely every case of `Checked` fixes the checks that were made.
  · rintro (hdisk | ⟨hdisk, hparser⟩ | ⟨hdisk, hparser, hpath⟩ | ⟨hdisk, hparser, hpath⟩)
    · rw [Definition.requiresOr_iff.mpr hdisk, Except.bind]
    · rw [Definition.requiresOr_iff.mpr hdisk, Except.bind, Definition.requiresOr_iff.mpr hparser,
        Except.bind]
    · rw [Definition.requiresOr_iff.mpr hdisk, Except.bind, Definition.requiresOr_iff.mpr hparser,
        Except.bind, Definition.requires_iff.mpr hpath, Except.bind]
    · rw [Definition.requiresOr_iff.mpr hdisk, Except.bind, Definition.requiresOr_iff.mpr hparser,
        Except.bind, Definition.requires_iff.mpr hpath, Except.bind]

/-- To name the source takes nothing from what is said of a path. -/
theorem located_withContext (e : Error) (id : String) :
    Located (e.withContext "source" id) id (e.context.find? "path") where
  source := (Entries.find?_insert _ _ _ _).trans (if_pos rfl)
  -- Another key was written, so the path is the one before, or still none.
  path := (Entries.find?_insert _ _ _ _).trans (if_neg (by decide))

/-- What is said last of the path stands beside the source. -/
theorem located_withPath (e : Error) (id path : String) :
    Located ((e.withContext "path" path).withContext "source" id) id (some path) := by
  have hpath : (e.withContext "path" path).context.find? "path" = some path :=
    (Entries.find?_insert _ _ _ _).trans (if_pos rfl)
  exact hpath ▸ located_withContext (e.withContext "path" path) id

/-- As long as a field is missing or unusable, that is all there is to it. -/
theorem create_of_unnamed {e : Error} (h : Checked w.config.merged id fields (.error e)) :
    create id fields w = ⟨.error e, w, []⟩ := by
  rw [create_apply, checked_iff.mpr h]
  rfl

/-- Once the fields name everything, the source is furnished from the factories. -/
theorem create_of_named (h : Checked w.config.merged id fields (.ok n)) :
    create id fields w = furnish w.around id n w := by
  rw [create_apply, checked_iff.mpr h, Act.ofExcept, pure_bind]

/-- The disk is got in a workshop of which nothing else changes. -/
theorem onDisks_get (w : Workshop) (n : Names) : Workshop.onDisks (Factory.get n.diskId) w =
    ⟨(gettingDisk w n).result, afterDisk w n, (gettingDisk w n).notes⟩ := rfl

/-- The parser is got in what the disk has left of the workshop. -/
theorem onParsers_get (w : Workshop) (n : Names) :
    Workshop.onParsers (Factory.get n.parserId) (afterDisk w n) =
      ⟨(gettingParser w n).result, afterParser w n, (gettingParser w n).notes⟩ := rfl

/-- To read a file is to open it and to decode it. -/
theorem readFrom_apply {σ : Type} (files : Files) (disk : Disk) (path : String) (parser : Parser)
    (f : Error → Error) (s : σ) : (readFrom files disk path parser).mapError f s =
      match disk.openAt files path with
      | .error e => ⟨.error (f e), s, []⟩
      | .ok opened => match parser.parse opened with
        | .error e => ⟨.error (f (e.withContext "path" path)), s, []⟩
        | .ok bag => ⟨.ok bag, s, [.event ⟨.debug, "config file decoded",
            [("path", path), ("keys", toString bag.size)]⟩]⟩ := by
  rw [readFrom]
  cases disk.openAt files path with
  | error e => rfl
  -- Only an opened file reaches the parser, whose failures are given the path.
  | ok opened =>
    rw [Act.ofExcept, pure_bind]
    dsimp only
    cases parser.parse opened with
    | error e => rfl
    | ok bag => rfl

/-- Without the disk there is nothing else to be done. -/
theorem furnish_of_undisked {e : Error} (hdisk : (gettingDisk w n).result = .error e) :
    furnish w.around id n w = ⟨.error e, afterDisk w n, (gettingDisk w n).notes⟩ := by
  rw [furnish, Act.bind_apply, onDisks_get, hdisk]

/-- With the disk and the parser at hand, the file is read. -/
theorem furnish_of_equipped {disk : Disk} {parser : Parser}
    (hdisk : (gettingDisk w n).result = .ok disk)
    (hparser : (gettingParser w n).result = .ok parser) : furnish w.around id n w =
      ((readFrom w.around.files disk n.path parser).mapError (·.withContext "source" id)
        (afterParser w n)).after ((gettingDisk w n).notes ++ (gettingParser w n).notes) := by
  rw [furnish, Act.bind_apply, onDisks_get, hdisk]
  -- What both factories noted comes before anything the reading notes.
  simp only [Act.bind_apply, onParsers_get, hparser, Outcome.after, List.append_assoc]

/-- Once the fields are checked, the other stages follow. -/
theorem staged_of_named (hfields : Checked w.config.merged id fields (.ok n)) :
    Staged id fields w (furnish w.around id n w) := by
  -- The cases follow the stages: each is split only under the success of those before it.
  cases hdisk : (gettingDisk w n).result with
  | error e =>
    rw [furnish_of_undisked hdisk]
    exact .undisked hfields hdisk
  | ok disk =>
    cases hparser : (gettingParser w n).result with
    | error e =>
      rw [furnish, Act.bind_apply, onDisks_get, hdisk]
      simp only [Act.bind_apply, onParsers_get, hparser]
      exact .unparsered hfields hdisk hparser
    | ok parser =>
      rw [furnish_of_equipped hdisk hparser, readFrom_apply]
      cases hopen : disk.openAt w.around.files n.path with
      | error e =>
        simp only [Outcome.after, List.append_nil]
        -- The disk decides about the path, and a directory is known to name it.
        refine .unopened hfields hdisk hparser hopen (located_withContext e id) fun root hroot => ?_
        subst hroot
        exact Disk.find?_path_of_directory hopen
      | ok opened =>
        cases hdecode : parser.parse opened with
        | error e =>
          simp only [hdecode, Outcome.after, List.append_nil]
          exact .undecoded hfields hdisk hparser hopen hdecode (located_withPath e id n.path)
        | ok bag =>
          simp only [hdecode, Outcome.after]
          exact .created hfields hdisk hparser hopen hdecode

/-! ## What the stages come to -/

/-- What the construction of a file source comes to, in view of its stages. -/
structure Stages (id : String) (fields : Bag) (w : Workshop) : Prop where
  /-- The first stage that fails tells what becomes of the source. -/
  staged : Staged id fields w (create id fields w)
  /-- There is a source exactly if no stage fails, and it is the document. -/
  created : ∀ bag, (create id fields w).result = .ok bag ↔
    ∃ n disk parser opened, Checked w.config.merged id fields (.ok n) ∧
      (gettingDisk w n).result = .ok disk ∧ (gettingParser w n).result = .ok parser ∧
      disk.openAt w.around.files n.path = .ok opened ∧ parser.parse opened = .ok bag
  /-- While the fields are checked, nobody looks at the factories. -/
  unnamed : ∀ e, Checked w.config.merged id fields (.error e) → ∀ disks parsers,
    create id fields { w with disks, parsers } = ⟨.error e, { w with disks, parsers }, []⟩
  /-- While there is no disk, nobody looks at the factory of parsers. -/
  undisked : ∀ n e, Checked w.config.merged id fields (.ok n) →
    (gettingDisk w n).result = .error e → ∀ parsers, create id fields { w with parsers } =
      ⟨.error e, { afterDisk w n with parsers }, (gettingDisk w n).notes⟩
  /-- The failure to open the file is that of the disk, and it names the source. -/
  unopened : ∀ n disk parser e, Checked w.config.merged id fields (.ok n) →
    (gettingDisk w n).result = .ok disk → (gettingParser w n).result = .ok parser →
    disk.openAt w.around.files n.path = .error e →
    (create id fields w).result = .error (e.withContext "source" id)
  /-- What holds of all disks beforehand holds of them still. -/
  disks : ∀ P, w.disks.Makes P → (create id fields w).state.disks.Makes P

/-- The construction of any source comes to one of the stages. -/
theorem staged_create (id : String) (fields : Bag) (w : Workshop) :
    Staged id fields w (create id fields w) := by
  cases hfields : named w.config.merged id fields with
  | error e =>
    rw [create_of_unnamed (checked_iff.mp hfields)]
    exact .unnamed (checked_iff.mp hfields)
  | ok n =>
    rw [create_of_named (checked_iff.mp hfields)]
    exact staged_of_named (checked_iff.mp hfields)

/-- A file source is constructed stage by stage, and the disks of a kernel are directories. -/
theorem stages (id : String) (fields : Bag) (w : Workshop) (around : Surroundings) :
    Stages id fields w ∧ (Kernel.new around : Kernel Unit).workshop.disks.Makes Disk.IsDirectory := by
  have hstaged := staged_create id fields w
  refine ⟨⟨hstaged, fun bag => ⟨fun h => ?_, ?_⟩, ?_, ?_, ?_, fun P h => ?_⟩,
    Disk.isDirectory_kernel around⟩
  -- A source that exists came through all stages, since every other case of `Staged` is a failure.
  · generalize create id fields w = o at hstaged h
    cases hstaged with
    | created hfields hdisk hparser hopen hdecode =>
      obtain rfl := Except.ok.inj h
      exact ⟨_, _, _, _, hfields, hdisk, hparser, hopen, hdecode⟩
    | _ => exact nomatch h
  · rintro ⟨n, disk, parser, opened, hfields, hdisk, hparser, hopen, hdecode⟩
    rw [create_of_named hfields, furnish_of_equipped hdisk hparser, readFrom_apply, hopen]
    simp only [hdecode]
    rfl
  -- A failed check never reads the factories, so they may be any others.
  · intro e h disks parsers
    exact create_of_unnamed (w := { w with disks, parsers }) h
  · intro n e h hdisk parsers
    rw [create_of_named (w := { w with parsers }) h]
    exact furnish_of_undisked (w := { w with parsers }) hdisk
  · intro n disk parser e hfields hdisk hparser hopen
    rw [create_of_named hfields, furnish_of_equipped hdisk hparser, readFrom_apply, hopen]
    rfl
  -- Whatever stage was last, at most one disk was got.
  · generalize create id fields w = o at hstaged
    cases hstaged with
    | unnamed => exact h
    | _ => exact h.state_get _ _

/-- A kernel beside a single file. -/
def besideApp : Kernel Unit := .new {
  files := ⟨fun path => if path = "./app.json" then .ok (.file (.ofString "\x7b\"a\":1\x7d"))
    else .error .notFound, fun _ => .error .notFound⟩
  environment := [] }

/-- The definition of a source of a file on some disk. -/
def fileOn (diskId path : String) : Bag := .ofList [("disk_id", .string diskId),
  ("parser_id", .string "json"), ("path", .string path)]

/-- The source is the document in the file.  A file that is not there is named, and on a disk that
is not there no parser can help. -/
theorem stages_app :
    (create "s" (fileOn "local" "app.json") besideApp.workshop).result =
        .ok (.ofList [("a", .int 1)]) ∧
      (∃ e, (create "s" (fileOn "local" "gone.json") besideApp.workshop).result = .error e ∧
        Located e "s" (some "./gone.json")) ∧
      ∀ parsers, (create "s" (fileOn "nowhere" "app.json")
        { besideApp.workshop with parsers }).result =
          .error (.unknownResource "disk" "nowhere") := by
  have hdecode : Parser.json.parse (.file (.ofString "\x7b\"a\":1\x7d")) =
      .ok (.ofList [("a", .int 1)]) := Bag.eq_ok_of_any rfl (by decide +kernel)
  refine ⟨?_, ?_, fun parsers => ?_⟩
  · have hfields : Checked besideApp.workshop.config.merged "s" (fileOn "local" "app.json")
        (.ok ⟨"local", "json", "app.json"⟩) :=
      .named (.filled rfl (by decide)) (.filled rfl (by decide)) (.filled rfl (by decide))
    obtain ⟨h, -⟩ := stages "s" (fileOn "local" "app.json") besideApp.workshop ⟨.none, []⟩
    exact (h.created _).mpr ⟨_, _, _, _, hfields, rfl, rfl, rfl, hdecode⟩
  · have hfields : Checked besideApp.workshop.config.merged "s" (fileOn "local" "gone.json")
        (.ok ⟨"local", "json", "gone.json"⟩) :=
      .named (.filled rfl (by decide)) (.filled rfl (by decide)) (.filled rfl (by decide))
    obtain ⟨h, -⟩ := stages "s" (fileOn "local" "gone.json") besideApp.workshop ⟨.none, []⟩
    -- The file is asked for below the root of the disk, and the failure tells the joined path.
    have hopen : (Disk.directory ".").openAt besideApp.workshop.around.files "gone.json" =
        .error ((FileFault.toError .notFound).withContext "path" "./gone.json") := rfl
    have hpath := Disk.find?_path_of_directory hopen
    exact ⟨_, h.unopened _ _ _ _ hfields rfl rfl hopen, hpath ▸ located_withContext _ "s"⟩
  · have hfields : Checked besideApp.workshop.config.merged "s" (fileOn "nowhere" "app.json")
        (.ok ⟨"nowhere", "json", "app.json"⟩) :=
      .named (.filled rfl (by decide)) (.filled rfl (by decide)) (.filled rfl (by decide))
    obtain ⟨h, -⟩ := stages "s" (fileOn "nowhere" "app.json") besideApp.workshop ⟨.none, []⟩
    rw [h.undisked _ (.unknownResource "disk" "nowhere") hfields rfl parsers]

/-- A disk on which nothing can be opened, and which names no path. -/
def muteDisk : Disk := ⟨fun _ _ => .error (.io "disk is offline")⟩

/-- A workshop with such a disk beside that of the kernel. -/
def besideMute : Workshop := { besideApp.workshop with
  disks := (Factory.store "mute" muteDisk besideApp.workshop.disks).state }

/-- The disk, the parser and all fields are there, but the failure to open the file names no
path. -/
theorem unlocated_mute :
    Checked besideMute.config.merged "s" (fileOn "mute" "app.json")
        (.ok ⟨"mute", "json", "app.json"⟩) ∧
      (gettingDisk besideMute ⟨"mute", "json", "app.json"⟩).result = .ok muteDisk ∧
      (gettingParser besideMute ⟨"mute", "json", "app.json"⟩).result = .ok .json ∧
      ∃ e, (create "s" (fileOn "mute" "app.json") besideMute).result = .error e ∧
        ¬∃ path, e.context.find? "path" = some path := by
  refine ⟨.named (.filled rfl (by decide)) (.filled rfl (by decide)) (.filled rfl (by decide)),
    rfl, rfl, _, rfl, ?_⟩
  rintro ⟨path, hpath⟩
  -- The source is the only thing that is ever added to this failure.
  have hnone : ((Error.io "disk is offline").withContext "source" "s").context.find? "path" = none :=
    rfl
  exact nomatch hnone.symm.trans hpath

end FileSource
end LayeredConfig
