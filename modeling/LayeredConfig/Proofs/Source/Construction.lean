import LayeredConfig.Proofs.Factory.Fresh
import LayeredConfig.Source.Workshop

/-!
# How sources are constructed

What the construction of a source depends on, and what it leaves behind.  A source of variables
leaves nothing.  A file source gets its disk and its parser before the file is read, and these stay
with their factories even if the file cannot be read.

## Key results

- `EnvSource.blind_create`: sources of variables leave their surroundings as they are
- `FileSource.result_create`: the stages of a file source, in order
- `FileSource.state_create`: what the construction of a file source leaves behind
-/

namespace LayeredConfig

/-! ## Sources of variables -/

namespace EnvSource

variable {σ : Type}

/-- To read a file only looks at the files. -/
theorem blind_readFile (files : Files) (path : String) :
    (readFile files path : Act σ (List (String × String))).Blind :=
  (Act.blind_ofExcept _).bind fun _ => (Act.blind_ofExcept _).bind fun _ =>
    (Act.blind_report _ _ _).bind fun _ => Act.blind_pure _

theorem blind_readFiles (files : Files) (paths : List String) :
    (readFiles files paths : Act σ (List (String × String))).Blind := by
  induction paths with
  | nil => exact Act.blind_pure _
  -- Each file is read without regard to those before it.
  | cons path rest ih =>
    exact (blind_readFile files path).bind fun _ => ih.bind fun _ => Act.blind_pure _

/-- What becomes of a source of variables depends on files and variables only. -/
theorem blind_create (around : Surroundings) (d : Definition) :
    (create around d : Act σ Bag).Blind :=
  (Act.blind_ofExcept _).bind fun _ => (Act.blind_ofExcept _).bind fun _ =>
    (blind_readFiles _ _).bind fun _ => Act.blind_ofExcept _

/-- The creator is called with the surroundings of the workshop and never sees the view. -/
theorem creator_apply (id : String) (fields : Bag) (w : Workshop) :
    creator id fields w = create w.around ⟨id, fields, none⟩ w := by
  simp only [creator, Act.bind_apply, Act.current, Outcome.after, List.nil_append]

end EnvSource

/-! ## File sources -/

namespace FileSource

/-- The disk, the parser and the path that a definition names. -/
structure Names where
  diskId : String
  parserId : String
  path : String

/-- The same, or the first field that is missing or unusable. -/
def named (view : Bag) (id : String) (fields : Bag) : Except Error Names := do
  let d : Definition := ⟨id, fields, some view⟩
  let diskId ← d.requireStringOr "disk_id" defaultDiskPath
  let parserId ← d.requireStringOr "parser_id" defaultParserPath
  let path ← d.requireString "path"
  return ⟨diskId, parserId, path⟩

/-- The document in a file. -/
def document (files : Files) (id : String) (disk : Disk) (path : String) (parser : Parser) :
    Except Error Bag :=
  (disk.openAt files path >>= fun opened =>
    (parser.parse opened).mapError (·.withContext "path" path)).mapError (·.withContext "source" id)

variable {id : String} {fields : Bag} {w : Workshop}

/-- To open and to parse a file changes nothing. -/
theorem blind_readFrom {σ : Type} (files : Files) (disk : Disk) (path : String) (parser : Parser) :
    (readFrom files disk path parser : Act σ Bag).Blind :=
  (Act.blind_ofExcept _).bind fun _ => (Act.blind_ofExcept _).bind fun _ =>
    (Act.blind_report _ _ _).bind fun _ => Act.blind_pure _

/-- A file is read if it can be opened and parsed. -/
theorem result_readFrom_apply {σ : Type} (files : Files) (disk : Disk) (path : String)
    (parser : Parser) (s : σ) : (readFrom files disk path parser s).result =
      disk.openAt files path >>= fun opened =>
        (parser.parse opened).mapError (·.withContext "path" path) := by
  simp only [readFrom, Act.result_bind, Act.result_ofExcept, Act.state_ofExcept]
  exact bind_congr fun opened => bind_pure _

/-- With the source named in the error, this is the document. -/
theorem result_readFrom {σ : Type} (files : Files) (disk : Disk) (path : String) (parser : Parser)
    (s : σ) :
    ((readFrom files disk path parser).mapError (·.withContext "source" id) s).result =
      document files id disk path parser := by
  rw [document, ← result_readFrom_apply files disk path parser s]
  rfl

/-- What is done for a source once it is known what its definition names. -/
def furnish (around : Surroundings) (id : String) (n : Names) : Act Workshop Bag := do
  let disk ← Workshop.onDisks (Factory.get n.diskId)
  let parser ← Workshop.onParsers (Factory.get n.parserId)
  (readFrom around.files disk n.path parser).mapError (·.withContext "source" id)

/-- The fields are checked first, and the rest is done for what they name. -/
theorem create_apply (id : String) (fields : Bag) (w : Workshop) :
    create id fields w =
      (Act.ofExcept (named w.config.merged id fields) >>= furnish w.around id) w := by
  simp only [create, named, Act.ofExcept_bind, bind_assoc]
  rfl

/-- The stages of a file source after its fields, in order: its disk, its parser and the file. -/
def furnished (w : Workshop) (id : String) (n : Names) : Except Error Bag := do
  let disk ← (Factory.get n.diskId (w.disks, w.config)).result
  let parser ← (Factory.get n.parserId (w.parsers, w.config)).result
  document w.around.files id disk n.path parser

/-- What the two factories are left with. -/
def storing (w : Workshop) (n : Names) : Workshop :=
  match (Factory.get n.diskId (w.disks, w.config)).result with
  | .error _ => w
  | .ok _ => { w with
      disks := (Factory.get n.diskId (w.disks, w.config)).state.1,
      parsers := (Factory.get n.parserId (w.parsers, w.config)).state.1 }

/-- To get a disk changes the factory of disks and nothing else, if no driver reaches further. -/
theorem state_onDisks (hdisks : w.disks.Quiet) (diskId : String) :
    (Workshop.onDisks (Factory.get diskId) w).state =
      { w with disks := (Factory.get diskId (w.disks, w.config)).state.1 } := by
  have hconfig := hdisks.around_get diskId w.config
  simp only [Workshop.onDisks, Act.within, hconfig]

/-- To get a parser changes the factory of parsers and nothing else, if no driver reaches further.
-/
theorem state_onParsers (hparsers : w.parsers.Quiet) (parserId : String) :
    (Workshop.onParsers (Factory.get parserId) w).state =
      { w with parsers := (Factory.get parserId (w.parsers, w.config)).state.1 } := by
  have hconfig := hparsers.around_get parserId w.config
  simp only [Workshop.onParsers, Act.within, hconfig]

/-- What becomes of a file source: the fields of its definition are checked before anything else is
done. -/
theorem result_create (hdisks : w.disks.Quiet) :
    (create id fields w).result = named w.config.merged id fields >>= furnished w id := by
  rw [create_apply, Act.result_bind, Act.result_ofExcept, Act.state_ofExcept]
  refine bind_congr fun n => ?_
  -- The parser is got from the factory of parsers, which the disk has not touched.
  rw [furnish, Act.result_bind, state_onDisks hdisks]
  refine bind_congr fun disk => ?_
  rw [Act.result_bind]
  exact bind_congr fun parser => result_readFrom _ _ _ _ _

/-- A file source leaves its disk and its parser with their factories, if it comes to that. -/
theorem state_create (hdisks : w.disks.Quiet) (hparsers : w.parsers.Quiet) :
    (create id fields w).state = match named w.config.merged id fields with
      | .error _ => w
      | .ok n => storing w n := by
  rw [create_apply, Act.state_bind, Act.result_ofExcept, Act.state_ofExcept]
  cases named w.config.merged id fields with
  | error e => rfl
  | ok n =>
    have hdisk : (Workshop.onDisks (Factory.get n.diskId) w).result =
        (Factory.get n.diskId (w.disks, w.config)).result := rfl
    simp only [furnish, storing, Act.state_bind, hdisk, state_onDisks hdisks]
    cases hresult : (Factory.get n.diskId (w.disks, w.config)).result with
    -- A disk that fails is not kept, and no parser is asked for.
    | error e => simp only [Factory.factory_of_get_error hresult]
    | ok disk =>
      -- To read the file changes nothing.
      have hread := Act.state_bind_of_blind
        (fun parser => (blind_readFrom w.around.files disk n.path parser).mapError
          (·.withContext "source" id))
        (Workshop.onParsers (Factory.get n.parserId))
        { w with disks := (Factory.get n.diskId (w.disks, w.config)).state.1 }
      rw [Act.state_bind] at hread
      exact hread.trans (state_onParsers
        (w := { w with disks := (Factory.get n.diskId (w.disks, w.config)).state.1 })
        hparsers n.parserId)

end FileSource
end LayeredConfig
