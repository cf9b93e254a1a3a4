import LayeredConfig.Source.Workshop

/-! # Loading a configuration

The entry file becomes a source, and then every source that the view defines is built and added.
Sources that those define in turn are not followed.

* `Loader.loadEntry`     add the entry file
* `Loader.loadSources`   add the defined sources
* `Loader.load`          both -/

namespace LayeredConfig.Loader

/-- The id of the source that the entry file becomes. -/
def entryId : String := "entry"

/-- The priority of the entry file. -/
def entryPriority : Int32 := 0

/-- Add a file as the entry source; its extension tells the parser. -/
def loadEntry (file : String) : Act Workshop Unit := do
  match FilePath.name? file, (FilePath.extension? file).bind Parser.ofExtension? with
  | some name, some parserId =>
    -- The file is opened by its name, from a disk at the directory around it.
    let above := FilePath.directory file
    let parser ← Workshop.onParsers (Factory.get parserId)
    let w ← Act.current
    let disk := Disk.directory (if above.isEmpty then "." else above)
    let bag ← FileSource.readFrom w.around.files disk name parser
    let _ ← Workshop.onConfig (Config.write (.addSource entryId entryPriority bag))
    Act.report .info "entry config loaded" [("path", file), ("parser", parserId)]
  | _, _ =>
    Act.fail ((Error.decode "unsupported config file extension").withContext "path" file)

theorem join_priority (id : String) : Path.join (Path.join Workshop.sourcesPath id) "priority" =
    "config.sources." ++ id ++ ".priority" := by
  simp [Path.join, Workshop.sourcesPath, String.append_assoc]

/-- The priority that a view defines for a source, zero if it defines none. -/
def declaredPriority (view : Bag) (id : String) : Except Error Int32 :=
  match view.get? (Path.join (Path.join Workshop.sourcesPath id) "priority") with
  | none => .ok 0
  | some v =>
    match v.int? with
    | some i =>
      if -2147483648 ≤ i.toInt ∧ i.toInt < 2147483648 then .ok (.ofInt i.toInt)
      else .error (.invalidConfig id "priority")
    | none => .error (.invalidConfig id "priority")

/-- Build and add a source. -/
def addSource (id : String) : Act (Factory Workshop Bag × Workshop) Unit := do
  let (_, w) ← Act.current
  -- A bad priority is found before anything is built.
  let priority ← Act.ofExcept (declaredPriority w.config.merged id)
  let bag ← Factory.get id
  let _ ← (Workshop.onConfig (Config.write (.addSource id priority bag))).within Prod.snd
    fun w p => (p.1, w)
  return

/-- Build and add sources, one after the other, up to the first failure. -/
def addSources : List String → Act (Factory Workshop Bag × Workshop) Unit
  | [] => pure ()
  | id :: rest => do
    addSource id
    addSources rest

/-- Add every source that the view defines at the start.  The result is their ids. -/
def loadSources : Act (Factory Workshop Bag × Workshop) (List String) := do
  let (f, w) ← Act.current
  let ids := f.ids w
  addSources ids
  return ids

/-- Add the entry file, if there is one, and then the defined sources.  The result is the ids of
all sources added, in the order of loading. -/
def load (entry : Option String) : Act (Factory Workshop Bag × Workshop) (List String) := do
  match entry with
  | some file =>
    (loadEntry file).within Prod.snd fun w p => (p.1, w)
    return entryId :: (← loadSources)
  | none =>
    Act.report .debug "no entry config file" []
    loadSources

end LayeredConfig.Loader
