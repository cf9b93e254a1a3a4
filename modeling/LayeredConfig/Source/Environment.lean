import LayeredConfig.Act
import LayeredConfig.Factory.Definition
import LayeredConfig.Files.Basic
import LayeredConfig.Source.Dotenv

/-! # Variables as a source

Variables of the process and of dotenv files, of which a source takes those that its definition
maps to paths.  Later files outrank earlier ones, and the process outranks all files.

* `Surroundings`             files and variables that the engine sees
* `EnvSource.ofVariables`    the mapped variables as a bag
* `EnvSource.load`           the same, from files and the process
* `EnvSource.create`         the source of a definition -/

namespace LayeredConfig

/-- What the engine sees of the system around it. -/
structure Surroundings where
  files : Files
  /-- The variables of the process. -/
  environment : List (String × String)

namespace EnvSource

/-- The bag that holds the values of mapped variables at their paths, written in the order of the
variables' names. -/
def ofVariables (vars mappings : SortedMap String String) : Except Error Bag :=
  mappings.toList.foldlM (fun b m =>
    match vars.find? m.1 with
    | none => .ok b
    | some value =>
      match b.set? m.2 (.string value) with
      | some b => .ok b
      | none => .error (.invalidPath m.2)) .nil

variable {σ : Type}

/-- The entries of a dotenv file; a failure names the file. -/
def readFile (files : Files) (path : String) : Act σ (List (String × String)) := do
  let text ← Act.ofExcept (files.readText path)
  let entries ← Act.ofExcept ((Dotenv.parse text).mapError (·.withContext "path" path))
  Act.report .debug "dotenv file read" [("path", path), ("entries", toString entries.length)]
  return entries

/-- The entries of dotenv files, one after the other, up to the first failure. -/
def readFiles (files : Files) : List String → Act σ (List (String × String))
  | [] => pure []
  | path :: rest => do
    let entries ← readFile files path
    let others ← readFiles files rest
    return entries ++ others

/-- The mapped variables of dotenv files and of the process. -/
def load (around : Surroundings) (paths : List String) (mappings : SortedMap String String) :
    Act σ Bag := do
  let entries ← readFiles around.files paths
  -- The last entry of a variable wins, and the process comes last.
  Act.ofExcept (ofVariables (.ofList (entries ++ around.environment)) mappings)

/-- The mappings of a definition, from variables to paths. -/
def mappings (d : Definition) : Except Error (SortedMap String String) := do
  let b ← d.bagOrEmpty "mappings"
  let pairs ← b.toList.mapM fun m =>
    match m.2.asString? with
    | some path => Except.ok (m.1, path)
    | none => .error ((d.invalid "mappings").withContext "key" m.1)
  return .ofList pairs

/-- The source of a definition. -/
def create (around : Surroundings) (d : Definition) : Act σ Bag := do
  let paths ← Act.ofExcept (d.strings "files")
  let mappings ← Act.ofExcept (mappings d)
  load around paths mappings

end EnvSource
end LayeredConfig
