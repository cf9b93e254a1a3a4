import LayeredConfig.Files.Path
import LayeredConfig.Source.Environment

/-! # Where the entry file is looked for

* `EntryPaths`            the candidates
* `EntryPaths.discover`   the candidates in given surroundings
* `EntryPaths.resolve`    the entry file among them -/

namespace LayeredConfig

/-- The candidates for the entry file. -/
structure EntryPaths where
  /-- A file that was asked for; it counts even where it does not exist. -/
  explicit : Option String
  /-- The file of the project. -/
  project : Option String
  /-- The file of the user. -/
  user : Option String
deriving DecidableEq, Repr

namespace EntryPaths

/-- The variable that names an explicit entry file. -/
def variableName : String := "HEARTH_CONFIG_PATH"

/-- A variable of the process, unless it is empty. -/
def nonEmpty? (around : Surroundings) (name : String) : Option String :=
  (around.environment.lookup name).filter fun s => !s.isEmpty

/-- The candidates in given surroundings. -/
def discover (around : Surroundings) : EntryPaths where
  explicit := nonEmpty? around variableName
  project := some (FilePath.join "config" "config.yaml")
  user := (nonEmpty? around "HOME").map fun home =>
    FilePath.join (FilePath.join home ".hearth") "config.yaml"

/-- The candidates with another explicit file. -/
def withFile (p : EntryPaths) (path : String) : EntryPaths := { p with explicit := some path }

/-- The entry file: the explicit one, or else the first candidate that is a file. -/
def resolve (p : EntryPaths) (files : Files) : Option String :=
  match p.explicit with
  | some path => some path
  | none => (p.project.toList ++ p.user.toList).find? files.isFile

end EntryPaths
end LayeredConfig
