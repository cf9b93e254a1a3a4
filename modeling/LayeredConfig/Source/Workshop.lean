import LayeredConfig.Disk
import LayeredConfig.Parser
import LayeredConfig.Source.Environment

/-! # Sources that a configuration defines

Sources are built from files and variables, with disks and parsers that the configuration defines as
well.

* `Workshop`               all that sources are built from
* `FileSource.readFrom`    the document in a file
* `FileSource.create`      the source of a definition
* `Workshop.sources`       the factory of sources -/

namespace LayeredConfig

/-- The path of the disk for sources that name none. -/
def defaultDiskPath : String := "config.default_disk_id"

/-- The path of the parser for sources that name none. -/
def defaultParserPath : String := "config.default_parser_id"

/-- All that sources are built from. -/
structure Workshop where
  config : Config
  disks : Factory Config Disk
  parsers : Factory Config Parser
  around : Surroundings

namespace Workshop

variable {α : Type}

/-- Act on the configuration. -/
def onConfig (x : Act Config α) : Act Workshop α := x.within config fun config w => { w with config }

/-- Act on the disks and the configuration that defines them. -/
def onDisks (x : Act (Factory Config Disk × Config) α) : Act Workshop α :=
  x.within (fun w => (w.disks, w.config)) fun p w => { w with disks := p.1, config := p.2 }

/-- Act on the parsers and the configuration that defines them. -/
def onParsers (x : Act (Factory Config Parser × Config) α) : Act Workshop α :=
  x.within (fun w => (w.parsers, w.config)) fun p w => { w with parsers := p.1, config := p.2 }

end Workshop

namespace Parser

/-- The path that holds the definitions of parsers. -/
def path : String := "config.parsers"

/-- A factory of parsers without drivers. -/
def factory : Factory Config Parser := .empty "parser" path Config.merged

/-- Register the drivers of parsers, which need no fields. -/
def registerDrivers : List (String × Parser) → Act (Factory Config Parser) Unit
  | [] => pure ()
  | (driver, parser) :: rest => do
    Factory.register driver fun _ _ => pure parser
    registerDrivers rest

end Parser

namespace FileSource

variable {σ : Type}

/-- The document at a path on a disk. -/
def readFrom (files : Files) (disk : Disk) (path : String) (parser : Parser) : Act σ Bag := do
  let opened ← Act.ofExcept (disk.openAt files path)
  let bag ← Act.ofExcept ((parser.parse opened).mapError (·.withContext "path" path))
  Act.report .debug "config file decoded" [("path", path), ("keys", toString bag.size)]
  return bag

/-- Create the source of a definition: its fields are checked first, then its disk and its parser
are looked up, and then the file is read. -/
def create : Creator Workshop Bag := fun id fields => do
  let w ← Act.current
  let d : Definition := ⟨id, fields, some w.config.merged⟩
  let diskId ← Act.ofExcept (d.requireStringOr "disk_id" defaultDiskPath)
  let parserId ← Act.ofExcept (d.requireStringOr "parser_id" defaultParserPath)
  let path ← Act.ofExcept (d.requireString "path")
  let disk ← Workshop.onDisks (Factory.get diskId)
  let parser ← Workshop.onParsers (Factory.get parserId)
  (readFrom w.around.files disk path parser).mapError (·.withContext "source" id)

end FileSource

/-- Create the source of variables that a definition describes. -/
def EnvSource.creator : Creator Workshop Bag := fun id fields => do
  EnvSource.create (← Act.current).around ⟨id, fields, none⟩

namespace Workshop

/-- The path that holds the definitions of sources. -/
def sourcesPath : String := "config.sources"

/-- A factory of sources without drivers. -/
def sources : Factory Workshop Bag :=
  .empty "config source" sourcesPath fun w => w.config.merged

/-- Register the drivers of sources. -/
def registerDrivers : Act (Factory Workshop Bag) Unit := do
  Factory.register "env" EnvSource.creator
  Factory.register "file" FileSource.create

end Workshop
end LayeredConfig
