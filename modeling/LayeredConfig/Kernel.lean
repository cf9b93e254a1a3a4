import LayeredConfig.Loader
import LayeredConfig.Log.Logger

/-! # The kernel

A configuration with everything that works on it: disks, parsers, sources, log streams and the
logger.

* `Kernel.new`    a kernel with its drivers, parsers and the working directory as a disk
* `Kernel.boot`   load the configuration and attach the log streams -/

namespace LayeredConfig

/-- A configuration with its factories and the logger. -/
structure Kernel (σ : Type) where
  workshop : Workshop
  sources : Factory Workshop Bag
  streams : Factory Config (Stream σ)
  logger : Logger σ

/-- What booting came to: the sources added, in order, and the number of streams attached. -/
structure BootReport where
  sources : List String
  streams : Nat
deriving DecidableEq, Repr

namespace Kernel

variable {σ α : Type}

/-- Act on the part that sources are built from. -/
def onWorkshop (x : Act Workshop α) : Act (Kernel σ) α :=
  x.within workshop fun workshop k => { k with workshop }

/-- Act on the configuration. -/
def onConfig (x : Act Config α) : Act (Kernel σ) α := onWorkshop (Workshop.onConfig x)

/-- Act on the sources and all that they are built from. -/
def onSources (x : Act (Factory Workshop Bag × Workshop) α) : Act (Kernel σ) α :=
  x.within (fun k => (k.sources, k.workshop)) fun p k => { k with sources := p.1, workshop := p.2 }

/-- Act on the logger, and on the streams and the configuration that defines them. -/
def onLogger (x : Act (Logger σ × Factory Config (Stream σ) × Config) α) : Act (Kernel σ) α :=
  x.within (fun k => (k.logger, k.streams, k.workshop.config)) fun p k =>
    { k with logger := p.1, streams := p.2.1, workshop := { k.workshop with config := p.2.2 } }

/-- The actions that make a kernel out of one without any driver. -/
def wire : Act (Kernel σ) Unit := do
  onWorkshop <| Act.within Workshop.disks (fun disks w => { w with disks }) do
    Disk.registerDrivers
    Factory.store "local" (Disk.directory ".")
  onWorkshop <| Act.within Workshop.parsers (fun parsers w => { w with parsers }) do
    Parser.registerDrivers Parser.builtin
    Factory.store "json" Parser.json
    Factory.store "yaml" Parser.yaml
  Act.within sources (fun sources k => { k with sources }) Workshop.registerDrivers
  Act.within streams (fun streams k => { k with streams }) Stream.registerDrivers

/-- A kernel without any driver. -/
def bare (around : Surroundings) : Kernel σ where
  workshop := ⟨.empty, Disk.factory, Parser.factory, around⟩
  sources := Workshop.sources
  streams := Stream.factory
  logger := .empty

/-- A kernel with an empty configuration and all drivers.  The parsers and a disk at the working
directory are there from the start, so that an entry file can define sources without defining
those. -/
def new (around : Surroundings) : Kernel σ := (wire (bare around)).state

/-- Load the configuration from the entry file, if there is one, and attach the log streams. -/
def boot (entry : Option String) : Act (Kernel σ) BootReport := do
  let sources ← onSources (Loader.load entry)
  let streams ← onLogger Logger.attachConfigured
  Act.report .info "kernel booted"
    [("sources", toString sources.length), ("streams", toString streams)]
  return ⟨sources, streams⟩

end Kernel
end LayeredConfig
