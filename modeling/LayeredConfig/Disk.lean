import LayeredConfig.Config.Delivery
import LayeredConfig.Factory.Basic
import LayeredConfig.Files.Basic
import LayeredConfig.Files.Path

/-! # Disks

Named places from which configuration files are opened.

* `Disk`            opens files by paths of its own
* `Disk.directory`  a directory of the file system
* `Disk.factory`    the disks that a configuration defines -/

namespace LayeredConfig

/-- A place that files are opened from. -/
structure Disk where
  openAt : Files → String → Except Error Opened

namespace Disk

/-- The directory `root` of the file system. -/
def directory (root : String) : Disk := ⟨fun files path => files.openNamed (FilePath.join root path)⟩

/-- The path that holds the definitions of disks. -/
def path : String := "filesystem.disks"

/-- Create a disk at the directory that a definition names, or at the working directory. -/
def localCreator : Creator Config Disk := fun id fields =>
  pure (.directory (Definition.stringOr ⟨id, fields, none⟩ "root" "."))

/-- A factory of disks without drivers. -/
def factory : Factory Config Disk := .empty "disk" path Config.merged

/-- Register the drivers of disks. -/
def registerDrivers : Act (Factory Config Disk) Unit := Factory.register "local" localCreator

end Disk
end LayeredConfig
