import LayeredConfig.Bag.Basic
import LayeredConfig.Error

/-! # Writes and changes

What writers ask of a configuration, and what observers are told.

* `Write`    a request to change the configuration
* `Change`   the old and the new value at an observed path -/

namespace LayeredConfig

/-- A request to change the configuration. -/
inductive Write
  /-- Register a source. -/
  | addSource (id : String) (priority : Int32) (bag : Bag)
  /-- Unregister a source. -/
  | removeSource (id : String)
  /-- Give a source another priority. -/
  | setPriority (id : String) (priority : Int32)
  /-- Write a value that outranks every source. -/
  | set (path : String) (value : Value)

/-- The lookups of an observed path before and after a write, which differ. -/
structure Change where
  path : String
  old : Option Value
  new : Option Value

end LayeredConfig
