import LayeredConfig.Bag.Merge
import LayeredConfig.Config.Change

/-! # The registry of sources

The sources of a configuration in the order of their registration, and the values that override
them.

* `Registry.ordered`   the sources in merge order
* `Registry.merged`    the view that sources and overrides make together
* `Registry.apply`     what a write makes of the registry -/

namespace LayeredConfig

/-- A registered source. -/
structure Source where
  id : String
  priority : Int32
  bag : Bag

/-- Sources in the order of registration, and the overrides. -/
structure Registry where
  sources : List Source
  overrides : Bag

namespace Registry

/-- No sources and no overrides. -/
def empty : Registry := ⟨[], .nil⟩

/-- Put a source behind all those of no greater priority. -/
def place (s : Source) : List Source → List Source
  | [] => [s]
  | t :: rest => if t.priority ≤ s.priority then t :: place s rest else s :: t :: rest

/-- The sources by ascending priority.  Those of one priority keep the order of registration. -/
def ordered (r : Registry) : List Source := r.sources.foldl (fun ts s => place s ts) []

/-- The merged view: the sources in merge order, and the overrides on top. -/
def merged (r : Registry) : Bag := (Bag.mergeAll (r.ordered.map Source.bag)).merge r.overrides

/-- The source of an id. -/
def find? (r : Registry) (id : String) : Option Source := r.sources.find? fun s => s.id == id

/-- Whether an id is registered. -/
def has (r : Registry) (id : String) : Bool := (r.find? id).isSome

/-- The registry after a write, or nothing if the write finds nothing to do. -/
def apply (r : Registry) : Write → Except Error (Option Registry)
  | .addSource id priority bag =>
    if r.has id then .error (.duplicateResource "config source" id)
    else .ok (some { r with sources := r.sources ++ [⟨id, priority, bag⟩] })
  | .removeSource id =>
    -- To remove what is not there is no failure.
    if r.has id then .ok (some { r with sources := r.sources.filter fun s => s.id != id })
    else .ok none
  | .setPriority id priority =>
    if r.has id then
      .ok (some { r with sources := r.sources.map fun s =>
        if s.id == id then { s with priority } else s })
    else .error (.unknownResource "config source" id)
  | .set path value =>
    match r.overrides.set? path value with
    | some overrides => .ok (some { r with overrides })
    | none => .error (.invalidPath path)

end Registry
end LayeredConfig
