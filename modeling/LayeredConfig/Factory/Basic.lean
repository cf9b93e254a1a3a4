import LayeredConfig.Act
import LayeredConfig.Factory.Definition

/-! # Factories of resources

Resources of one kind are defined below one path of a configuration, each with the name of a driver
that creates it.  A factory creates a resource when it is first wanted and keeps it from then on;
failures are not kept.

* `Factory`           drivers and kept resources
* `Factory.create`    create a resource from its definition
* `Factory.get`       the kept resource, or a new one that is kept
* `Factory.store`     keep a given resource
* `Factory.loadAll`   get every resource that is defined -/

namespace LayeredConfig

/-- How a driver creates a resource from its id and the fields of its definition.  A creator acts on
the surroundings of a factory, not on the factory itself. -/
abbrev Creator (σ ι : Type) : Type := String → Bag → Act σ ι

/-- A factory of resources in `ι`, created in surroundings `σ`. -/
structure Factory (σ ι : Type) where
  /-- What the resources are called in reports. -/
  kind : String
  /-- The path that holds the definitions. -/
  path : String
  /-- The configuration, as the surroundings hold it. -/
  view : σ → Bag
  creators : SortedMap String (Creator σ ι)
  instances : SortedMap String ι

namespace Factory

variable {σ ι : Type}

/-- A factory without drivers and resources. -/
def empty (kind path : String) (view : σ → Bag) : Factory σ ι := ⟨kind, path, view, .nil, .nil⟩

/-- The names of the drivers in ascending order. -/
def drivers (f : Factory σ ι) : List String := f.creators.keys

/-- The ids under which resources are defined, in ascending order. -/
def ids (f : Factory σ ι) (s : σ) : List String :=
  match (f.view s).bag? f.path with
  | some entries => (entries.toList.filter fun e => e.2.isBag).map Prod.fst
  | none => []

/-- Whether a resource is kept. -/
def has (f : Factory σ ι) (id : String) : Bool := f.instances.contains id

/-- Register the creator of a driver, in place of an earlier one. -/
def register (driver : String) (creator : Creator σ ι) : Act (Factory σ ι) Unit := do
  let f ← Act.current
  Act.report .debug "driver registered" [("kind", f.kind), ("driver", driver)]
  Act.replace { f with creators := f.creators.insert driver creator }

/-- Keep a resource, in place of an earlier one. -/
def store (id : String) (resource : ι) : Act (Factory σ ι) Unit := do
  let f ← Act.current
  Act.report .debug "resource stored" [("kind", f.kind), ("id", id)]
  Act.replace { f with instances := f.instances.insert id resource }

/-- The fields that define a resource. -/
def definition (f : Factory σ ι) (id : String) (s : σ) : Except Error Bag :=
  match (f.view s).bag? (Path.join f.path id) with
  | some fields => .ok fields
  | none => .error (.unknownResource f.kind id)

/-- The creator that a definition names. -/
def creator (f : Factory σ ι) (id : String) (fields : Bag) : Except Error (Creator σ ι) := do
  let driver ← Definition.requireString ⟨id, fields, none⟩ "driver"
  match f.creators.find? driver with
  | some creator => return creator
  | none => .error ((Error.unknownResource (f.kind ++ " driver") driver).withContext "resource" id)

/-- Create a resource from its definition. -/
def create (f : Factory σ ι) (id : String) : Act σ ι := do
  let fields ← Act.ofExcept (f.definition id (← Act.current))
  let creator ← Act.ofExcept (f.creator id fields)
  creator id fields

/-- The kept resource, or else a new one, which is kept from now on. -/
def get (id : String) : Act (Factory σ ι × σ) ι := do
  let (f, _) ← Act.current
  match f.instances.find? id with
  | some resource => return resource
  | none =>
    -- The creator may change the surroundings; what it did stays even if it fails.
    match ← ((f.create id).within Prod.snd fun s p => (p.1, s)).attempt with
    | .error e =>
      Act.report .warn "resource construction failed"
        [("kind", f.kind), ("id", id), ("error", e.message)]
      Act.fail e
    | .ok resource =>
      Act.modify fun p => ({ p.1 with instances := p.1.instances.insert id resource }, p.2)
      Act.report .debug "resource created" [("kind", f.kind), ("id", id)]
      return resource

/-- Get resources, one after the other, up to the first failure. -/
def getAll : List String → Act (Factory σ ι × σ) (List (String × ι))
  | [] => pure []
  | id :: rest => do
    let resource ← get id
    let others ← getAll rest
    return (id, resource) :: others

/-- Get every resource that is defined, in ascending order of ids, up to the first failure. -/
def loadAll : Act (Factory σ ι × σ) (List (String × ι)) := do
  let (f, s) ← Act.current
  getAll (f.ids s)

end Factory
end LayeredConfig
