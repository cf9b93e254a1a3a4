import LayeredConfig.Config.Registry
import LayeredConfig.PubSub

/-! # Configurations

One merged view over prioritised sources, with observers of paths.  Every write recomputes the view
at once and queues a round for the observers; `LayeredConfig.Config.Delivery` delivers the rounds.

* `Config`             the state
* `Config.rebuild`     recompute the view and queue the round
* `Config.enact`       apply a write
* `Config.observe`     watch a path
* `Config.unobserve`   watch it no longer -/

namespace LayeredConfig

/-- The views before and after a write, for the observers. -/
structure Round where
  before : Bag
  after : Bag

/-- A configuration. -/
structure Config where
  registry : Registry
  /-- The merged view of the registry. -/
  merged : Bag
  /-- The observers by path. -/
  observers : PubSub String String Observer
  /-- The rounds that were not delivered yet, the oldest first. -/
  pending : List Round
  /-- The lock that whoever delivers rounds holds. -/
  dispatching : Bool
  /-- The calls of observers so far. -/
  served : Nat

namespace Config

/-- A configuration without sources, overrides and observers. -/
def empty : Config := ⟨.empty, .nil, .empty, [], false, 0⟩

instance : Inhabited Config := ⟨empty⟩

/-- The sources and their priorities in merge order. -/
def sources (c : Config) : List (String × Int32) :=
  c.registry.ordered.map fun s => (s.id, s.priority)

/-- The bag of a source. -/
def source? (c : Config) (id : String) : Option Bag := (c.registry.find? id).map Source.bag

/-! ## Writes -/

/-- What is reported of a write; overrides go without a word. -/
def writeEvent? : Write → Option Event
  | .addSource id priority _ =>
    some ⟨.info, "config source added", [("source", id), ("priority", toString priority.toInt)]⟩
  | .removeSource id => some ⟨.info, "config source removed", [("source", id)]⟩
  | .setPriority id priority =>
    some ⟨.debug, "config source re-prioritized",
      [("source", id), ("priority", toString priority.toInt)]⟩
  | .set _ _ => none

/-- Take over a registry: recompute the view and queue the round. -/
def rebuild (registry : Registry) (c : Config) : Config :=
  { c with
    registry, merged := registry.merged, pending := c.pending ++ [⟨c.merged, registry.merged⟩] }

/-- Apply a write.  The result tells whether there was anything to do; a failure changes nothing. -/
def enact (w : Write) : Act Config Bool := fun c =>
  match c.registry.apply w with
  | .error e => ⟨.error e, c, [.deed (.wrote w (.error e))]⟩
  | .ok none => ⟨.ok false, c, [.deed (.wrote w (.ok false))]⟩
  | .ok (some registry) =>
    ⟨.ok true, c.rebuild registry,
      .deed (.wrote w (.ok true)) :: (writeEvent? w).toList.map .event⟩

/-! ## Observers -/

/-- Act on the observers. -/
def onObservers {α : Type} (x : Act (PubSub String String Observer) α) : Act Config α :=
  x.within Config.observers fun observers c => { c with observers }

/-- Call an observer whenever the value at a path changes. -/
def observe (id path : String) (observer : Observer) : Act Config Unit :=
  match Path.parse? path with
  | none => Act.fail (.invalidPath path)
  | some _ => onObservers (PubSub.subscribe id path observer)

/-- Do not call an observer about a path any more. -/
def unobserve (id path : String) : Act Config Unit := onObservers (PubSub.unsubscribe id path)

end Config
end LayeredConfig
