import LayeredConfig.Log.Stream

/-! # The logger

Passes every record that is severe enough to all attached streams that want it, in ascending order
of their ids.  A stream that fails holds nothing up.

* `Logger.signal`             pass a record on
* `Logger.attachConfigured`   attach all streams that are defined -/

namespace LayeredConfig

/-- The attached streams, and the least level that is passed on at all. -/
structure Logger (σ : Type) where
  level : Level
  streams : SortedMap String (Stream σ)

namespace Logger

variable {σ τ : Type}

/-- A logger that passes on every level, without streams. -/
def empty : Logger σ := ⟨.debug, .nil⟩

/-- The ids of the attached streams in ascending order. -/
def ids (l : Logger σ) : List String := l.streams.keys

/-- Attach a stream, in place of an earlier one. -/
def attach (l : Logger σ) (id : String) (stream : Stream σ) : Logger σ :=
  { l with streams := l.streams.insert id stream }

/-- Detach a stream. -/
def detach (l : Logger σ) (id : String) : Logger σ := { l with streams := l.streams.erase id }

/-- What is reported of a write that ended: only its failure. -/
def reportOf (id : String) : Except Error Unit → List Event
  | .ok _ => []
  | .error e => [⟨.warn, "log stream write failed", [("stream", id), ("error", e.message)]⟩]

/-- Pass a record to the streams that want it, past failures. -/
def deliver (r : Record) : List (String × Stream σ) → Act σ Unit
  | [] => pure ()
  | (id, stream) :: rest => do
    if ← Act.ofState (stream.accepts r.level r.channel) then
      let outcome ← (stream.write r).attempt
      Act.reportAll (reportOf id outcome)
    deliver r rest

/-- Pass a record on, if it is severe enough. -/
def signal (l : Logger σ) (r : Record) : Act σ Unit :=
  if l.level ≤ r.level then deliver r l.streams.toList else pure ()

/-- Build all streams that a factory defines in its surroundings and attach them.  The result is
their number; where one cannot be built, none is attached. -/
def attachConfigured : Act (Logger σ × Factory τ (Stream σ) × τ) Nat := do
  let built ← Factory.loadAll.within Prod.snd fun p q => (q.1, p)
  -- All of them were built, so now all are attached.
  Act.modify fun p => (built.foldl (fun l s => l.attach s.1 s.2) p.1, p.2)
  return built.length

end Logger
end LayeredConfig
