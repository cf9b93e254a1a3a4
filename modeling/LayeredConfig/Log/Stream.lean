import LayeredConfig.Bag.Json
import LayeredConfig.Config.Delivery
import LayeredConfig.Factory.Basic
import LayeredConfig.Log.Level

/-! # Log streams

Where log records go.  A stream says which records it wants and writes them.  The console stream
passes records on as diagnostic events.

* `Record`           a log record
* `Stream`           a destination of records
* `Console`          what a console stream wants
* `Stream.factory`   the streams that a configuration defines -/

namespace LayeredConfig

/-- A log record. -/
structure Record where
  level : Level
  channel : String
  message : String
  context : Bag

/-- A destination of records, which may act on `σ` whenever it is called. -/
structure Stream (σ : Type) where
  /-- Whether the stream wants the records of a level on a channel. -/
  accepts : Level → String → σ → Bool × σ
  /-- Take a record, which may fail. -/
  write : Record → Act σ Unit

/-- A console stream: its id, the least level that it wants, and its channels. -/
structure Console where
  id : String
  level : Level
  /-- The channels that the stream wants; an empty list stands for all. -/
  channels : List String
deriving DecidableEq, Repr

namespace Console

/-- Whether a console stream wants the records of a level on a channel. -/
def accepts (c : Console) (level : Level) (channel : String) : Bool :=
  decide (c.level ≤ level) && (c.channels.isEmpty || c.channels.contains channel)

/-- The event that stands for a record. -/
def event (c : Console) (r : Record) : Event :=
  ⟨r.level.severity, r.message,
    [("stream", c.id), ("channel", r.channel), ("level", r.level.name),
      ("context", (Bag.toJson r.context).compact)]⟩

/-- A console as a stream. -/
def stream {σ : Type} (c : Console) : Stream σ where
  accepts level channel s := (c.accepts level channel, s)
  write r := Act.note (.event (c.event r))

/-- The path of the level for streams that name none. -/
def defaultLevelPath : String := "log.default_level"

/-- The level of a console stream: the one that its definition names, else the default of the
configuration, else `info`. -/
def configuredLevel (d : Definition) (view : Bag) : Except Error Level :=
  match (d.fields.string? "level").or (view.string? defaultLevelPath) with
  | none => .ok .info
  | some text => (Level.parse text).mapError fun _ => (d.invalid "level").withContext "value" text

/-- The console stream of a definition. -/
def ofDefinition (d : Definition) (view : Bag) : Except Error Console := do
  let level ← configuredLevel d view
  let channels ← d.strings "channels"
  return ⟨d.id, level, channels⟩

end Console

namespace Stream

variable {σ : Type}

/-- The path that holds the definitions of streams. -/
def path : String := "log.streams"

/-- Create a console stream. -/
def consoleCreator : Creator Config (Stream σ) := fun id fields => do
  let config ← Act.current
  let console ← Act.ofExcept (Console.ofDefinition ⟨id, fields, none⟩ config.merged)
  return console.stream

/-- A factory of streams without drivers. -/
def factory : Factory Config (Stream σ) := .empty "log stream" path Config.merged

/-- Register the drivers of streams. -/
def registerDrivers : Act (Factory Config (Stream σ)) Unit :=
  Factory.register "console" consoleCreator

end Stream
end LayeredConfig
