import LayeredConfig.Config.Registry

/-! # Reactions

What observers may do about a change, and the records of it.

* `Reaction`   what an observer does in one call
* `Observer`   the reaction to each change
* `Deed`       a step of a reaction that others can tell
* `Call`       the record of one call of an observer -/

namespace LayeredConfig

/-- What an observer does: it may look at the configuration, which is always the latest, and write
to it any number of times, and ends well or with an error. -/
inductive Reaction
  | finish (outcome : Except Error Unit)
  /-- Look at the merged view. -/
  | look (next : Bag → Reaction)
  /-- Look at the registered sources. -/
  | survey (next : Registry → Reaction)
  /-- Turn to what it remembers.  An observer may keep a state of its own from call to call, so it
  is told how many calls there were so far. -/
  | remember (next : Nat → Reaction)
  /-- A write, which tells whether there was anything to do. -/
  | write (w : Write) (next : Except Error Bool → Reaction)

/-- An observer of a path. -/
abbrev Observer : Type := Change → Reaction

/-- A look at the configuration or a write to it. -/
inductive Deed
  | saw (view : Bag)
  | surveyed (registry : Registry)
  | wrote (w : Write) (result : Except Error Bool)

/-- One call of an observer: which one, what it was told, what it did and how it ended. -/
structure Call where
  observer : String
  change : Change
  deeds : List Deed
  outcome : Except Error Unit

end LayeredConfig
