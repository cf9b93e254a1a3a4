import LayeredConfig.Config.Basic

/-! # Delivering rounds to observers

A write ends with the delivery of the rounds that wait.  An observer may write as well, and then its
write comes to the same point; since the lock is held there, the round is left in the queue for the
delivery that is going on.  To show this, delivery is a machine with a stack of what is under way,
and goes on step by step until the stack is empty.

* `Frame`           what may be under way
* `Thread`          a configuration and a stack
* `Thread.write`    begin a write
* `Thread.step`     go on with the innermost frame
* `Thread.settle`   go on until nothing is under way
* `Config.write`    a write from beginning to end -/

namespace LayeredConfig

/-- The calls about a change at a path. -/
structure Publication where
  path : String
  change : Change
  /-- The observers that were not called yet. -/
  rest : List (String × Observer)
  /-- The first failure of those that were. -/
  failure : Option Error

/-- What is under way. -/
inductive Frame
  /-- To deliver what waits, unless somebody else does. -/
  | dispatch
  /-- To deliver one round after the other; the lock is held. -/
  | drain
  /-- To make sure that nothing was queued before the lock was free again. -/
  | leave
  /-- To tell the observers of some paths about a round. -/
  | notify (round : Round) (paths : List String)
  /-- To call observers of one path. -/
  | publish (p : Publication)
  /-- To do what an observer wants done, in the course of a publication. -/
  | call (id : String) (reaction : Reaction) (p : Publication)

/-- A configuration with what is under way, the innermost first, and what happened so far. -/
structure Thread where
  config : Config
  stack : List Frame
  notes : List Note

instance : Inhabited Thread := ⟨⟨default, [], []⟩⟩

/-- What is reported of a publication: its first failure. -/
def Publication.report (p : Publication) : List Event :=
  p.failure.toList.map fun e =>
    ⟨.warn, "config observer failed", [("path", p.path), ("error", e.message)]⟩

namespace Thread

/-- Apply a write, deliver if there was anything to do, and `resume` with the result. -/
def write (w : Write) (resume : Except Error Bool → List Frame) (t : Thread) : Thread :=
  let o := Config.enact w t.config
  { config := o.state
    notes := t.notes ++ o.notes
    stack := match o.result with
      | .ok true => .dispatch :: resume o.result
      | _ => resume o.result }

/-- Go on with a call, in the course of the publication `p`. -/
def react (id : String) (p : Publication) (below : List Frame) (t : Thread) : Reaction → Thread
  | .finish outcome =>
    { t with
      stack := .publish { p with failure := PubSub.firstFailure p.failure outcome } :: below
      notes := t.notes ++ .ended outcome :: (PubSub.reportOf id p.path outcome).map .event }
  | .look next =>
    { t with
      stack := .call id (next t.config.merged) p :: below
      notes := t.notes ++ [.deed (.saw t.config.merged)] }
  | .survey next =>
    { t with
      stack := .call id (next t.config.registry) p :: below
      notes := t.notes ++ [.deed (.surveyed t.config.registry)] }
  | .remember next => { t with stack := .call id (next t.config.served) p :: below }
  | .write w next => t.write w fun result => .call id (next result) p :: below

/-- Go on with the innermost frame. -/
def step (t : Thread) : Thread :=
  match t.stack with
  | [] => t
  | .dispatch :: below =>
    -- Whoever holds the lock delivers everything, so there is nothing to wait for.
    if t.config.dispatching then { t with stack := below }
    else { t with config := { t.config with dispatching := true }, stack := .drain :: below }
  | .drain :: below =>
    match t.config.pending with
    | [] => { t with config := { t.config with dispatching := false }, stack := .leave :: below }
    | round :: later =>
      { t with
        config := { t.config with pending := later }
        stack := .notify round t.config.observers.channels :: .drain :: below }
  | .leave :: below =>
    { t with stack := if t.config.pending.isEmpty then below else .dispatch :: below }
  | .notify _ [] :: below => { t with stack := below }
  | .notify round (path :: paths) :: below =>
    let change : Change := ⟨path, round.before.get? path, round.after.get? path⟩
    if change.old == change.new then { t with stack := .notify round paths :: below }
    else
      -- The observers of now are called, not those of the write.
      let observers := (t.config.observers.handlers path).toList
      { t with stack := .publish ⟨path, change, observers, none⟩ :: .notify round paths :: below }
  | .publish ⟨path, change, [], failure⟩ :: below =>
    { t with
      stack := below
      notes := t.notes ++ (Publication.report ⟨path, change, [], failure⟩).map .event }
  | .publish ⟨path, change, (id, observer) :: rest, failure⟩ :: below =>
    { config := { t.config with served := t.config.served + 1 }
      stack := .call id (observer change) ⟨path, change, rest, failure⟩ :: below
      notes := t.notes ++ [.began id path change] }
  | .call id reaction p :: below => t.react id p below reaction

/-- Go on until nothing is under way.  Observers that keep writing never let it come to that. -/
def settle (t : Thread) : Thread :=
  Id.run (repeatM (fun t => pure (if t.stack.isEmpty then .inr t else .inl t.step)) t)

end Thread

/-- Apply a write and deliver the rounds that wait.  What observers do never changes the result. -/
def Config.write (w : Write) : Act Config Bool := fun c =>
  let t := (Thread.write w (fun _ => []) ⟨c, [], []⟩).settle
  ⟨(enact w c).result, t.config, t.notes⟩

end LayeredConfig
