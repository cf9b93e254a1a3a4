import LayeredConfig.Log.Logger
import LayeredConfig.Proofs.Actions
import LayeredConfig.SortedMap.Lemmas

/-!
# Signals

A logger passes a record to its streams one after the other.  Each is asked whether it wants the
record, and the record is written to it at once if it does.  Which streams these are can be told
from what was asked of the logger before, whatever became of earlier writes.

The calls of streams are those that the streams would write down themselves, in a list that nobody
reads.

## Key results

- `Logger.signal_overheard`: to listen to the streams changes nothing else
- `Logger.visits_deliver`: what streams are called for, and in which order
- `Logger.Holds.serveAll`: which streams are attached, and the least level
- `Logger.delivers`: what becomes of a signal in the course of any run
-/

namespace LayeredConfig

/-- Apply `f` to every key with its value, keeping the keys. -/
def Entries.mapKeyed {κ : Type} [Ord κ] {α β : Type} (f : κ → α → β) {lo : Option κ} :
    Entries κ α lo → Entries κ β lo
  | .nil => .nil
  | .cons k v h rest => .cons k (f k v) h (rest.mapKeyed f)

/-- The entries are mapped one by one. -/
theorem Entries.toList_mapKeyed {κ : Type} [Ord κ] {α β : Type} (f : κ → α → β) {lo : Option κ}
    (m : Entries κ α lo) : (m.mapKeyed f).toList = m.toList.map fun e => (e.1, f e.1 e.2) := by
  induction m with
  | nil => rfl
  | cons k v h rest ih => exact congrArg ((k, f k v) :: ·) ih

/-! ## Calls of streams -/

/-- A call of a stream by a logger. -/
inductive Contact
  | asked (id : String) (level : Level) (channel : String) (answer : Bool)
  | wrote (id : String) (r : Record) (outcome : Except Error Unit)

/-- To which stream a call writes, and what. -/
def Contact.written? : Contact → Option (String × Record)
  | .asked _ _ _ _ => none
  | .wrote id r _ => some (id, r)

/-- Surroundings in which the calls of streams are written down. -/
structure Overheard (σ : Type) where
  around : σ
  contacts : List Contact

variable {σ : Type}

/-- The stream that does the same and writes it down. -/
def Stream.overheard (id : String) (stream : Stream σ) : Stream (Overheard σ) where
  accepts level channel w :=
    let (answer, s) := stream.accepts level channel w.around
    (answer, ⟨s, w.contacts ++ [.asked id level channel answer]⟩)
  write r w :=
    let o := stream.write r w.around
    ⟨o.result, ⟨o.state, w.contacts ++ [.wrote id r o.result]⟩, o.notes⟩

/-- Streams are called about a record, one after the other: each is asked, and the record is written
to it if it accepts.  The outcome of a write does not matter to what follows. -/
inductive Visits (r : Record) : List (String × Stream σ) → σ → List Contact → σ → Prop
  | done (s : σ) : Visits r [] s [] s
  | refused {id : String} {stream : Stream σ} {rest : List (String × Stream σ)} {s s' s'' : σ}
      {contacts : List Contact} (hasked : stream.accepts r.level r.channel s = (false, s'))
      (hrest : Visits r rest s' contacts s'') :
      Visits r ((id, stream) :: rest) s (.asked id r.level r.channel false :: contacts) s''
  | written {id : String} {stream : Stream σ} {rest : List (String × Stream σ)} {s s' s'' : σ}
      {contacts : List Contact} (hasked : stream.accepts r.level r.channel s = (true, s'))
      (hrest : Visits r rest (stream.write r s').state contacts s'') :
      Visits r ((id, stream) :: rest) s
        (.asked id r.level r.channel true :: .wrote id r (stream.write r s').result :: contacts) s''

/-- A stream that wants records of certain levels on certain channels, whatever happens. -/
def Stream.Wants (stream : Stream σ) (wants : Level → String → Bool) : Prop :=
  ∀ level channel s, stream.accepts level channel s = (wants level channel, s)

/-- Records are written to the streams that want them, once to each and in order. -/
theorem Visits.written_eq {r : Record} {streams : List (String × Stream σ)} {s s' : σ}
    {contacts : List Contact} (h : Visits r streams s contacts s')
    {wants : String → Level → String → Bool} (hwants : ∀ e ∈ streams, e.2.Wants (wants e.1)) :
    contacts.filterMap Contact.written? =
      ((streams.map Prod.fst).filter fun id => wants id r.level r.channel).map (·, r) := by
  induction h with
  | done => rfl
  | @refused id _ _ _ _ _ _ hasked _ ih =>
    obtain ⟨hfirst, hothers⟩ := List.forall_mem_cons.mp hwants
    have hanswer : wants id r.level r.channel = false :=
      congrArg Prod.fst ((hfirst _ _ _).symm.trans hasked)
    simp [List.filterMap_cons, Contact.written?, hanswer, ih hothers]
  | @written id _ _ _ _ _ _ hasked _ ih =>
    obtain ⟨hfirst, hothers⟩ := List.forall_mem_cons.mp hwants
    have hanswer : wants id r.level r.channel = true :=
      congrArg Prod.fst ((hfirst _ _ _).symm.trans hasked)
    simp [List.filterMap_cons, Contact.written?, hanswer, ih hothers]

namespace Logger

/-! ## One signal -/

/-- The logger whose streams write down their calls. -/
def overheard (l : Logger σ) : Logger (Overheard σ) :=
  ⟨l.level, l.streams.mapKeyed Stream.overheard⟩

/-- The calls of streams in the course of a signal. -/
def contacts (r : Record) (p : Logger σ × σ) : List Contact :=
  (p.1.overheard.signal r ⟨p.2, []⟩).state.contacts

/-- The first stream is asked, and written to if it accepts, before the others have their turns. -/
theorem deliver_cons (r : Record) (id : String) (stream : Stream σ)
    (rest : List (String × Stream σ)) (s : σ) :
    deliver r ((id, stream) :: rest) s = match stream.accepts r.level r.channel s with
      | (false, s') => deliver r rest s'
      | (true, s') => (deliver r rest (stream.write r s').state).after
          ((stream.write r s').notes ++
            (reportOf id (stream.write r s').result).map .event) := by
  simp only [deliver, Act.bind_apply, Act.ofState]
  rcases stream.accepts r.level r.channel s with ⟨answer, s'⟩
  cases answer with
  | false => simp [Outcome.after]
  | true => simp [Act.bind_apply, Act.attempt, Act.reportAll, Outcome.after]

/-- Streams that write down their calls are called as they should be, and do the same. -/
theorem visits_deliver (r : Record) (streams : List (String × Stream σ)) (s : σ) :
    ∃ contacts, Visits r streams s contacts (deliver r streams s).state ∧
      ∀ before, deliver r (streams.map fun e => (e.1, e.2.overheard e.1)) ⟨s, before⟩ =
        ⟨.ok (), ⟨(deliver r streams s).state, before ++ contacts⟩, (deliver r streams s).notes⟩ := by
  -- On the streams, for any surroundings: each stream leaves those behind it in others.
  induction streams generalizing s with
  | nil => exact ⟨[], .done s, fun before => by simp [deliver, Act.pure_apply]⟩
  | cons e rest ih =>
    obtain ⟨id, stream⟩ := e
    rcases hasked : stream.accepts r.level r.channel s with ⟨answer, s'⟩
    cases answer with
    | false =>
      -- A stream that refuses is asked, and that is all.
      obtain ⟨contacts, hvisits, hdeliver⟩ := ih s'
      have hrest : deliver r ((id, stream) :: rest) s = deliver r rest s' := by
        rw [deliver_cons, hasked]
      refine ⟨.asked id r.level r.channel false :: contacts, ?_, fun before => ?_⟩
      · rw [hrest]
        exact .refused hasked hvisits
      · rw [hrest, List.map_cons, deliver_cons]
        simp only [Stream.overheard, hasked]
        exact (hdeliver _).trans (by simp)
    | true =>
      -- A stream that accepts is written to.  Those behind it start from what the write left, and
      -- what it came to is only reported.
      obtain ⟨contacts, hvisits, hdeliver⟩ := ih (stream.write r s').state
      have hrest : deliver r ((id, stream) :: rest) s =
          (deliver r rest (stream.write r s').state).after
            ((stream.write r s').notes ++
              (reportOf id (stream.write r s').result).map .event) := by
        rw [deliver_cons, hasked]
      refine ⟨.asked id r.level r.channel true :: .wrote id r (stream.write r s').result ::
        contacts, ?_, fun before => ?_⟩
      · rw [hrest]
        exact .written hasked hvisits
      · rw [hrest, List.map_cons, deliver_cons]
        simp only [Stream.overheard, hasked]
        exact (congrArg (Outcome.after _) (hdeliver _)).trans (by simp [Outcome.after])

/-- Of a signal that is severe enough all streams are told, in ascending order of their ids. -/
theorem visits_signal {l : Logger σ} {r : Record} (h : l.level ≤ r.level) (s : σ) :
    Visits r l.streams.toList s (contacts r (l, s)) (l.signal r s).state ∧
      ∀ before, l.overheard.signal r ⟨s, before⟩ =
        ⟨.ok (), ⟨(l.signal r s).state, before ++ contacts r (l, s)⟩, (l.signal r s).notes⟩ := by
  obtain ⟨heard, hvisits, hdeliver⟩ := visits_deliver r l.streams.toList s
  have hsignal : l.signal r = deliver r l.streams.toList := if_pos h
  have hoverheard : l.overheard.signal r =
      deliver r (l.streams.toList.map fun e => (e.1, e.2.overheard e.1)) := by
    have hstreams := Entries.toList_mapKeyed Stream.overheard l.streams
    exact (if_pos h).trans (congrArg (deliver r) hstreams)
  have hcontacts : contacts r (l, s) = heard := by
    rw [contacts, hoverheard, hdeliver]
    exact List.nil_append heard
  rw [hsignal, hoverheard, hcontacts]
  exact ⟨hvisits, hdeliver⟩

/-- Nobody is told of any other signal. -/
theorem signal_of_lt {l : Logger σ} {r : Record} (h : r.level < l.level) : l.signal r = pure () :=
  if_neg (Nat.not_le.mpr h)

/-- So nobody is called. -/
theorem contacts_of_lt {l : Logger σ} {r : Record} (h : r.level < l.level) (s : σ) :
    contacts r (l, s) = [] := by
  have hoverheard : l.overheard.signal r = pure () := signal_of_lt h
  rw [contacts, hoverheard]
  rfl

/-- To listen to the streams changes nothing else. -/
theorem signal_overheard (l : Logger σ) (r : Record) (w : Overheard σ) :
    l.overheard.signal r w =
      ⟨.ok (), ⟨(l.signal r w.around).state, w.contacts ++ contacts r (l, w.around)⟩,
        (l.signal r w.around).notes⟩ := by
  by_cases h : l.level ≤ r.level
  · exact (visits_signal h w.around).2 w.contacts
  · have hlt : r.level < l.level := Nat.not_le.mp h
    have hoverheard : l.overheard.signal r = pure () := signal_of_lt hlt
    rw [hoverheard, signal_of_lt hlt, contacts_of_lt hlt, List.append_nil]
    rfl

/-- A signal never fails. -/
theorem result_signal (l : Logger σ) (r : Record) (s : σ) : (l.signal r s).result = .ok () := by
  -- What a write comes to is reported and not returned.
  have hdeliver (streams : List (String × Stream σ)) (s : σ) :
      (deliver r streams s).result = .ok () := by
    induction streams generalizing s with
    | nil => rfl
    | cons e rest ih =>
      rw [deliver_cons]
      split
      · exact ih _
      · exact ih _
  rw [signal]
  split
  · exact hdeliver _ s
  · rfl

/-! ## Runs -/

/-- What is asked of a logger. -/
inductive Request (σ : Type)
  | attach (id : String) (stream : Stream σ)
  | detach (id : String)
  /-- Pass on nothing below a level. -/
  | restrict (level : Level)
  | signal (r : Record)

/-- What a request leaves behind. -/
def serve (p : Logger σ × σ) : Request σ → Logger σ × σ
  | .attach id stream => (p.1.attach id stream, p.2)
  | .detach id => (p.1.detach id, p.2)
  | .restrict level => ({ p.1 with level }, p.2)
  | .signal r => (p.1, (p.1.signal r p.2).state)

/-- What requests leave behind, one after the other. -/
def serveAll (p : Logger σ × σ) (qs : List (Request σ)) : Logger σ × σ := qs.foldl serve p

namespace Request

/-- The streams that are attached after a request, by id. -/
def attach? (held : String → Option (Stream σ)) : Request σ → String → Option (Stream σ)
  | .attach id stream => fun i => if i = id then some stream else held i
  | .detach id => fun i => if i = id then none else held i
  | .restrict _ => held
  | .signal _ => held

/-- The least level that is passed on after a request. -/
def least (level : Level) : Request σ → Level
  | .restrict level => level
  | _ => level

end Request

/-- The streams that were attached and not detached again, by id. -/
def attached (qs : List (Request σ)) : String → Option (Stream σ) :=
  qs.foldl Request.attach? fun _ => none

/-- The level that a logger was restricted to last. -/
def minimum (qs : List (Request σ)) : Level := qs.foldl Request.least .debug

/-- A logger holds these streams, and passes on nothing below this level. -/
structure Holds (l : Logger σ) (held : String → Option (Stream σ)) (least : Level) : Prop where
  streams : ∀ id, l.streams.find? id = held id
  level : l.level = least

/-- One request does to the logger what it does to the streams and the level that are held. -/
theorem Holds.serve {p : Logger σ × σ} {held : String → Option (Stream σ)} {least : Level}
    (h : Holds p.1 held least) (q : Request σ) :
    Holds (Logger.serve p q).1 (q.attach? held) (q.least least) := by
  cases q with
  | attach id stream =>
    refine ⟨fun i => ?_, h.level⟩
    exact (Entries.find?_insert _ _ _ _).trans (by rw [h.streams, Request.attach?])
  | detach id =>
    refine ⟨fun i => ?_, h.level⟩
    exact (Entries.find?_erase _ _ _).trans (by rw [h.streams, Request.attach?])
  | restrict level => exact ⟨h.streams, rfl⟩
  -- A signal attaches and restricts nothing.
  | signal r => exact h

/-- A whole run does to the logger what it does to the streams and the level that are held. -/
theorem Holds.serveAll {p : Logger σ × σ} {held : String → Option (Stream σ)} {least : Level}
    (h : Holds p.1 held least) (qs : List (Request σ)) :
    Holds (Logger.serveAll p qs).1 (qs.foldl Request.attach? held)
      (qs.foldl Request.least least) := by
  induction qs generalizing p held least with
  | nil => exact h
  | cons q qs ih => exact ih (h.serve q)

/-- A list of streams with their ids, in ascending order. -/
structure Lists (held : String → Option (Stream σ)) (streams : List (String × Stream σ)) :
    Prop where
  ascending : (streams.map Prod.fst).Pairwise (· < ·)
  mem_iff : ∀ id stream, (id, stream) ∈ streams ↔ held id = some stream

/-- The streams of a logger are listed in ascending order of ids. -/
theorem Holds.lists {l : Logger σ} {held : String → Option (Stream σ)} {least : Level}
    (h : Holds l held least) : Lists held l.streams.toList where
  ascending := Entries.pairwise_lt_keys l.streams
  mem_iff id stream := by rw [← h.streams, Entries.find?_eq_some_iff_mem]

/-- What becomes of a signal: the calls of streams that it leads to, and what they leave behind. -/
structure Delivered (held : String → Option (Stream σ)) (least : Level) (r : Record) (s : σ)
    (contacts : List Contact) (s' : σ) : Prop where
  /-- Below the least level no stream is even asked. -/
  below : r.level < least → contacts = [] ∧ s' = s
  /-- Otherwise all attached streams have their turns, in ascending order of ids. -/
  visits : least ≤ r.level → ∃ streams, Lists held streams ∧ Visits r streams s contacts s'
  /-- So the record is written once to each of them that wants it, and to no other stream. -/
  written : least ≤ r.level → ∀ wants : String → Level → String → Bool,
    (∀ id stream, held id = some stream → stream.Wants (wants id)) →
    ∃ ids : List String, ids.Pairwise (· < ·) ∧
      (∀ id, id ∈ ids ↔ (held id).isSome ∧ wants id r.level r.channel = true) ∧
      contacts.filterMap Contact.written? = ids.map (·, r)

/-- What is held tells what becomes of a signal. -/
theorem Holds.delivered {l : Logger σ} {held : String → Option (Stream σ)} {least : Level}
    (h : Holds l held least) (r : Record) (s : σ) :
    Delivered held least r s (contacts r (l, s)) (l.signal r s).state where
  below hlt := by
    rw [← h.level] at hlt
    exact ⟨contacts_of_lt hlt s, by rw [signal_of_lt hlt]; rfl⟩
  visits hle := by
    rw [← h.level] at hle
    exact ⟨l.streams.toList, h.lists, (visits_signal hle s).1⟩
  written hle wants hwants := by
    rw [← h.level] at hle
    -- Those that want the record, in the order in which all of them are called.
    refine ⟨l.streams.keys.filter fun id => wants id r.level r.channel,
      h.lists.ascending.filter _, fun id => ?_, ?_⟩
    · rw [List.mem_filter, Entries.mem_keys_iff, h.streams]
    · refine (visits_signal hle s).1.written_eq fun e he => ?_
      exact hwants e.1 e.2 ((h.lists.mem_iff e.1 e.2).mp he)

/-- A new logger holds no streams and passes on everything. -/
theorem holds_empty : Holds (empty : Logger σ) (fun _ => none) .debug := ⟨fun _ => rfl, rfl⟩

/-- A console wants what is severe enough for it, on its channels or on any if it names none. -/
theorem accepts_console (c : Console) (level : Level) (channel : String) (s : σ) :
    (c.stream : Stream σ).accepts level channel s =
      (decide (c.level ≤ level ∧ (c.channels = [] ∨ channel ∈ c.channels)), s) := by
  cases h : c.channels <;> simp [Console.stream, Console.accepts, h]

/-- In the course of any run, the streams that are attached and the least level are those that were
asked for last, and a signal is delivered to them, as streams that listen have it.  It never fails,
whatever its writes come to. -/
theorem delivers (s : σ) (qs : List (Request σ)) (r : Record) :
    let p := serveAll (empty, s) qs
    Holds p.1 (attached qs) (minimum qs) ∧
      Delivered (attached qs) (minimum qs) r p.2 (contacts r p) (serve p (.signal r)).2 ∧
      (∀ before, p.1.overheard.signal r ⟨p.2, before⟩ =
        ⟨.ok (), ⟨(p.1.signal r p.2).state, before ++ contacts r p⟩, (p.1.signal r p.2).notes⟩) ∧
      (p.1.signal r p.2).result = .ok () ∧
      ∀ (c : Console) (level : Level) (channel : String) (s : σ), c.stream.accepts level channel s =
        (decide (c.level ≤ level ∧ (c.channels = [] ∨ channel ∈ c.channels)), s) := by
  intro p
  have hholds : Holds p.1 (attached qs) (minimum qs) := holds_empty.serveAll qs
  exact ⟨hholds, hholds.delivered r p.2, fun before => signal_overheard p.1 r ⟨p.2, before⟩,
    result_signal p.1 r p.2, accepts_console⟩

/-- A stream that wants everything, and whose writes all come to the same. -/
def recorder (outcome : Except Error Unit) : Stream (List String) where
  accepts _ _ s := (true, s)
  write r := do
    Act.modify (· ++ [r.message])
    Act.ofExcept outcome

/-- A write that fails keeps nobody else from being told, in the order of ids.  A console for
another channel is asked but not written to, and who was detached is not even asked. -/
theorem delivers_past_failure :
    let full : Error := .io "full"
    let qs : List (Request (List String)) := [.attach "d" (recorder (.ok ())),
      .attach "a" (recorder (.error full)), .attach "c" (recorder (.ok ())),
      .attach "b" (Console.stream ⟨"b", .info, ["db"]⟩), .restrict .notice, .detach "d"]
    let r : Record := ⟨.warning, "app", "hot", .nil⟩
    let p := serveAll (empty, []) qs
    contacts r p = [.asked "a" .warning "app" true, .wrote "a" r (.error full),
        .asked "b" .warning "app" false, .asked "c" .warning "app" true, .wrote "c" r (.ok ())] ∧
      (serve p (.signal r)).2 = ["hot", "hot"] ∧ (p.1.signal r p.2).result = .ok () ∧
      ∃ streams, Lists (attached qs) streams ∧
        Visits r streams p.2 (contacts r p) (serve p (.signal r)).2 := by
  intro full qs r p
  obtain ⟨-, hdelivered, -, hresult, -⟩ := delivers [] qs r
  exact ⟨rfl, rfl, hresult, hdelivered.visits (by decide)⟩

end Logger
end LayeredConfig
