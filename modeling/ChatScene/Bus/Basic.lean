/-
  The event bus.

  1. **Subscriptions** — handlers are known by number.  `Bus.table` keeps, for each topic, the list of its subscriptions
     in order; a weak subscription does not keep its handler alive.

  2. **Surroundings** — what a handler does when it is called is up to the `Surroundings`, so everything here is stated
     for arbitrary handlers.

  3. **Deliveries** — `Bus.deliver` takes an event to the subscriptions that its topic has when the delivery begins.
     Dead weak subscriptions that are met on the way are removed afterwards, from the list that the delivery began with
     (`Delivery.close`): if that list has been replaced meanwhile, the removal is without effect.

  4. **Publishing** — `Bus.publish` during a delivery only queues.  Events that handlers publish are delivered, first in
     first out, when the current delivery is over (`Bus.drain`).

  5. **Pins** — a delivery keeps some handlers alive until the outermost publish returns (`Bus.pinned`): the one that it
     called last, and those with strong subscriptions in the list that it began with, also when that list has been
     replaced (`Bus.release`).

  6. **The trail** — the bus keeps a `Mark` of all that is done with it, so that the order of publishing, of deliveries
     and of calls can be told from the bus alone.
-/
import ChatScene.Event

namespace ChatScene

/-! ## Subscriptions -/

/-- One subscription. -/
structure Entry where
  /-- The number of the handler. -/
  handler : Nat
  /-- It does not keep the handler alive. -/
  weak : Bool
deriving DecidableEq, Repr

/-- One thing that is done with a bus. -/
inductive Mark (ε : Type) where
  /-- A subscription to a topic is made. -/
  | subscribed (topic : Topic) (entry : Entry)
  /-- The subscriptions of a handler to a topic are taken back. -/
  | unsubscribed (topic : Topic) (handler : Nat)
  /-- The subscriptions to a topic are dropped, or all of them. -/
  | cleared (topic : Option Topic)
  /-- An event is published. -/
  | published (event : Event ε)
  /-- The delivery of an event begins. -/
  | dispatched (event : Event ε)
  /-- The call of a handler begins. -/
  | begins (handler : Nat) (event : Event ε)
  /-- The call of a handler is over. -/
  | ends (handler : Nat) (event : Event ε)

/-- The bus. -/
structure Bus (ε : Type) where
  /-- The subscriptions of each topic that has a list. -/
  table : List (Topic × List Entry) := []
  /-- Events that wait for their delivery, oldest first. -/
  queue : List (Event ε) := []
  /-- A delivery is going on. -/
  publishing : Bool := false
  /-- Topics whose stored list a delivery of this publish began with. -/
  opened : List Topic := []
  /-- Handlers that deliveries of this publish keep alive. -/
  pinned : List Nat := []
  /-- What has been done with the bus, latest first. -/
  trail : List (Mark ε) := []

namespace Bus

variable {ε : Type}

/-- The list of a topic, if it has one. -/
def list? (b : Bus ε) (t : Topic) : Option (List Entry) :=
  (b.table.find? (·.1 = t)).map (·.2)

/-- The subscriptions of a topic. -/
def entries (b : Bus ε) (t : Topic) : List Entry := (b.list? t).getD []

/-- The table with the list of a topic changed; a topic without list keeps none. -/
def editTable (t : Topic) (edit : List Entry → List Entry) :
    List (Topic × List Entry) → List (Topic × List Entry)
  | [] => []
  | (k, es) :: rest => if k = t then (k, edit es) :: rest else (k, es) :: editTable t edit rest

/-- The handlers with strong subscriptions in a list. -/
def strongHandlers (es : List Entry) : List Nat := (es.filter fun e => !e.weak).map (·.handler)

/-- The bus before the list of a topic is replaced: a delivery that began with it keeps its strong handlers. -/
def release (b : Bus ε) (t : Topic) : Bus ε :=
  if b.opened.contains t then
    -- From here on the delivery works on a list that the table does not have any more.
    { b with opened := b.opened.filter (· ≠ t), pinned := strongHandlers (b.entries t) ++ b.pinned }
  else b

/-- One more mark on the trail. -/
def mark (b : Bus ε) (m : Mark ε) : Bus ε := { b with trail := m :: b.trail }

/-- A new subscription at the end of the topic's list. -/
def subscribe (b : Bus ε) (t : Topic) (e : Entry) : Bus ε :=
  match b.list? t with
  -- The list grows in place: a delivery that began with it still has it, though not the new subscription.
  | some _ => { b with table := editTable t (· ++ [e]) b.table, trail := .subscribed t e :: b.trail }
  | none => { b with table := b.table ++ [(t, [e])], trail := .subscribed t e :: b.trail }

/-- The topic's list without the subscriptions of a handler. -/
def unsubscribe (b : Bus ε) (t : Topic) (handler : Nat) : Bus ε :=
  match b.list? t with
  | some _ =>
    -- Unlike a new subscription this makes a new list.
    let b := b.release t
    { b with table := editTable t (·.filter (·.handler ≠ handler)) b.table
             trail := .unsubscribed t handler :: b.trail }
  | none => b.mark (.unsubscribed t handler)

/-- The topic has no list any more. -/
def clear (b : Bus ε) (t : Topic) : Bus ε :=
  let b := b.release t
  { b with table := b.table.filter (·.1 ≠ t), trail := .cleared (some t) :: b.trail }

/-- No topic has a list any more. -/
def clearAll (b : Bus ε) : Bus ε :=
  let b := b.table.foldl (fun b (t, _) => b.release t) b
  { b with table := [], trail := .cleared none :: b.trail }

/-- An event is published and waits for its delivery. -/
def enqueue (b : Bus ε) (e : Event ε) : Bus ε :=
  { b with queue := b.queue ++ [e], trail := .published e :: b.trail }

/-! ## Deliveries -/

/-- A handler that the bus keeps alive. -/
def keeps (b : Bus ε) (handler : Nat) : Bool :=
  b.pinned.contains handler || b.table.any fun (_, es) => (strongHandlers es).contains handler

/-- How a call of a handler ends. -/
inductive Ending where
  /-- It returns. -/
  | returned
  /-- It fails, which concerns no one else. -/
  | failed
  /-- It gives up the whole publish. -/
  | aborted (text : String)
deriving DecidableEq, Repr

/-- What the bus needs to know of the surroundings `β`. -/
structure Surroundings (ε β : Type) where
  /-- A handler that is kept alive from outside. -/
  owned : β → Nat → Bool
  /-- Calling a handler. -/
  call : Nat → Event ε → Bus ε → β → Bus ε × β × Ending
  /-- The report of a failed handler. -/
  report : Event ε → β → β

/-- A delivery in progress. -/
structure Delivery (ε β : Type) where
  /-- The bus. -/
  bus : Bus ε
  /-- The surroundings. -/
  rest : β
  /-- The handler that was called last, if the last subscription was alive. -/
  held : Option Nat := none
  /-- Dead subscriptions met so far. -/
  dead : List Entry := []
  /-- The text with which a handler gave up, if one did. -/
  aborted : Option String := none

/-- A handler that is alive during a delivery. -/
def Delivery.alive {β : Type} (s : Surroundings ε β) (d : Delivery ε β) (handler : Nat) : Bool :=
  s.owned d.rest handler || d.bus.keeps handler || d.held = some handler

/-- The turn of one subscription. -/
def Delivery.visit {β : Type} (s : Surroundings ε β) (event : Event ε) (d : Delivery ε β) (e : Entry) :
    Delivery ε β :=
  if d.alive s e.handler then
    let (bus, rest, ending) := s.call e.handler event (d.bus.mark (.begins e.handler event)) d.rest
    let bus := bus.mark (.ends e.handler event)
    match ending with
    | .returned => { d with bus, rest, held := some e.handler }
    | .failed => { d with bus, rest := s.report event rest, held := some e.handler }
    -- Not reported: whoever published hears of it.
    | .aborted text => { d with bus, rest, held := some e.handler, aborted := some text }
  -- The handler before this one is let go of, although no other has been called.
  else { d with held := none, dead := d.dead ++ [e] }

/-- The turns of a list of subscriptions, up to one that gives up. -/
def Delivery.visitAll {β : Type} (s : Surroundings ε β) (event : Event ε) (d : Delivery ε β) :
    List Entry → Delivery ε β
  | [] => d
  | e :: es =>
    let d := d.visit s event e
    if d.aborted.isSome then d else d.visitAll s event es

/-- The list without the dead subscriptions that were met. -/
def prune (dead : List Entry) (es : List Entry) : List Entry := dead.foldl List.erase es

/-- The bus when a delivery begins with the list of a topic. -/
def openList (b : Bus ε) (t : Topic) : Bus ε :=
  { b with publishing := true, opened := t :: b.opened.filter (· ≠ t) }

/-- The bus when a delivery is over.  If no handler gave up, the dead subscriptions that were met are removed from the
    list that it began with, as long as that is still the list of the topic. -/
def Delivery.close {β : Type} (d : Delivery ε β) (t : Topic) : Bus ε :=
  let b :=
    if d.aborted.isNone && d.bus.opened.contains t then
      { d.bus with table := editTable t (prune d.dead) d.bus.table }
    else d.bus
  -- The last handler stays alive until the outermost publish is over, not only until here.
  { b with publishing := false, pinned := d.held.toList ++ b.pinned }

/-- The delivery of one event. -/
def deliver {β : Type} (s : Surroundings ε β) (event : Event ε) (b : Bus ε) (rest : β) :
    Bus ε × β × Option String :=
  let b := b.mark (.dispatched event)
  let es := b.entries event.topic
  if es.isEmpty then (b, rest, none)
  else
    let d := ({ bus := b.openList event.topic, rest } : Delivery ε β).visitAll s event es
    (d.close event.topic, d.rest, d.aborted)

/-- The bus after the outermost publish: no delivery keeps anything. -/
def settle (b : Bus ε) : Bus ε := { b with opened := [], pinned := [] }

/-- Delivers the queued events, oldest first; nothing if there are more deliveries than the fuel allows. -/
def drain {β : Type} (s : Surroundings ε β) : Nat → Bus ε → β → Option (Bus ε × β × Option String)
  | fuel, b, rest =>
    match b.queue with
    | [] => some (b, rest, none)
    | event :: queue =>
      -- The queue is looked at before the fuel, so that none is needed to find it empty.
      match fuel with
      | 0 => none
      | fuel + 1 =>
        match deliver s event { b with queue } rest with
        | (b, rest, none) => drain s fuel b rest
        | aborted => some aborted

/-- Publishes an event: during a delivery it is queued, otherwise it is delivered, and after it what is queued.  An
    event without subscriptions is over at once, whatever is queued. -/
def publish {β : Type} (s : Surroundings ε β) (fuel : Nat) (event : Event ε) (b : Bus ε) (rest : β) :
    Option (Bus ε × β × Option String) :=
  if b.publishing then some (b.enqueue event, rest, none)
  else
    let b := b.mark (.published event)
    -- The queue is not touched: events that an aborted publish has left there stay.
    if (b.entries event.topic).isEmpty then some (b.mark (.dispatched event), rest, none)
    else
      let result :=
        match deliver s event b rest with
        | (b, rest, none) => drain s fuel b rest
        | aborted => some aborted
      result.map fun (b, rest, aborted) => (b.settle, rest, aborted)

end Bus

end ChatScene
