/-
  Handlers as programs.

  1. **Plans** — a handler has a plan: for every time that it is called, the deeds that it does then (`Deed.plan`).  It
     may use the bus in every way, note something, fail, or give up the whole publish.

  2. **Names** — a name belongs to the handler that was defined last under it, until it is dropped (`Workshop.define`,
     `Workshop.forget`).  A handler whose name has gone is alive only as long as a subscription or a delivery keeps it.

  3. **Calls** — `perform` does the deeds of a call in order, up to one that fails or gives up, and `surroundings` makes
     a `Workshop` the surroundings of a bus.

  4. **Fuel** — a handler publishes as anybody else does; what that comes to depends on what the bus is doing.  Since
     publishing calls handlers and handlers publish, `workshop` is built along a bound on how often one stands inside
     the other.
-/
import ChatScene.Log
import ChatScene.Bus.Basic

namespace ChatScene.Bus

/-- One deed of a handler. -/
inductive Deed where
  /-- Defines a handler: its name, and what it does when it is called for the `n`-th time, counted from zero. -/
  | plan (name : String) (deeds : Nat → List Deed)
  | subscribe (topic : Topic) (name : String) (weak : Bool)
  | unsubscribe (topic : Topic) (name : String)
  | clear (topic : Option Topic)
  | publish (topic : Topic) (data : Values)
  /-- The name goes away. -/
  | drop (name : String)
  | note (text : String)
  | fail (text : String)
  | abort (text : String)

/-- Defines a handler that always does the same, or during so many calls. -/
def Deed.define (name : String) (deeds : List Deed) (limit : Option Nat) : Deed :=
  .plan name fun n => if limit.all (n < ·) then deeds else []

/-- A handler. -/
structure Handler where
  /-- The name that it was defined under. -/
  name : String
  /-- What it does when it is called for the `n`-th time, counted from zero. -/
  deeds : Nat → List Deed
  /-- How often it has been called. -/
  calls : Nat := 0

/-- What is seen of a run. -/
inductive Sight where
  | call (name : String) (topic : Topic) (data : Values)
  | note (text : String)
  | log (line : LogLine)

/-- The handlers, and what has been seen. -/
structure Workshop where
  /-- All handlers ever defined; their numbers are their places. -/
  handlers : List Handler := []
  /-- The names and their handlers. -/
  names : List (String × Nat) := []
  /-- What has been seen, latest first. -/
  seen : List Sight := []

namespace Workshop

/-- The handler of a name. -/
def find? (w : Workshop) (name : String) : Option Nat := w.names.lookup name

/-- The name is gone. -/
def forget (w : Workshop) (name : String) : Workshop :=
  { w with names := w.names.filter fun (k, _) => k ≠ name }

/-- A new handler, which takes over its name. -/
def define (w : Workshop) (name : String) (deeds : Nat → List Deed) : Workshop :=
  { w with handlers := w.handlers ++ [{ name, deeds }]
           -- The older handler of that name loses it, and with it what kept it alive from outside.
           names := (w.forget name).names ++ [(name, w.handlers.length)] }

/-- Something is seen. -/
def see (w : Workshop) (s : Sight) : Workshop := { w with seen := s :: w.seen }

/-- The handler has been called once more. -/
def countCall (w : Workshop) (handler : Nat) : Workshop :=
  { w with handlers := w.handlers.modify handler fun h => { h with calls := h.calls + 1 } }

end Workshop

/-- How a deed ends. -/
inductive Outcome where
  | done
  | failed (text : String)
  | aborted (text : String)
deriving DecidableEq, Repr

/-- How events are published; nothing if that does not come to an end. -/
abbrev Publisher := Event Values → Bus Values → Workshop → Option (Bus Values × Workshop × Option String)

variable (publisher : Publisher)

/-- A deed; nothing if it does not come to an end. -/
def act (deed : Deed) (b : Bus Values) (w : Workshop) : Option (Bus Values × Workshop × Outcome) :=
  let withHandler (name : String) (use : Nat → Bus Values) : Option (Bus Values × Workshop × Outcome) :=
    -- A name without a handler is passed over.
    some ((w.find? name).elim b use, w, .done)
  match deed with
  | .plan name deeds => some (b, w.define name deeds, .done)
  | .subscribe topic name weak => withHandler name fun handler => b.subscribe topic ⟨handler, weak⟩
  | .unsubscribe topic name => withHandler name fun handler => b.unsubscribe topic handler
  | .clear (some topic) => some (b.clear topic, w, .done)
  | .clear none => some (b.clearAll, w, .done)
  | .publish topic data =>
    (publisher ⟨topic, data⟩ b w).map fun (b, w, aborted) => (b, w, aborted.elim .done .aborted)
  | .drop name => some (b, w.forget name, .done)
  | .note text => some (b, w.see (.note text), .done)
  | .fail text => some (b, w, .failed text)
  | .abort text => some (b, w, .aborted text)

/-- The deeds of a handler in order, up to one that fails or gives up; nothing if one does not come to an end. -/
def perform : List Deed → Bus Values → Workshop → Option (Bus Values × Workshop × Ending)
  | [], b, w => some (b, w, .returned)
  | deed :: deeds, b, w =>
    match act publisher deed b w with
    | none => none
    | some (b, w, .done) => perform deeds b w
    | some (b, w, .failed _) => some (b, w, .failed)
    | some (b, w, .aborted text) => some (b, w, .aborted text)

/-- What is said of a call that does not come to an end. -/
def endless : String := "a call does not come to an end"

/-- The call of a handler: it is seen and counted, and the handler does the deeds of this call. -/
def callHandler (handler : Nat) (event : Event Values) (b : Bus Values) (w : Workshop) :
    Bus Values × Workshop × Ending :=
  match w.handlers[handler]? with
  | none => (b, w, .returned)
  | some h =>
    let w := (w.see (.call h.name event.topic event.data)).countCall handler
    -- The count in `h` is from before this call, so the first call has number zero.
    (perform publisher (h.deeds h.calls) b w).getD (b, w, .aborted endless)

/-- The report of a failed handler. -/
def failureReport (topic : Topic) : LogLine :=
  ⟨.error, .bus, s!"Error in event handler for ChatEvent.{topic.name}"⟩

/-- Handlers with names, as the surroundings of a bus. -/
def surroundings : Surroundings Values Workshop where
  -- A name is the only thing outside the bus that keeps a handler alive.
  owned w handler := w.names.any fun (_, n) => n = handler
  call := callHandler publisher
  report event w := w.see (.log (failureReport event.topic))

/-- Handlers that publish on the bus that calls them: inside a publish with so much fuel, they have one less for their
    own. -/
def workshop : Nat → Surroundings Values Workshop
  -- Reached only by handlers that publish deeper than the fuel allows.
  | 0 => surroundings fun _ _ _ => none
  | fuel + 1 => surroundings fun event b w => publish (workshop fuel) fuel event b w

/-- A deed done from outside; nothing if the fuel does not suffice. -/
def doDeed (fuel : Nat) (deed : Deed) (b : Bus Values) (w : Workshop) :
    Option (Bus Values × Workshop × Outcome) :=
  act (publish (workshop fuel) fuel) deed b w

end ChatScene.Bus
