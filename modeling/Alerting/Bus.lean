import Alerting.Event
import Alerting.Queue

/-!
# The event bus

Events wait on a bus of bounded capacity until its one worker delivers them, in the order in which
they were accepted, to the handlers that were subscribed when the delivery began. A stopped bus
accepts nothing more, but delivers what it has accepted. The worker leaves when the bus is stopped,
or nobody can publish on it any more, and no event waits.
-/

namespace Alerting

inductive Publication where
  | enqueued
  | dropped
  | stopped
deriving DecidableEq, Repr

structure Delivery (Handler : Type) where
  event : Event
  pending : List Handler

structure Bus (Handler : Type) where
  capacity : Nat
  queue : Queue Event := .empty
  handlers : List Handler := []
  delivery : Option (Delivery Handler) := none
  dropped : Nat := 0
  failures : Nat := 0
  stopped : Bool := false
  /-- Whether the worker has noticed that the bus is stopped. -/
  closed : Bool := false
  finished : Bool := false
  awaited : Bool := false

namespace Bus

variable {Handler : Type}

def defaultCapacity : UInt64 := 1000

/-- The largest number of events for which a bus can have room. -/
def largestCapacity : Nat := Nat.pow 2 61 - 1

def start (capacity : Nat) : Bus Handler := { capacity := max capacity 1 }

def subscribe (bus : Bus Handler) (handler : Handler) : Bus Handler :=
  { bus with handlers := bus.handlers ++ [handler] }

def offer (bus : Bus Handler) (event : Event) : Publication × Bus Handler :=
  if bus.closed then (.stopped, bus)
  else if bus.queue.size < bus.capacity then
    (.enqueued, { bus with queue := bus.queue.push event })
  else (.dropped, { bus with dropped := bus.dropped + 1 })

def publish (bus : Bus Handler) (event : Event) (now : Instant) : Publication × Bus Handler :=
  if bus.stopped then (.stopped, bus) else bus.offer (event.stamp now)

def stop (bus : Bus Handler) : Bus Handler := { bus with stopped := true }

def hasWork (bus : Bus Handler) : Bool := bus.stopped || !bus.queue.isEmpty

def notice (bus : Bus Handler) : Bus Handler := { bus with closed := bus.closed || bus.stopped }

def take? (bus : Bus Handler) : Option (Event × Bus Handler) :=
  bus.queue.head?.map fun event => (event, { bus with queue := bus.queue.tail })

def deliver (bus : Bus Handler) (event : Event) : Bus Handler :=
  { bus with delivery := some ⟨event, bus.handlers⟩ }

def leave (bus : Bus Handler) : Bus Handler := { bus with finished := true }

def begin (bus : Bus Handler) : Bus Handler :=
  match bus.notice.take? with
  | some (event, rest) => rest.deliver event
  | none => bus.notice.leave

def settle (bus : Bus Handler) (succeeded : Bool) : Bus Handler :=
  { bus with
    delivery := bus.delivery.map fun delivery =>
      { delivery with pending := delivery.pending.drop 1 }
    failures := if succeeded then bus.failures else bus.failures + 1 }

def complete (bus : Bus Handler) : Bus Handler := { bus with delivery := none }

def summary (bus : Bus Handler) : String :=
  "AlertEventBus \x7b handlers: " ++ toString bus.handlers.length ++ ", queued: " ++
    toString bus.queue.size ++ ", dropped: " ++ toString bus.dropped ++ ", stopped: " ++
    toString bus.stopped ++ " \x7d"

end Bus

end Alerting
