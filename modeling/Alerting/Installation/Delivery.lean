import Alerting.Installation.Handling
import Alerting.Installation.Holding

/-!
# Delivering events

Publishing puts an event on a bus and returns at once. The worker of the bus gives each event to
the subscribers in turn; one that fails or takes its time does not keep the others from it.
-/

namespace Alerting

namespace Installation

def publish (index : Nat) (event : Event) : Work Publication :=
  .step fun installation =>
    match installation.buses[index]? with
    | none => (.stopped, installation)
    | some bus =>
        let (instant, clock) :=
          if bus.stopped ∨ event.timestamp.isSome then
            (installation.clock.origin, installation.clock)
          else installation.clock.look
        let (publication, bus) := bus.publish event instant
        (publication, { installation with clock, buses := installation.buses.set index bus })

def tryPublish (handle : Nat) (event : Event) : Work Bool := do
  let installation ← Activity.get
  match installation.handles[handle]? with
  | some (some bus) =>
      let _ ← publish bus event
      return true
  | _ => return false

def concerns (event : Event) (property : Option String) : Bool :=
  property.all fun name => (event.properties.get? name).isSome

def enter (entry : SubscriberEntry) : Work Unit :=
  modifyJournal fun journal => { journal with entries := entry :: journal.entries }

def react (bus : Nat) (name : String) (behavior : Behavior) (event : Event) : Work Bool := do
  match behavior with
  | .fail property => if concerns event property then return false
  | .linger millis => Activity.pause millis
  | .echo property =>
      if concerns event (some property) then
        let publication ←
          publish bus { event with properties := event.properties.erase property }
        enter (.publication name publication)
  | .recruit property =>
      if concerns event (some property) then
        modifyBus bus fun bus => bus.subscribe (.named (name ++ "+") .record)
  | .stopBus property => if concerns event property then modifyBus bus Bus.stop
  | .record => pure ()
  enter (.event name event)
  return true

def give (bus : Nat) (event : Event) : Subscriber → Work Bool
  | .engine index => do
      let _ ← handle index event
      return true
  | .named name behavior => react bus name behavior event

def giveAll (index : Nat) (event : Event) : List Subscriber → Work Unit
  | [] => modifyBus index Bus.complete
  | subscriber :: rest => do
      let succeeded ← give index event subscriber
      modifyBus index fun bus => bus.settle succeeded
      giveAll index event rest

def hasWork (index : Nat) (installation : Installation) : Bool :=
  installation.buses[index]?.any fun bus => bus.hasWork || !installation.busHeld index

def work (index : Nat) : Work Bool := do
  Activity.await (hasWork index)
  modifyBus index Bus.begin
  let installation ← Activity.get
  match installation.buses[index]? with
  | none => return false
  | some bus =>
      match bus.delivery with
      | none => return !bus.finished
      | some delivery =>
          giveAll index delivery.event delivery.pending
          return true

/-- Waits until the worker of a bus is gone, unless somebody has waited for that before. -/
def awaitBus (index : Nat) : Work Unit := do
  let installation ← Activity.get
  if installation.buses[index]?.any fun bus => !bus.awaited then
    modifyBus index fun bus => { bus with awaited := true }
    Activity.await fun installation => installation.buses[index]?.all Bus.finished

def shutDownBus (index : Nat) : Work Unit := do
  modifyBus index Bus.stop
  awaitBus index

end Installation

end Alerting
