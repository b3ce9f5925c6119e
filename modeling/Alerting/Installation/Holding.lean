import Alerting.Installation.Basic

/-!
# What is still in use

A bus is held by those who can publish on it, and an engine by those who can give it events. The
worker of a bus leaves when nobody holds the bus any more, and an engine that nobody holds stops.
-/

namespace Alerting

namespace Behavior

/-- Whether a subscriber that behaves so needs its bus, and therefore holds it for good. -/
def holdsBus : Behavior → Bool
  | echo _ | recruit _ | stopBus _ => true
  | record | fail _ | linger _ => false

end Behavior

namespace Subscriber

def holdsBus : Subscriber → Bool
  | engine _ => false
  | named _ behavior => behavior.holdsBus

end Subscriber

namespace Installation

def isBoundTo (installation : Installation) (handle bus : Nat) : Bool :=
  installation.handles[handle]?.join == some bus

def busHeld (installation : Installation) (index : Nat) : Bool :=
  installation.busInUse == some index || installation.busInPreparation == some index ||
    installation.isBoundTo installation.handleInUse index ||
    installation.assembly.any (fun assembly =>
      assembly.bus == index || installation.isBoundTo assembly.handle index) ||
    installation.pollers.any (fun poller =>
      !poller.finished && installation.isBoundTo poller.handle index) ||
    installation.buses[index]?.any fun bus => bus.handlers.any Subscriber.holdsBus

/-- Whether events may still reach an engine, or it is still in use. Other engines are given up. -/
def engineHeld (installation : Installation) (index : Nat) : Bool :=
  installation.engineInUse == some index ||
    installation.assembly.any (fun assembly => assembly.engine == index) ||
    (List.range installation.buses.length).any fun bus =>
      installation.buses[bus]?.any fun subscribed =>
        subscribed.handlers.contains (.engine index) &&
          (!subscribed.finished || installation.busHeld bus)

end Installation

end Alerting
