import Alerting.Detection
import Alerting.Installation.Delivery

/-!
# Polling

Readings and detections become events on the bus that a handle is bound to. A poller publishes its
readings at regular intervals until it is told to stop or nobody can tell it any more.
-/

namespace Alerting

namespace Installation

def poll (handle : Nat) : List (String × Number) → Work Nat
  | [] => pure 0
  | (metric, value) :: rest => do
      let published ← tryPublish handle (.reading ObjectType.system metric value)
      return (if published then 1 else 0) + (← poll handle rest)

def publishDetection (handle : Nat) (detection : Detection) : Work Bool :=
  tryPublish handle detection.event

namespace PollerTask

def readyAt (index due : Nat) (installation : Installation) : Option Nat :=
  match installation.pollers[index]? with
  | some poller => if poller.signal.isSome || poller.abandoned then some 0 else some due
  | none => some 0

/-- When the poll after the one that was due at `due` and is made at `now` is due. Missed polls are
left out: after one that comes late, the next is a whole interval off. -/
def nextPoll? (interval due now : Nat) : Option Nat :=
  if due + Activity.tickTolerance < now then Activity.firstTick? interval now
  else some (Activity.nextTick interval due now)

def finish (index : Nat) : Work Bool := do
  modifyPoller index fun poller => { poller with finished := true }
  return false

def wake (index due : Nat) : Work Bool := do
  let installation ← Activity.get
  match installation.pollers[index]? with
  | none => return false
  | some poller =>
      match poller.signal with
      | some false =>
          modifyPoller index fun poller => { poller with signal := none }
          return true
      | some true => finish index
      | none =>
          if poller.abandoned then finish index
          else
            match nextPoll? poller.interval due installation.time with
            | none => finish index
            | some next =>
                modifyPoller index fun poller => { poller with due := some next }
                let _ ← poll poller.handle poller.readings
                return true

def sleep (index due : Nat) : Work Bool := .wait (readyAt index due) (wake index due)

/-- One round of a poller: it waits for the next poll, or for word from outside. A poller whose
first poll is never due ends at once. -/
def round (index : Nat) : Work Bool := do
  let installation ← Activity.get
  match installation.pollers[index]? with
  | none => return false
  | some poller =>
      match poller.due <|> Activity.firstTick? poller.interval installation.time with
      | none => finish index
      | some due =>
          modifyPoller index fun poller => { poller with due := some due }
          sleep index due

end PollerTask

def startPoller (readings : List (String × Number)) (interval : Nat) : Work Unit :=
  .modify fun installation =>
    let pollers := match installation.pollerInUse with
      | some index =>
          installation.pollers.modify index fun poller => { poller with abandoned := true }
      | none => installation.pollers
    { installation with
      pollers := pollers ++ [{ readings, handle := installation.handleInUse, interval }]
      pollerInUse := some pollers.length }

def signalPoller (index : Nat) (stop : Bool) : Work Unit :=
  modifyPoller index fun poller => { poller with signal := some stop }

def abandonPoller (index : Nat) : Work Unit := do
  modifyPoller index fun poller => { poller with abandoned := true }
  Activity.await fun installation => installation.pollers[index]?.all Poller.finished

end Installation

end Alerting
