import Alerting.Bus
import Alerting.Collaborator
import Alerting.Engine
import Alerting.Store

/-!
# Installations

An installation is everything that takes part in alerting: the rule store, engines and where their
notifications go, buses and their subscribers, handles through which events reach a bus, pollers,
and the clocks. Its collaborators reply as they are told to, and a journal tells what reached them.
-/

namespace Alerting

/-- The clock that events and records are stamped with. It shows a later instant at every look. -/
structure Clock where
  origin : Instant
  looks : Nat := 0

namespace Clock

def stride : Int := 1000

def look (clock : Clock) : Instant × Clock :=
  let clock := { clock with looks := clock.looks + 1 }
  (.clamp (clock.origin.nanos + stride * clock.looks), clock)

end Clock

structure StoreConduct where
  listing : Reply := .prompt
  creation : Reply := .prompt
  saving : Reply := .prompt
  deletion : Reply := .prompt

structure Notifier where
  name : String
  enabled : Bool := true
  recorded : Bool := true
  reply : List (String × String) → Reply := fun _ => .prompt

/-- Writes notifications to the log. It grants all of them, also those that it leaves out because it
is not enabled. -/
def Notifier.log (name : String) (enabled : Bool) : Notifier :=
  { name, enabled, recorded := false }

structure DispatchReport where
  delivered : Nat := 0
  skipped : Nat := 0
  failed : Nat := 0
deriving DecidableEq, Repr

inductive Sink where
  | observer
  | dispatcher (notifier : Option Notifier) (limit : Nat)

/-- What a subscriber does when it is given an event. With a property name, it does so only for
events that have the property. Unless it fails, it enters the event in the journal. -/
inductive Behavior where
  | record
  | fail (property : Option String)
  | linger (millis : Nat)
  | echo (property : String)
  | recruit (property : String)
  | stopBus (property : Option String)
deriving DecidableEq, Repr

inductive Subscriber where
  | engine (index : Nat)
  | named (name : String) (behavior : Behavior)
deriving DecidableEq, Repr

namespace Subscriber

def name : Subscriber → String
  | engine _ => "alert-engine"
  | named name _ => name

end Subscriber

structure Station where
  engine : Engine
  sink : Option Sink
  recorded : Bool
  cleanupDue : Option Nat := none

structure DispatchEntry where
  ruleId : UInt64
  event : Event
  report : DispatchReport

inductive SubscriberEntry where
  | event (name : String) (event : Event)
  | publication (name : String) (publication : Publication)

structure Journal where
  notices : List (String × String) := []
  dispatches : List DispatchEntry := []
  entries : List SubscriberEntry := []

structure Poller where
  readings : List (String × Number)
  handle : Nat
  interval : Nat
  /-- The latest word from outside that has not been taken notice of. -/
  signal : Option Bool := none
  abandoned : Bool := false
  due : Option Nat := none
  finished : Bool := false

structure Assembly where
  bus : Nat
  engine : Nat
  handle : Nat

structure Installation where
  time : Nat := 0
  clock : Clock
  store : Store := {}
  conduct : StoreConduct := {}
  stations : List Station := []
  buses : List (Bus Subscriber) := []
  handles : List (Option Nat) := [none]
  pollers : List Poller := []
  engineInUse : Option Nat := none
  busInUse : Option Nat := none
  handleInUse : Nat := 0
  pollerInUse : Option Nat := none
  busInPreparation : Option Nat := none
  assembly : Option Assembly := none
  journal : Journal := {}

instance : Timed Installation where
  time := Installation.time
  setTime time installation := { installation with time }

namespace Installation

def start (origin : Instant) : Installation := { clock := { origin } }

abbrev Work (A : Type) := Activity Installation A

abbrev Attempt (A : Type) := ExceptT Fault (Activity Installation) A

def now : Work Instant :=
  .step fun installation =>
    let (instant, clock) := installation.clock.look
    (instant, { installation with clock })

def withStation {A : Type} (index : Nat) (absent : A) (change : Station → A × Station) : Work A :=
  .step fun installation =>
    match installation.stations[index]? with
    | some station =>
        let (result, station) := change station
        (result, { installation with stations := installation.stations.set index station })
    | none => (absent, installation)

def modifyEngine (index : Nat) (change : Engine → Engine) : Work Unit :=
  withStation index () fun station => ((), { station with engine := change station.engine })

def modifyBus (index : Nat) (change : Bus Subscriber → Bus Subscriber) : Work Unit :=
  .modify fun installation => { installation with buses := installation.buses.modify index change }

def modifyPoller (index : Nat) (change : Poller → Poller) : Work Unit :=
  .modify fun installation =>
    { installation with pollers := installation.pollers.modify index change }

def modifyJournal (change : Journal → Journal) : Work Unit :=
  .modify fun installation => { installation with journal := change installation.journal }

end Installation

end Alerting
