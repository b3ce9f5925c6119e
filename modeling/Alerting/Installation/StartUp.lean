import Alerting.Installation.Polling
import Alerting.Schedule

/-!
# Starting up and shutting down

Start-up checks the settings, fills the store, loads the rules, and only then connects the engine
to the bus and the handle, so that a failed start leaves nothing half connected. The tasks of an
installation are the workers of its buses, the removal of old history, and the pollers.
-/

namespace Alerting

namespace Installation

def addEngine (station : Station) : Work Nat :=
  .step fun installation =>
    let index := installation.stations.length
    (index,
     { installation with
       stations := installation.stations ++ [station]
       engineInUse := some index })

/-- Puts up a bus. Whoever asks for more room than a bus can have never gets it. -/
def addBus (capacity : Nat) : Work Nat := do
  if Bus.largestCapacity < capacity then Activity.waitForever
  .step fun installation =>
    (installation.buses.length,
     { installation with buses := installation.buses ++ [Bus.start capacity] })

def addHandle : Work Unit :=
  .modify fun installation =>
    { installation with
      handles := installation.handles ++ [none]
      handleInUse := installation.handles.length }

def bindHandle (handle bus : Nat) : Work Unit :=
  .modify fun installation =>
    { installation with handles := installation.handles.set handle (some bus) }

def unbindHandle (handle : Nat) : Work Bool :=
  .step fun installation =>
    (installation.handles[handle]?.join.isSome,
     { installation with handles := installation.handles.set handle none })

def startUp (settings : Settings) (notifier : Option Notifier) (bus handle : Nat) :
    Attempt Nat := do
  (settings.validate : Except Fault Unit)
  if settings.seedBuiltins then
    let _ ← seedBuiltins
  let rules ← listEnabledRules
  (connect rules : Work Nat)
where
  connect (rules : List Rule) : Work Nat := do
    let index ← addEngine
      { engine := (Engine.start settings).refresh rules
        sink := some (.dispatcher notifier settings.notifyTimeoutMillis.toNat)
        recorded := false }
    modifyBus bus fun bus => bus.subscribe (.engine index)
    bindHandle handle bus
    modifyEngine index fun engine => engine.startCleanup settings.historyRetentionDays
    return index

/-- Puts up a bus of its own for an engine and connects the two. If that fails, the bus is shut
down. -/
def startAssembly (settings : Settings) (notifier : Option Notifier) (handle : Nat) :
    Attempt Assembly := ExceptT.mk do
  let bus ← addBus settings.busCapacity.toNat
  .modify fun installation => { installation with busInPreparation := some bus }
  match ← (startUp settings notifier bus handle).run with
  | .ok engine =>
      let assembly : Assembly := { bus, engine, handle }
      .modify fun installation =>
        { installation with
          busInUse := some bus
          busInPreparation := none
          assembly := some assembly }
      return .ok assembly
  | .error fault =>
      shutDownBus bus
      .modify fun installation => { installation with busInPreparation := none }
      return .error fault

def shutDownAssembly (assembly : Assembly) : Work Unit := do
  let _ ← unbindHandle assembly.handle
  shutDownBus assembly.bus
  shutDownEngine assembly.engine

namespace CleanupTask

def cancelled (index : Nat) (installation : Installation) : Bool :=
  !installation.engineHeld index ||
    installation.stations[index]?.all fun station => station.engine.stopped

def finish (index : Nat) : Work Bool := do
  modifyEngine index fun engine => { engine with cleanup := .ended }
  return false

def wake (index interval due : Nat) : Work Bool := do
  let installation ← Activity.get
  if cancelled index installation then finish index
  else
    let next := Activity.nextTick interval due installation.time
    withStation index () fun station => ((), { station with cleanupDue := some next })
    let _ ← (purgeOld index).run
    return true

def sleep (index interval due : Nat) : Work Bool :=
  .wait (fun installation => if cancelled index installation then some 0 else some due)
    (wake index interval due)

def round (index : Nat) : Work Bool := do
  let installation ← Activity.get
  match installation.stations[index]? with
  | none => return false
  | some station =>
      let seconds := station.engine.settings.cleanupIntervalSeconds.toNat
      if seconds = 0 ∨ Activity.longestInterval < seconds then finish index
      else
        let interval := seconds * 1000
        let due := station.cleanupDue.getD (installation.time + interval)
        withStation index () fun station => ((), { station with cleanupDue := some due })
        sleep index interval due

end CleanupTask

inductive Task where
  | worker (bus : Nat)
  | cleanup (engine : Nat)
  | poller (index : Nat)
deriving DecidableEq, Repr

def tasks (installation : Installation) : List Task :=
  (List.range installation.buses.length).map .worker ++
    ((List.range installation.stations.length).filter fun index =>
      installation.stations[index]?.any fun station =>
        station.engine.cleanup != .unstarted).map .cleanup ++
    (List.range installation.pollers.length).map .poller

def round : Task → Work Bool
  | .worker bus => work bus
  | .cleanup engine => CleanupTask.round engine
  | .poller index => PollerTask.round index

abbrev Site := World Installation Task

def Site.start (origin : Instant) : Site :=
  { roster := ⟨tasks, round⟩, state := Installation.start origin }

end Installation

end Alerting
