import Alerting.Installation.Dispatch

/-!
# Handling events

An engine at work decides on the rules one after another. When a rule fires, its record is saved
within a deadline and it is handed to the sink before the next rule is decided on; neither a failed
save nor a failed notification changes what happens to other rules. Old history is removed now and
then by a task of its own.
-/

namespace Alerting

namespace Installation

def askEngine {A : Type} (index : Nat) (absent : A) (change : Engine → A × Engine) : Work A :=
  withStation index absent fun station =>
    let (result, engine) := change station.engine
    (result, { station with engine })

def saveFire (record : Record) (limit : Nat) : Work Unit := do
  let installation ← Activity.get
  match ← installation.conduct.saving.answerWithin limit with
  | .granted =>
      .modify fun installation =>
        { installation with store := (installation.store.save record).2 }
  | _ => pure ()

def fire (index : Nat) (rule : Rule) (event : Event) (now : Instant) : Work Unit := do
  let installation ← Activity.get
  match installation.stations[index]? with
  | none => pure ()
  | some station =>
      saveFire (Engine.recordOf rule event now)
        station.engine.settings.saveHistoryTimeoutMillis.toNat
      match station.sink with
      | none => pure ()
      | some sink =>
          let report ← handOver sink rule event
          if station.recorded then
            modifyJournal fun journal =>
              { journal with dispatches := ⟨rule.id, event, report⟩ :: journal.dispatches }

def decide (index : Nat) (event : Event) (now : Instant) (handling : Handling) :
    List Rule → Work Handling
  | [] => pure handling
  | rule :: rest => do
      let verdict ← askEngine index .unmatched fun engine => engine.consider rule event now
      if verdict = .fires then fire index rule event now
      decide index event now (handling.add rule verdict) rest

/-- Handles an event. Its time is the time of everything that follows from it. -/
def handle (index : Nat) (event : Event) : Work Handling := do
  let now ← match event.timestamp with
    | some timestamp => pure timestamp
    | none => now
  let (recorded, rules) ← askEngine index (false, []) fun engine =>
    let (recorded, engine) := engine.observe event now
    ((recorded, engine.rules), engine)
  decide index event now { recorded } rules

def testFire (index : Nat) (rule : Rule) : Work Unit := do
  let now ← now
  modifyEngine index fun engine => engine.noteFire rule.id now
  fire index rule (Engine.testEvent rule now) now

def refresh (index : Nat) : Attempt Nat := do
  let rules ← listEnabledRules
  (modifyEngine index fun engine => engine.refresh rules : Work Unit)
  return rules.length

def purge (days : Int64) (limit : Nat) : Attempt Nat := do
  if days ≤ 0 then return 0
  let now ← (now : Work Instant)
  match Engine.cutoff? days now with
  | none =>
      throw (.invalidSettings ("retention of " ++ toString days.toInt ++ " days is out of range"))
  | some cutoff =>
      let installation ← (Activity.get : Work Installation)
      match ← (installation.conduct.deletion.answerWithin limit : Work Answer) with
      | .granted => changeStore fun store => .ok (store.deleteHistoryBefore cutoff)
      | .refused reason => throw (.store reason)
      | .late => throw (.timeout "delete alert history")

def purgeOld (index : Nat) : Attempt Nat := do
  let installation ← (Activity.get : Work Installation)
  match installation.stations[index]? with
  | none => return 0
  | some station =>
      purge station.engine.retentionDays station.engine.settings.cleanupTimeoutMillis.toNat

def cleanupRunning (index : Nat) : Work Bool := do
  let installation ← Activity.get
  return installation.stations[index]?.any fun station => station.engine.cleanup == .running

def shutDownEngine (index : Nat) : Work Unit := do
  let tended ← askEngine index false fun engine => (engine.hasTask, engine.stop)
  if tended then
    Activity.await fun installation =>
      installation.stations[index]?.all fun station => station.engine.cleanup == .ended
    modifyEngine index Engine.dismissTask

end Installation

end Alerting
