import Alerting.Builtin
import Alerting.Installation.Basic

/-!
# Calls to the store

The calls to the store that wait for its reply, and filling it with rules: the built-in ones that
are missing, or those of a list whose names are new.
-/

namespace Alerting

namespace Installation

def awaitStore (kind : StoreConduct → Reply) : Attempt Unit := do
  let installation ← (Activity.get : Work Installation)
  match ← ((kind installation.conduct).answer : Work Answer) with
  | .granted => pure ()
  | .refused reason => throw (.store reason)
  | .late => throw (.store "")

def listRules : Attempt (List Rule) := do
  awaitStore StoreConduct.listing
  return (← (Activity.get : Work Installation)).store.rules

def listEnabledRules : Attempt (List Rule) := do
  awaitStore StoreConduct.listing
  return (← (Activity.get : Work Installation)).store.enabledRules

def changeStore {A : Type} (change : Store → Except Fault (A × Store)) : Attempt A :=
  ExceptT.mk <| Activity.step fun installation =>
    match change installation.store with
    | .ok (result, store) => (.ok result, { installation with store })
    | .error fault => (.error fault, installation)

def createRule (rule : Rule) : Attempt Rule := do
  awaitStore StoreConduct.creation
  changeStore fun store => store.create rule

def saveRecord (record : Record) : Attempt UInt64 := do
  awaitStore StoreConduct.saving
  changeStore fun store => .ok (store.save record)

def deleteHistoryBefore (cutoff : Instant) : Attempt Nat := do
  awaitStore StoreConduct.deletion
  changeStore fun store => .ok (store.deleteHistoryBefore cutoff)

def createNew (known : List String) : List Rule → Attempt Nat
  | [] => pure 0
  | rule :: rest =>
      if known.contains rule.name then createNew known rest
      else do
        let _ ← createRule rule
        return (← createNew (rule.name :: known) rest) + 1

def importRules (rules : List Rule) : Attempt Nat := do
  let stored ← listRules
  createNew (stored.map Rule.name) rules

/-- Creates the rules whose names are not known, and counts them. Names that are created are not
known afterwards. -/
def createMissing (known : List String) : List Rule → Attempt Nat
  | [] => pure 0
  | rule :: rest =>
      if known.contains rule.name then createMissing known rest
      else do
        let _ ← createRule rule
        return (← createMissing known rest) + 1

def seedBuiltins : Attempt Nat := do
  let stored ← listRules
  createMissing (stored.map Rule.name) Builtin.rules

end Installation

end Alerting
