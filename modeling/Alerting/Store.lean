import Alerting.Record
import Alerting.Rule

/-!
# The rule store

Rules and the history of their fires. Rules and records are numbered in the order in which they are
stored, and a number is never given twice. A rule is kept under its number, which is its identity.
-/

namespace Alerting

/-- Rules under their identities, in the order of those, and records from the newest to the
oldest. -/
structure Store where
  entries : List (UInt64 × Rule) := []
  history : List Record := []
  lastRuleId : UInt64 := 0
  lastRecordId : UInt64 := 0
deriving DecidableEq, Repr

structure HistoryQuery where
  ruleId : Option UInt64 := none
  limit : Option Nat := none
  offset : Nat := 0
deriving DecidableEq, Repr

namespace Store

def rules (store : Store) : List Rule := store.entries.map Prod.snd

def enabledRules (store : Store) : List Rule := store.rules.filter Rule.enabled

def rule? (store : Store) (id : UInt64) : Option Rule := store.entries.lookup id

def getRule (store : Store) (id : UInt64) : Except Fault Rule :=
  match store.rule? id with
  | some rule => .ok rule
  | none => .error (.ruleNotFound id)

def create (store : Store) (rule : Rule) : Except Fault (Rule × Store) := do
  rule.validate
  let id := store.lastRuleId + 1
  let rule := { rule with id }
  .ok (rule, { store with entries := store.entries ++ [(id, rule)], lastRuleId := id })

def amend (store : Store) (id : UInt64) (change : Rule → Rule) : Store :=
  { store with
    entries := store.entries.map fun (key, stored) =>
      (key, if key = id then change stored else stored) }

def update (store : Store) (rule : Rule) : Except Fault Store := do
  rule.validate
  let _ ← store.getRule rule.id
  .ok (store.amend rule.id fun _ => rule)

def delete (store : Store) (id : UInt64) : Except Fault (Rule × Store) := do
  let rule ← store.getRule id
  .ok
    (rule,
     { store with
       entries := store.entries.filter fun entry => entry.1 != id
       history := store.history.filter fun record => record.ruleId != id })

def toggle (store : Store) (id : UInt64) (enabled : Bool) : Except Fault Store := do
  let _ ← store.getRule id
  .ok (store.amend id fun stored => { stored with enabled })

def save (store : Store) (record : Record) : UInt64 × Store :=
  let id := store.lastRecordId + 1
  (id, { store with history := { record with id } :: store.history, lastRecordId := id })

def asks (ruleId : Option UInt64) (record : Record) : Bool :=
  ruleId.all fun id => record.ruleId == id

def listHistory (store : Store) (query : HistoryQuery) : List Record :=
  let rest := (store.history.filter (asks query.ruleId)).drop query.offset
  match query.limit with
  | some limit => rest.take limit
  | none => rest

def countHistory (store : Store) (ruleId : Option UInt64) : Nat :=
  store.history.countP (asks ruleId)

def deleteHistoryBefore (store : Store) (cutoff : Instant) : Nat × Store :=
  let kept := store.history.filter fun record => cutoff ≤ record.firedAt
  (store.history.length - kept.length, { store with history := kept })

def clearHistory (store : Store) : Nat × Store :=
  (store.history.length, { store with history := [] })

end Store

end Alerting
