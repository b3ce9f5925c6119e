import Mathlib.Data.List.TakeWhile
import Alerting.Proofs.Engine.Cleanup
import Alerting.Proofs.Workplace

/-!
# The upkeep of history

Orders to an engine and its store, shutdowns, the turns of the task that removes old history, and
the clocks take their steps in any order, as long as time stands still while the task can go on.
What a step may do is told by the steps before it.
-/

namespace Alerting

open Installation

inductive Order where
  | keep (days : Int64)
  | purge
  | stop
  | save (record : Record)

inductive Deed where
  | kept (days : Int64)
  | purged (answer : Except Fault Nat)
  | stopped
  | saved (record : Record) (answer : Except Fault UInt64)
  | shutDown
  | pass
  | aside

abbrev Happening := Incident Deed

structure Upkeep extends Workplace where
  leaving : Option (Work Unit) := none

namespace Order

def carryOut (index : Nat) : Order → Work Deed
  | .keep days => do
      modifyEngine index fun engine => engine.startCleanup days
      return .kept days
  | .purge => do return .purged (← (purgeOld index).run)
  | .stop => do
      modifyEngine index Engine.stop
      return .stopped
  | .save record => do return .saved record (← (saveRecord record).run)

end Order

namespace Upkeep

/-! ## Steps -/

def deedOf : Work Bool → Deed
  | .done true => .pass
  | _ => .aside

def await (upkeep : Upkeep) (after : Installation) : Work Unit → Upkeep
  | .done () => { upkeep with installation := after, leaving := none }
  | rest => { upkeep with installation := after, leaving := some rest }

/-- Orders are carried out one after another, also during a shutdown, while the task and the clocks
go on as they like. -/
inductive Step (index : Nat) : Upkeep → Happening → Upkeep → Prop where
  | order {upkeep : Upkeep} {order : Order} {deed : Deed} {after : Installation}
      (carried : (order.carryOut index).burst upkeep.installation = (.done deed, after)) :
      Step index upkeep ⟨deed, upkeep.installation, after⟩ { upkeep with installation := after }
  | shutDown {upkeep : Upkeep} {rest : Work Unit} {after : Installation}
      (free : upkeep.leaving = none)
      (begun : (shutDownEngine index).burst upkeep.installation = (rest, after)) :
      Step index upkeep ⟨.shutDown, upkeep.installation, after⟩ (upkeep.await after rest)
  | leave {upkeep : Upkeep} {wait rest : Work Unit} {after : Installation}
      (leaving : upkeep.leaving = some wait)
      (due : World.isDue wait.readyAt upkeep.installation)
      (left : wait.past.burst upkeep.installation = (rest, after)) :
      Step index upkeep ⟨.aside, upkeep.installation, after⟩ (upkeep.await after rest)
  | turn {upkeep : Upkeep} {rest : Work Bool} {after : Installation}
      (turn : upkeep.Turn (.cleanup index) rest after) :
      Step index upkeep ⟨deedOf rest, upkeep.installation, after⟩
        { upkeep with toWorkplace := upkeep.conclude after rest }
  | sleep {upkeep : Upkeep} {time : Nat} (allowed : upkeep.MaySleep (.cleanup index) time) :
      Step index upkeep ⟨.aside, upkeep.installation, { upkeep.installation with time }⟩
        { upkeep with installation := { upkeep.installation with time } }
  | setClock (upkeep : Upkeep) (clock : Clock) :
      Step index upkeep ⟨.aside, upkeep.installation, { upkeep.installation with clock }⟩
        { upkeep with installation := { upkeep.installation with clock } }

abbrev Run (index : Nat) : Upkeep → List Happening → Upkeep → Prop := Logged (Step index)

end Upkeep

/-! ## What the steps so far tell -/

namespace Deed

def stops : Deed → Bool
  | .stopped | .shutDown => true
  | _ => false

def days? : Deed → Option Int64
  | .kept days => some days
  | _ => none

def effect (days : Int64) (now : Instant) (store : Store) : Deed → Store
  | .purged _ | .pass => store.sweep days now
  | .saved record _ => (store.save record).2
  | _ => store

end Deed

def Installation.isTended (installation : Installation) (index : Nat) : Bool :=
  installation.stations[index]?.any fun station => station.engine.cleanup == .running

/-- Whether the task is started. -/
def Happening.Spawns (index : Nat) (happening : Happening) : Prop :=
  happening.before.isTended index = false ∧ happening.after.isTended index = true

def hasStopped (log : List Happening) : Bool := log.any fun happening => happening.deed.stops

/-- The days that count: those of the latest order before the engine was stopped, and without one
those of the settings. -/
def daysKept (settings : Settings) (log : List Happening) : Int64 :=
  ((log.takeWhile fun happening => !happening.deed.stops).filterMap
    fun happening => happening.deed.days?).getLast?.getD settings.historyRetentionDays

def NoPass (log : List Happening) : Prop := ∀ happening ∈ log, happening.deed ≠ .pass

/-- What a step does after those before it. -/
structure Happening.Fits (index : Nat) (settings : Settings) (earlier : List Happening)
    (happening : Happening) : Prop where
  /-- The task is started once, by the first positive number of days unless the engine has been
  stopped before. -/
  spawns : happening.Spawns index ↔
    (∃ days, happening.deed = .kept days ∧ 0 < days) ∧ hasStopped earlier = false ∧
      ∀ other ∈ earlier, ¬other.Spawns index
  /-- Passes begin after the start of the task, the first one an interval later, and none of them
  after a stop. -/
  passes : happening.deed = .pass →
    hasStopped earlier = false ∧ (∃ spawn ∈ earlier, spawn.Spawns index) ∧
      (NoPass earlier → ∀ spawn ∈ earlier, spawn.Spawns index →
        happening.before.time = spawn.before.time + settings.cleanupMillis)
  store : happening.after.store =
    happening.deed.effect (daysKept settings earlier) happening.before.clock.look.1
      happening.before.store
  answers : ∀ answer, happening.deed = .purged answer →
    answer = purgeAnswer (daysKept settings earlier) happening.before.clock.look.1
      happening.before.store happening.after.store
  ignores : ∀ days, happening.deed = .kept days → hasStopped earlier = true →
    happening.after = happening.before

section

variable {index : Nat} {settings : Settings} {log : List Happening} {happening : Happening}
  {station changed : Station}

theorem hasStopped_concat (log : List Happening) (happening : Happening) :
    hasStopped (log ++ [happening]) = (hasStopped log || happening.deed.stops) := by
  simp [hasStopped]

theorem noPass_concat :
    NoPass (log ++ [happening]) ↔ NoPass log ∧ happening.deed ≠ .pass := by
  simp only [NoPass, List.forall_mem_append, List.forall_mem_singleton]

theorem daysKept_concat_of_hasStopped (stopped : hasStopped log = true) :
    daysKept settings (log ++ [happening]) = daysKept settings log := by
  obtain ⟨other, mem, stops⟩ := List.any_eq_true.mp stopped
  have cut : (log.takeWhile fun happening => !happening.deed.stops).length ≠ log.length := by
    intro whole
    have all := List.takeWhile_eq_self_iff.mp
      ((List.takeWhile_prefix fun entry : Happening => !entry.deed.stops).eq_of_length whole)
    simpa [stops] using all other mem
  rw [daysKept, List.takeWhile_append, if_neg cut, daysKept]

theorem daysKept_concat (running : hasStopped log = false) (happening : Happening) :
    daysKept settings (log ++ [happening]) =
      happening.deed.days?.getD (daysKept settings log) := by
  have whole : (log.takeWhile fun happening => !happening.deed.stops) = log := by
    apply List.takeWhile_eq_self_iff.mpr
    simpa [hasStopped] using running
  obtain ⟨deed, before, after⟩ := happening
  rw [daysKept, List.takeWhile_append, whole, if_pos rfl, daysKept, whole]
  cases deed <;> simp [Deed.stops, Deed.days?]

theorem daysKept_concat_of_days?_eq_none (silent : happening.deed.days? = none) :
    daysKept settings (log ++ [happening]) = daysKept settings log := by
  cases running : hasStopped log with
  | true => exact daysKept_concat_of_hasStopped running
  | false => rw [daysKept_concat running, silent, Option.getD_none]

theorem isTended_eq {installation : Installation}
    (present : installation.stations[index]? = some station) :
    installation.isTended index = (station.engine.cleanup == .running) := by
  rw [Installation.isTended, present, Option.any_some]

theorem Happening.not_spawns (present : happening.before.stations[index]? = some station)
    (still : happening.after.stations[index]? = some changed)
    (same : changed.engine.cleanup = .running → station.engine.cleanup = .running) :
    ¬happening.Spawns index := by
  rintro ⟨before, after⟩
  rw [isTended_eq present, beq_eq_false_iff_ne] at before
  rw [isTended_eq still, beq_iff_eq] at after
  exact before (same after)

end

/-! ## What each order does -/

section

variable {index : Nat} {installation : Installation} {station : Station}

theorem Order.burst_keep (present : installation.stations[index]? = some station) (days : Int64) :
    ((Order.keep days).carryOut index).burst installation =
      (.done (.kept days),
        installation.place index { station with engine := station.engine.startCleanup days }) := by
  rw [Order.carryOut, Activity.burst_bind_of_done (burst_modifyEngine present)]
  rfl

theorem Order.burst_stop (present : installation.stations[index]? = some station) :
    (Order.stop.carryOut index).burst installation =
      (.done .stopped,
        installation.place index { station with engine := station.engine.stop }) := by
  rw [Order.carryOut, Activity.burst_bind_of_done (burst_modifyEngine present)]
  rfl

theorem Order.burst_purge (prompt : installation.conduct = {})
    (present : installation.stations[index]? = some station) :
    (Order.purge.carryOut index).burst installation =
      (.done (.purged (purgeAnswer station.engine.retentionDays installation.clock.look.1
          installation.store (installation.swept station.engine.retentionDays).store)),
        installation.swept station.engine.retentionDays) := by
  rw [Order.carryOut, Activity.burst_bind_of_done (burst_purgeOld prompt present)]
  rfl

theorem Order.burst_save (prompt : installation.conduct = {}) (record : Record) :
    ((Order.save record).carryOut index).burst installation =
      (.done (.saved record (.ok (installation.store.save record).1)),
        { installation with store := (installation.store.save record).2 }) := by
  have granted := burst_awaitStore (congrArg StoreConduct.saving prompt)
  have saved : (saveRecord record).run.burst installation =
      (.done (.ok (installation.store.save record).1),
        { installation with store := (installation.store.save record).2 }) := by
    rw [saveRecord, Activity.burst_bind_of_ok granted]
    exact burst_changeStore rfl
  rw [Order.carryOut, Activity.burst_bind_of_done saved]
  rfl

end

end Alerting
