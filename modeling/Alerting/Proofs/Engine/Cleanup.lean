import Alerting.Installation.StartUp
import Alerting.Proofs.Burst
import Alerting.Proofs.Time

/-!
# Removing old history

A purge removes the records that are older than a number of days and nothing else. The task that
does so from time to time sleeps until its next removal is due or the engine is stopped, and in the
latter case ends without another removal.
-/

namespace Alerting

def Settings.cleanupMillis (settings : Settings) : Nat :=
  settings.cleanupIntervalSeconds.toNat * 1000

/-! ## Old records -/

/-- The instant a number of days earlier, if it exists. Nothing is older than zero days or less. -/
def expiry? (days : Int64) (now : Instant) : Option Instant :=
  if 0 < days then Instant.ofNanos? (now.nanos - days.toInt * nanosPerDay) else none

def Record.isExpired (days : Int64) (now : Instant) (record : Record) : Bool :=
  (expiry? days now).any fun cutoff => record.firedAt < cutoff

def Store.sweep (store : Store) (days : Int64) (now : Instant) : Store :=
  { store with history := store.history.filter fun record => !record.isExpired days now }

/-- What a purge tells: how many records it has removed, unless the days reach too far back. -/
def purgeAnswer (days : Int64) (now : Instant) (before after : Store) : Except Fault Nat :=
  if 0 < days ∧ expiry? days now = none then
    .error (.invalidSettings ("retention of " ++ toString days.toInt ++ " days is out of range"))
  else .ok (before.history.length - after.history.length)

section

variable {days : Int64} {now cutoff : Instant}

theorem Engine.cutoff?_eq_expiry? (positive : 0 < days) :
    Engine.cutoff? days now = expiry? days now := by
  have count : 0 < days.toInt := Int64.lt_iff_toInt_lt.mp positive
  have far : ¬-nanosPerSecond < -days.toInt * nanosPerDay := by
    unfold nanosPerSecond nanosPerDay
    omega
  rw [Engine.cutoff?, Instant.move?, if_neg fun leap => far leap.2, expiry?, if_pos positive,
    Int.neg_mul, Int.sub_eq_add_neg]

theorem Store.sweep_of_expiry?_eq_none (none : expiry? days now = none) (store : Store) :
    store.sweep days now = store := by
  have kept : store.history.filter (fun record => !record.isExpired days now) = store.history := by
    simp [Record.isExpired, none]
  rw [sweep, kept]

theorem Store.deleteHistoryBefore_eq_sweep (found : expiry? days now = some cutoff)
    (store : Store) :
    store.deleteHistoryBefore cutoff =
      (store.history.length - (store.sweep days now).history.length, store.sweep days now) := by
  have same : store.history.filter (fun record => cutoff ≤ record.firedAt) =
      store.history.filter fun record => !record.isExpired days now := by
    apply List.filter_congr
    intro record _
    rw [Record.isExpired, found, Option.any_some, ← decide_not, decide_eq_decide]
    rw [Instant.le_iff, Instant.lt_iff]
    omega
  rw [deleteHistoryBefore, sweep, same]

end

namespace Installation

open Activity

variable {installation : Installation} {index : Nat} {station : Station} {days : Int64}

/-! ## Purges -/

/-- What a purge leaves. It looks at the clock only if history is kept for a number of days. -/
def swept (installation : Installation) (days : Int64) : Installation :=
  { installation with
    clock := if 0 < days then installation.clock.look.2 else installation.clock
    store := installation.store.sweep days installation.clock.look.1 }

theorem swept_of_not_positive (none : ¬0 < days) : installation.swept days = installation := by
  have kept : expiry? days installation.clock.look.1 = Option.none := if_neg none
  rw [swept, if_neg none, Store.sweep_of_expiry?_eq_none kept]

theorem burst_purge (prompt : installation.conduct = {}) (days : Int64) (limit : Nat) :
    (purge days limit).run.burst installation =
      (.done (purgeAnswer days installation.clock.look.1 installation.store
          (installation.swept days).store),
        installation.swept days) := by
  by_cases positive : 0 < days
  · have looked : (liftM (now : Work Instant) : Attempt Instant).run.burst installation =
        (.done (.ok installation.clock.look.1),
          { installation with clock := installation.clock.look.2 }) := rfl
    rw [purge, if_neg (Int64.not_le.mpr positive), burst_bind_of_ok looked,
      Engine.cutoff?_eq_expiry? positive, swept, if_pos positive, purgeAnswer]
    cases found : expiry? days installation.clock.look.1 with
    | none =>
        rw [Store.sweep_of_expiry?_eq_none found, if_pos ⟨positive, rfl⟩]
        rfl
    | some cutoff =>
        have removes := Store.deleteHistoryBefore_eq_sweep found installation.store
        rw [if_neg fun out => nomatch out.2]
        dsimp only
        rw [burst_bind_of_ok (burst_lift (burst_get _)), prompt]
        change (changeStore fun store => .ok (store.deleteHistoryBefore cutoff)).run.burst _ = _
        rw [burst_changeStore (congrArg Except.ok removes)]
  · rw [purge, if_pos (Int64.not_lt.mp positive), swept_of_not_positive positive, purgeAnswer,
      if_neg fun out => positive out.1, Nat.sub_self]
    rfl

theorem burst_purgeOld (prompt : installation.conduct = {})
    (present : installation.stations[index]? = some station) :
    (purgeOld index).run.burst installation =
      (.done (purgeAnswer station.engine.retentionDays installation.clock.look.1
          installation.store (installation.swept station.engine.retentionDays).store),
        installation.swept station.engine.retentionDays) := by
  rw [purgeOld, burst_bind_of_ok (burst_lift (burst_get _)), present]
  exact burst_purge prompt ..

theorem cancelled_eq_stopped (held : installation.engineInUse = some index)
    (present : installation.stations[index]? = some station) :
    CleanupTask.cancelled index installation = station.engine.stopped := by
  simp [CleanupTask.cancelled, engineHeld, held, present]

/-! ## The task -/

theorem cleanup_mem_tasks (present : installation.stations[index]? = some station) :
    Task.cleanup index ∈ tasks installation ↔ station.engine.cleanup ≠ .unstarted := by
  obtain ⟨bound, found⟩ := List.getElem?_eq_some_iff.mp present
  simp [tasks, bound, found]

namespace CleanupTask

theorem readyAt_sleep (held : installation.engineInUse = some index)
    (present : installation.stations[index]? = some station)
    (running : station.engine.stopped = false) (interval due : Nat) :
    (sleep index interval due).readyAt installation = some due := by
  have awake : ¬cancelled index installation = true := by
    rw [cancelled_eq_stopped held present, running]
    nofun
  exact if_neg awake

def Usable (seconds : Nat) : Prop := 0 < seconds ∧ seconds ≤ longestInterval

theorem burst_round (present : installation.stations[index]? = some station)
    (usable : Usable station.engine.settings.cleanupIntervalSeconds.toNat) :
    let due := station.cleanupDue.getD
      (installation.time + station.engine.settings.cleanupMillis)
    (round index).burst installation =
      (sleep index station.engine.settings.cleanupMillis due,
        installation.place index { station with cleanupDue := some due }) := by
  intro due
  have fits : ¬(station.engine.settings.cleanupIntervalSeconds.toNat = 0 ∨
      longestInterval < station.engine.settings.cleanupIntervalSeconds.toNat) := by
    obtain ⟨positive, bound⟩ := usable
    omega
  rw [round, burst_bind_of_done (burst_get _), present]
  dsimp only
  rw [if_neg fits, burst_bind_of_done (burst_withStation present)]
  rfl

theorem burst_finish (present : installation.stations[index]? = some station) :
    (finish index).burst installation =
      (.done false, installation.place index
        { station with engine := { station.engine with cleanup := .ended } }) := by
  rw [finish, burst_bind_of_done (burst_modifyEngine present)]
  rfl

theorem burst_round_of_not_usable (present : installation.stations[index]? = some station)
    (unusable : ¬Usable station.engine.settings.cleanupIntervalSeconds.toNat) :
    (round index).burst installation =
      (.done false, installation.place index
        { station with engine := { station.engine with cleanup := .ended } }) := by
  have misfit : station.engine.settings.cleanupIntervalSeconds.toNat = 0 ∨
      longestInterval < station.engine.settings.cleanupIntervalSeconds.toNat := by
    unfold Usable at unusable
    omega
  rw [round, burst_bind_of_done (burst_get _), present]
  dsimp only
  rw [if_pos misfit, burst_finish present]

theorem burst_wake_of_stopped (held : installation.engineInUse = some index)
    (present : installation.stations[index]? = some station)
    (stopped : station.engine.stopped = true) (interval due : Nat) :
    (wake index interval due).burst installation =
      (.done false, installation.place index
        { station with engine := { station.engine with cleanup := .ended } }) := by
  rw [wake, burst_bind_of_done (burst_get _), cancelled_eq_stopped held present, if_pos stopped,
    burst_finish present]

theorem burst_wake (held : installation.engineInUse = some index)
    (prompt : installation.conduct = {})
    (present : installation.stations[index]? = some station)
    (running : station.engine.stopped = false) (interval due : Nat) :
    (wake index interval due).burst installation =
      (.done true,
        (installation.place index
          { station with cleanupDue := some (nextTick interval due installation.time) }).swept
            station.engine.retentionDays) := by
  have awake : ¬station.engine.stopped = true := by simp [running]
  rw [wake, burst_bind_of_done (burst_get _), cancelled_eq_stopped held present, if_neg awake]
  dsimp only
  have noted := getElem?_place present
    { station with cleanupDue := some (nextTick interval due installation.time) }
  have promptStill : (installation.place index
      { station with cleanupDue := some (nextTick interval due installation.time) }).conduct =
        {} := prompt
  rw [burst_bind_of_done (burst_withStation present)]
  dsimp only
  rw [burst_bind_of_done (burst_purgeOld promptStill noted)]
  rfl

end CleanupTask

def departure (index : Nat) : Work Unit :=
  .wait (fun installation => if installation.stations[index]?.all
      (fun station => station.engine.cleanup == .ended) then some 0 else none)
    (modifyEngine index Engine.dismissTask)

theorem burst_shutDownEngine (present : installation.stations[index]? = some station) :
    (shutDownEngine index).burst installation =
      (if station.engine.hasTask then departure index else .done (),
        installation.place index { station with engine := station.engine.stop }) := by
  have asked : (askEngine index false fun engine => (engine.hasTask, engine.stop)).burst
      installation = (.done station.engine.hasTask,
        installation.place index { station with engine := station.engine.stop }) :=
    burst_withStation present
  rw [shutDownEngine, burst_bind_of_done asked]
  cases station.engine.hasTask <;> rfl

end Installation

end Alerting
