import Mathlib.Data.List.Basic
import Alerting.Installation.StartUp
import Alerting.Proofs.Poller.Polls

/-!
# Rounds of a poller

A round waits until the next poll is due or there is word from outside. Without word it makes the
poll, and the next one is due an interval later, but never later than after the longest pause. After
a word it makes no poll, and goes on only if the word is not the last.
-/

namespace Alerting

/-! ## Times of polls -/

namespace PollTimes

def period (interval : Nat) : Nat := min interval Activity.longestPause

def time (start interval count : Nat) : Nat := start + interval + count * period interval

def within (interval elapsed : Nat) : Nat :=
  if elapsed < interval then 0 else (elapsed - interval) / period interval + 1

/-- Whether there is a first poll: the clock has to be able to count up to it. -/
def Reachable (start interval : Nat) : Prop :=
  0 < interval ∧ start + interval ≤ Activity.longestInterval * 1000

instance (start interval : Nat) : Decidable (Reachable start interval) :=
  inferInstanceAs (Decidable (_ ∧ _))

variable {start interval count elapsed : Nat}

theorem Reachable.firstTick?_eq (reachable : Reachable start interval) :
    Activity.firstTick? interval start = some (start + interval) := by
  obtain ⟨positive, bound⟩ := reachable
  exact if_neg (by omega)

theorem firstTick?_eq_none (unreachable : ¬Reachable start interval) :
    Activity.firstTick? interval start = none := by
  unfold Reachable at unreachable
  exact if_pos (by omega)

theorem period_pos (positive : 0 < interval) : 0 < period interval := by
  unfold period Activity.longestPause
  omega

theorem time_succ (start interval count : Nat) :
    time start interval (count + 1) = time start interval count + period interval := by
  rw [time, time, Nat.succ_mul, Nat.add_assoc _ (count * _)]

theorem start_lt_time (positive : 0 < interval) (start count : Nat) :
    start < time start interval count := by
  unfold time
  omega

theorem lt_within_iff (positive : 0 < interval) :
    count < within interval elapsed ↔ time start interval count ≤ start + elapsed := by
  unfold within time
  split
  · omega
  · rw [Nat.lt_succ_iff, Nat.le_div_iff_mul_le (period_pos positive)]
    omega

theorem eq_within (positive : 0 < interval)
    (past : ∀ other < count, time start interval other ≤ start + elapsed)
    (early : start + elapsed < time start interval count) : count = within interval elapsed := by
  apply Nat.le_antisymm
  · refine Nat.le_of_not_lt fun more => ?_
    exact Nat.lt_irrefl _ ((lt_within_iff positive).mpr (past _ more))
  · refine Nat.le_of_not_lt fun more => ?_
    have last : time start interval count ≤ start + elapsed := (lt_within_iff positive).mp more
    omega

theorem time_eq_mul (bound : interval ≤ Activity.longestPause) (start count : Nat) :
    time start interval count = start + (count + 1) * interval := by
  rw [time, period, Nat.min_eq_left bound, Nat.succ_mul, Nat.add_assoc, Nat.add_comm interval]

theorem within_eq_div (positive : 0 < interval) (bound : interval ≤ Activity.longestPause)
    (elapsed : Nat) : within interval elapsed = elapsed / interval := by
  rw [within, period, Nat.min_eq_left bound]
  split
  · rename_i early
    rw [Nat.div_eq_of_lt early]
  · rename_i late
    rw [Nat.div_eq_sub_div positive (Nat.le_of_not_lt late)]

end PollTimes

def Poller.isUrged (poller : Poller) : Bool := poller.signal == some false

def Poller.hasWord (poller : Poller) : Bool := poller.signal.isSome || poller.abandoned

def Poller.isDismissed (poller : Poller) : Bool := poller.signal == some true || poller.abandoned

namespace Installation

open Activity

variable {installation : Installation} {index : Nat} {poller : Poller}

def placePoller (installation : Installation) (index : Nat) (poller : Poller) : Installation :=
  { installation with pollers := installation.pollers.set index poller }

theorem getElem?_placePoller (present : installation.pollers[index]? = some poller)
    (changed : Poller) :
    (installation.placePoller index changed).pollers[index]? = some changed := by
  obtain ⟨bound, _⟩ := List.getElem?_eq_some_iff.mp present
  simp [placePoller, bound]

theorem burst_modifyPoller (present : installation.pollers[index]? = some poller)
    (change : Poller → Poller) :
    (modifyPoller index change).burst installation =
      (.done (), installation.placePoller index (change poller)) := by
  have same : installation.pollers.modify index change =
      installation.pollers.set index (change poller) := by
    rw [List.modify_eq_set_getElem?, present]
    rfl
  rw [placePoller, ← same]
  rfl

theorem poller_mem_tasks (present : installation.pollers[index]? = some poller) :
    Task.poller index ∈ tasks installation := by
  obtain ⟨bound, _⟩ := List.getElem?_eq_some_iff.mp present
  simp [tasks, bound]

/-! ## The parts of a round -/

namespace PollerTask

theorem readyAt_sleep (present : installation.pollers[index]? = some poller) (due : Nat) :
    (sleep index due).readyAt installation = some (if poller.hasWord then 0 else due) := by
  rw [sleep, Activity.readyAt, readyAt, present]
  exact (apply_ite some ..).symm

theorem past_round (index : Nat) : (round index).past = round index := rfl

theorem burst_finish (present : installation.pollers[index]? = some poller) :
    (finish index).burst installation =
      (.done false, installation.placePoller index { poller with finished := true }) := by
  rw [finish, burst_bind_of_done (burst_modifyPoller present _)]
  rfl

theorem burst_round {due : Nat} (present : installation.pollers[index]? = some poller)
    (tick : (poller.due <|> firstTick? poller.interval installation.time) = some due) :
    (round index).burst installation =
      (sleep index due, installation.placePoller index { poller with due := some due }) := by
  rw [round, burst_bind_of_done (burst_get _), present]
  dsimp only
  rw [tick]
  dsimp only
  rw [burst_bind_of_done (burst_modifyPoller present _)]
  rfl

theorem burst_round_of_none (present : installation.pollers[index]? = some poller)
    (never : (poller.due <|> firstTick? poller.interval installation.time) = none) :
    (round index).burst installation =
      (.done false, installation.placePoller index { poller with finished := true }) := by
  rw [round, burst_bind_of_done (burst_get _), present]
  dsimp only
  rw [never]
  exact burst_finish present

theorem burst_wake_of_urged (present : installation.pollers[index]? = some poller)
    (urged : poller.isUrged) (due : Nat) :
    (wake index due).burst installation =
      (.done true, installation.placePoller index { poller with signal := none }) := by
  rw [wake, burst_bind_of_done (burst_get _), present]
  simp only [beq_iff_eq.mp urged]
  rw [burst_bind_of_done (burst_modifyPoller present _)]
  rfl

theorem burst_wake_of_dismissed (present : installation.pollers[index]? = some poller)
    (dismissed : poller.isDismissed) (unurged : ¬poller.isUrged) (due : Nat) :
    (wake index due).burst installation =
      (.done false, installation.placePoller index { poller with finished := true }) := by
  rw [wake, burst_bind_of_done (burst_get _), present]
  dsimp only
  split
  · rename_i urged
    exact absurd (by rw [Poller.isUrged, urged]; rfl) unurged
  · exact burst_finish present
  · rename_i none
    have abandoned : poller.abandoned := by simpa [Poller.isDismissed, none] using dismissed
    rw [if_pos abandoned]
    exact burst_finish present

theorem nextPoll?_of_eq {interval due now : Nat} (prompt : now = due) :
    nextPoll? interval due now = some (due + PollTimes.period interval) := by
  have soon : ¬due + tickTolerance < now := by omega
  rw [nextPoll?, if_neg soon, nextTick, PollTimes.period]
  congr 1
  split <;> omega

theorem burst_wake {next : Nat} (present : installation.pollers[index]? = some poller)
    (silent : ¬poller.hasWord) {due : Nat}
    (tick : nextPoll? poller.interval due installation.time = some next) :
    (wake index due).burst installation =
      (.done true,
        (installation.placePoller index { poller with due := some next }).reported
          poller.handle poller.readings) := by
  obtain ⟨none, there⟩ : poller.signal = none ∧ poller.abandoned = false := by
    simpa [Poller.hasWord] using silent
  rw [wake, burst_bind_of_done (burst_get _), present]
  dsimp only
  split
  · rename_i urged
    exact nomatch none.symm.trans urged
  · rename_i last
    exact nomatch none.symm.trans last
  · rw [if_neg (by simp [there]), tick]
    dsimp only
    rw [burst_bind_of_done (burst_modifyPoller present _), burst_bind_of_done (burst_poll ..)]
    rfl

end PollerTask

end Installation

end Alerting
