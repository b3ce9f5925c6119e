import Alerting.Installation.StartUp
import Alerting.Proofs.Burst
import Alerting.Proofs.Entries

/-!
# A task among others

A task of an installation is at work on a round, between two rounds, or has come to its end. It
takes its turns among the steps of others, and time passes only while it has to wait. What happens
is kept in a log, step by step.
-/

namespace Alerting

open Installation

/-! ## Logs -/

structure Incident (Deed : Type) where
  deed : Deed
  before : Installation
  after : Installation

/-- Steps one after another, with a log of what has happened in them. -/
inductive Logged {State Entry : Type} (Step : State → Entry → State → Prop) (first : State) :
    List Entry → State → Prop where
  | start : Logged Step first [] first
  | step {log : List Entry} {state next : State} {entry : Entry}
      (run : Logged Step first log state) (step : Step state entry next) :
      Logged Step first (log ++ [entry]) next

namespace Logged

variable {State Entry : Type} {Step : State → Entry → State → Prop} {first state last : State}
  {log more : List Entry}

theorem append (run : Logged Step first log state) (rest : Logged Step state more last) :
    Logged Step first (log ++ more) last := by
  induction rest with
  | start => rwa [List.append_nil]
  | step _ step ih =>
      rw [← List.append_assoc]
      exact .step ih step

theorem head {entry : Entry} (step : Step first entry state) (run : Logged Step state log last) :
    Logged Step first (entry :: log) last :=
  (start.step step).append run

theorem invariant (Holds : List Entry → State → Prop) (initial : Holds [] first)
    (preserved : ∀ {log state entry next}, Holds log state → Step state entry next →
      Holds (log ++ [entry]) next)
    (run : Logged Step first log state) : Holds log state := by
  induction run with
  | start => exact initial
  | step _ step ih => exact preserved ih step

/-- Each entry of a log stands for a step that was taken after those before it. -/
theorem exists_of_split (run : Logged Step first log last) {earlier later : List Entry}
    {entry : Entry} (split : log = earlier ++ entry :: later) :
    ∃ state next, Logged Step first earlier state ∧ Step state entry next := by
  induction run generalizing later with
  | start => simp at split
  | step run step ih =>
      rcases concat_eq_append_cons_iff.mp split with ⟨rfl, rfl, -⟩ | ⟨between, -, before⟩
      · exact ⟨_, _, run, step⟩
      · exact ih before

end Logged

/-! ## Turns -/

structure Workplace where
  installation : Installation
  rest : Option (Work Bool) := none
  gone : Bool := false

namespace Workplace

def HasTask (place : Workplace) (task : Task) : Prop :=
  task ∈ tasks place.installation ∧ place.gone = false

def current (place : Workplace) (task : Task) : Work Bool := place.rest.getD (round task)

def conclude (place : Workplace) (after : Installation) : Work Bool → Workplace
  | .done again => { installation := after, rest := none, gone := !again }
  | rest => { place with installation := after, rest := some rest }

structure Turn (place : Workplace) (task : Task) (rest : Work Bool) (after : Installation) :
    Prop where
  present : place.HasTask task
  due : World.isDue (place.current task).readyAt place.installation
  turned : (place.current task).past.burst place.installation = (rest, after)

/-- Whether time may pass until then: the task waits, and no longer than it has to. -/
structure MaySleep (place : Workplace) (task : Task) (time : Nat) : Prop where
  later : place.installation.time ≤ time
  waits : place.HasTask task → ∃ rest, place.rest = some rest ∧
    ∀ due, rest.readyAt place.installation = some due → time ≤ due

variable {place : Workplace} {task : Task} {time due : Nat} {rest : Work Bool}

theorem current_of_some (begun : place.rest = some rest) : place.current task = rest := by
  rw [current, begun, Option.getD_some]

theorem current_of_none (unbegun : place.rest = none) : place.current task = round task := by
  rw [current, unbegun, Option.getD_none]

theorem MaySleep.rest_ne_none (allowed : place.MaySleep task time) (there : place.HasTask task) :
    place.rest ≠ none := by
  obtain ⟨rest, begun, -⟩ := allowed.waits there
  rw [begun]
  nofun

theorem MaySleep.le_due (allowed : place.MaySleep task time) (there : place.HasTask task)
    (begun : place.rest = some rest) (ready : rest.readyAt place.installation = some due) :
    time ≤ due := by
  obtain ⟨other, same, bound⟩ := allowed.waits there
  obtain rfl := Option.some.inj (begun.symm.trans same)
  exact bound due ready

end Workplace

end Alerting
