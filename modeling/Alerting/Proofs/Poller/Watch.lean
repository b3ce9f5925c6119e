import Mathlib.Data.List.Induction
import Alerting.Proofs.Entries
import Alerting.Proofs.Poller.Rounds
import Alerting.Proofs.Workplace

/-!
# A poller among others

Words from outside, the turns of a poller, the passing of time, and whatever others do take their
steps in any order, as long as time stands still while the poller can go on.
-/

namespace Alerting

open Installation

namespace Polling

inductive Deed where
  | polled
  | attended
  | told (stop : Bool)
  | abandoned
  | aside
deriving DecidableEq

abbrev Happening := Incident Deed

/-! ## Steps -/

/-- The poller makes a poll when its wait is over without a word. With all else that it does, it
looks after its rounds. -/
def deedOf (polling : Workplace) (index : Nat) : Deed :=
  if polling.rest.isSome ∧ ¬polling.installation.pollers[index]?.any Poller.hasWord then .polled
  else .attended

/-- Others may do anything at any time, bind the handle or leave it without a bus for instance, but
the poller and the time are not theirs to change. Nobody can tell the poller anything any more when
it is left to itself or another one takes its place. -/
inductive Step (index : Nat) : Workplace → Happening → Workplace → Prop where
  | others {polling : Workplace} {after : Installation}
      (time : after.time = polling.installation.time)
      (poller : after.pollers[index]? = polling.installation.pollers[index]?) :
      Step index polling ⟨.aside, polling.installation, after⟩
        { polling with installation := after }
  | tell {polling : Workplace} {stop : Bool} {after : Installation}
      (told : (signalPoller index stop).burst polling.installation = (.done (), after)) :
      Step index polling ⟨.told stop, polling.installation, after⟩
        { polling with installation := after }
  | abandon {polling : Workplace} {rest : Work Unit} {after : Installation}
      (left : (abandonPoller index).burst polling.installation = (rest, after)) :
      Step index polling ⟨.abandoned, polling.installation, after⟩
        { polling with installation := after }
  | replace {polling : Workplace} {readings : List (String × Number)} {interval : Nat}
      {after : Installation} (used : polling.installation.pollerInUse = some index)
      (replaced : (startPoller readings interval).burst polling.installation = (.done (), after)) :
      Step index polling ⟨.abandoned, polling.installation, after⟩
        { polling with installation := after }
  | turn {polling : Workplace} {rest : Work Bool} {after : Installation}
      (turn : polling.Turn (.poller index) rest after) :
      Step index polling ⟨deedOf polling index, polling.installation, after⟩
        (polling.conclude after rest)
  | sleep {polling : Workplace} {time : Nat} (allowed : polling.MaySleep (.poller index) time) :
      Step index polling ⟨.aside, polling.installation, { polling.installation with time }⟩
        { polling with installation := { polling.installation with time } }

abbrev Run (index : Nat) : Workplace → List Happening → Workplace → Prop := Logged (Step index)

/-! ## What the steps so far tell -/

namespace Deed

def isWord : Deed → Bool
  | .told _ | .abandoned => true
  | _ => false

def isLast : Deed → Bool
  | .told stop => stop
  | .abandoned => true
  | _ => false

def heardBy (poller : Poller) (deed : Deed) : Poller :=
  { poller with
    signal := match deed with
      | .told stop => some stop
      | _ => poller.signal
    abandoned := match deed with
      | .abandoned => true
      | _ => poller.abandoned }

end Deed

structure Overhears (index : Nat) (polling : Workplace) (poller : Poller) (happening : Happening)
    (next : Workplace) : Prop where
  unpolled : happening.deed ≠ .polled
  unattended : happening.deed ≠ .attended
  before : happening.before = polling.installation
  next : next = { polling with installation := happening.after }
  time : happening.after.time = polling.installation.time
  poller : happening.after.pollers[index]? = some (happening.deed.heardBy poller)

/-- The times of the polls so far. -/
def pollTimes (log : List Happening) : List Nat :=
  (log.filter fun happening => happening.deed = .polled).map fun poll => poll.before.time

/-- When the poller was first told to stop or left without anybody to tell it. -/
def endOf (log : List Happening) : Option Nat :=
  (log.find? fun happening => happening.deed.isLast).map fun word => word.before.time

/-- Until the poller is to end, words come between its ticks, and afterwards it is not urged on. -/
structure Happening.Orderly (ticks : Nat → Nat) (earlier : List Happening)
    (happening : Happening) : Prop where
  between : endOf earlier = none → happening.deed.isWord → ∀ count,
    happening.before.time ≠ ticks count
  last : happening.deed = .told false → endOf earlier = none

def Orderly (ticks : Nat → Nat) (log : List Happening) : Prop :=
  ∀ earlier happening later, log = earlier ++ happening :: later →
    happening.Orderly ticks earlier

/-- A poll publishes its readings on the bus that the handle is bound to by then, and changes
nothing else but the poller. Nothing is changed but the poller when it looks after its rounds. -/
def Happening.Reports (handle : Nat) (readings : List (String × Number)) (happening : Happening) :
    Prop :=
  match happening.deed with
  | .polled => happening.after =
      { happening.before.reported handle readings with pollers := happening.after.pollers }
  | .attended => happening.after =
      { happening.before with pollers := happening.after.pollers }
  | _ => True

section

variable {index : Nat} {ticks : Nat → Nat} {log : List Happening} {happening : Happening}
  {polling next : Workplace}

theorem Step.cases {poller : Poller}
    (present : polling.installation.pollers[index]? = some poller)
    (step : Step index polling happening next) :
    Overhears index polling poller happening next ∨
      (∃ rest after, polling.Turn (.poller index) rest after ∧
        happening = ⟨deedOf polling index, polling.installation, after⟩ ∧
        next = polling.conclude after rest) ∨
      ∃ time, polling.MaySleep (.poller index) time ∧
        happening = ⟨.aside, polling.installation, { polling.installation with time }⟩ ∧
        next = { polling with installation := { polling.installation with time } } := by
  cases step with
  | others time same => exact .inl ⟨nofun, nofun, rfl, rfl, time, same.trans present⟩
  | tell told =>
      obtain ⟨-, rfl⟩ := Prod.mk.inj (told.symm.trans (burst_modifyPoller present _))
      exact .inl ⟨nofun, nofun, rfl, rfl, rfl, getElem?_placePoller present _⟩
  | abandon left =>
      rw [abandonPoller, Activity.burst_bind_of_done (burst_modifyPoller present _)] at left
      obtain ⟨-, rfl⟩ := Prod.mk.inj left
      exact .inl ⟨nofun, nofun, rfl, rfl, rfl, getElem?_placePoller present _⟩
  | replace used replaced =>
      obtain ⟨-, rfl⟩ := Prod.mk.inj replaced
      obtain ⟨bound, found⟩ := List.getElem?_eq_some_iff.mp present
      refine .inl ⟨nofun, nofun, rfl, rfl, rfl, ?_⟩
      simp [used, List.getElem?_append_left, bound, found, Deed.heardBy]
  | turn turn => exact .inr (.inl ⟨_, _, turn, rfl, rfl⟩)
  | sleep allowed => exact .inr (.inr ⟨_, allowed, rfl, rfl⟩)

theorem reports_of_ne {handle : Nat} {readings : List (String × Number)}
    (unpolled : happening.deed ≠ .polled) (unattended : happening.deed ≠ .attended) :
    happening.Reports handle readings := by
  unfold Happening.Reports
  split
  · exact absurd ‹_› unpolled
  · exact absurd ‹_› unattended
  · trivial

theorem pollTimes_append (log more : List Happening) :
    pollTimes (log ++ more) = pollTimes log ++ pollTimes more := by
  rw [pollTimes, List.filter_append, List.map_append, pollTimes, pollTimes]

theorem pollTimes_eq_nil (unpolled : ∀ happening ∈ log, happening.deed ≠ .polled) :
    pollTimes log = [] := by
  simpa [pollTimes] using unpolled

theorem pollTimes_concat (polled : happening.deed = .polled) (log : List Happening) :
    pollTimes (log ++ [happening]) = pollTimes log ++ [happening.before.time] := by
  simp [pollTimes, polled]

theorem pollTimes_concat_of_ne (other : happening.deed ≠ .polled) :
    pollTimes (log ++ [happening]) = pollTimes log := by
  simp [pollTimes, other]

theorem Deed.isWord_of_isLast {deed : Deed} (last : deed.isLast) : deed.isWord := by
  cases deed with
  | told | abandoned => rfl
  | polled | attended | aside => exact last

theorem endOf_append (log : List Happening) {more : List Happening}
    (silent : ∀ happening ∈ more, ¬happening.deed.isWord) : endOf (log ++ more) = endOf log := by
  have none : more.find? (fun happening => happening.deed.isLast) = none :=
    List.find?_eq_none.mpr fun happening mem last =>
      silent happening mem (Deed.isWord_of_isLast last)
  rw [endOf, List.find?_append, none, Option.or_none, endOf]

theorem endOf_eq_none (silent : ∀ happening ∈ log, ¬happening.deed.isWord) : endOf log = none :=
  endOf_append [] silent

theorem endOf_concat (log : List Happening) (happening : Happening) :
    endOf (log ++ [happening]) =
      (endOf log).or (if happening.deed.isLast then some happening.before.time else none) := by
  rw [endOf, List.find?_append, endOf]
  cases log.find? fun happening => happening.deed.isLast with
  | some word => rfl
  | none => by_cases last : happening.deed.isLast <;> simp [last]

theorem endOf_concat_of_not_isLast (ongoing : ¬happening.deed.isLast) :
    endOf (log ++ [happening]) = endOf log := by
  rw [endOf_concat, if_neg ongoing, Option.or_none]

theorem endOf_concat_of_some {time : Nat} (ended : endOf log = some time)
    (happening : Happening) : endOf (log ++ [happening]) = some time := by
  rw [endOf_concat, ended, Option.some_or]

theorem orderly_nil (ticks : Nat → Nat) : Orderly ticks [] := by
  intro earlier happening later split
  simp at split

theorem Orderly.of_append {more : List Happening} (orderly : Orderly ticks (log ++ more)) :
    Orderly ticks log := by
  intro earlier happening later split
  exact orderly earlier happening (later ++ more) (by simp [split])

theorem orderly_concat_iff : Orderly ticks (log ++ [happening]) ↔
    Orderly ticks log ∧ happening.Orderly ticks log := by
  constructor
  · exact fun orderly => ⟨orderly.of_append, orderly log happening [] rfl⟩
  · rintro ⟨orderly, last⟩ earlier other later split
    rcases concat_eq_append_cons_iff.mp split with ⟨rfl, rfl, -⟩ | ⟨between, -, before⟩
    · exact last
    · exact orderly earlier other between before

theorem Happening.orderly_of_not_isWord (silent : ¬happening.deed.isWord) :
    happening.Orderly ticks log :=
  ⟨fun _ word => absurd word silent, fun told => absurd (by rw [told]; rfl) silent⟩

theorem Orderly.append (orderly : Orderly ticks log) {more : List Happening}
    (silent : ∀ happening ∈ more, ¬happening.deed.isWord) : Orderly ticks (log ++ more) := by
  induction more using List.reverseRecOn with
  | nil => rwa [List.append_nil]
  | append_singleton more last ih =>
      rw [← List.append_assoc, orderly_concat_iff]
      exact ⟨ih fun happening mem => silent happening (List.mem_append_left _ mem),
        Happening.orderly_of_not_isWord (silent last List.mem_concat_self)⟩

end

end Polling

end Alerting
