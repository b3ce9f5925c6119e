import Alerting.Installation.Storage

/-!
# What calls do at once

A call takes its steps up to its next wait or its end without anybody else between them. If it never
waits, as when the store replies at once, that is all it does.
-/

namespace Alerting

namespace Activity

variable {State A B : Type}

/-- Carries out the steps of an activity up to its next wait or its end. -/
def burst : Activity State A → State → Activity State A × State
  | done result, state => (done result, state)
  | act update next, state => (next state).burst (update state)
  | wait ready next, state => (wait ready next, state)

/-- What follows the wait at which an activity has stopped. -/
def past : Activity State A → Activity State A
  | wait _ next => next
  | other => other

theorem burst_bind_of_done {activity : Activity State A} {continuation : A → Activity State B}
    {state next : State} {result : A} (ran : activity.burst state = (done result, next)) :
    (activity >>= continuation).burst state = (continuation result).burst next := by
  induction activity generalizing state with
  | done answer =>
      cases ran
      rfl
  | act update rest ih => exact ih state ran
  | wait ready rest ih => cases ran

theorem burst_get (state : State) :
    (get : Activity State State).burst state = (done state, state) := rfl

theorem burst_lift {E : Type} {activity : Activity State A} {state next : State} {result : A}
    (ran : activity.burst state = (done result, next)) :
    (liftM activity : ExceptT E (Activity State) A).run.burst state =
      (done (.ok result), next) :=
  burst_bind_of_done ran

theorem burst_bind_of_ok {E : Type} {attempt : ExceptT E (Activity State) A}
    {continuation : A → ExceptT E (Activity State) B} {state next : State} {result : A}
    (ran : attempt.run.burst state = (done (.ok result), next)) :
    (attempt >>= continuation).run.burst state = (continuation result).run.burst next := by
  rw [ExceptT.run_bind, burst_bind_of_done ran]

theorem burst_bind_of_error {E : Type} {attempt : ExceptT E (Activity State) A}
    {continuation : A → ExceptT E (Activity State) B} {state next : State} {fault : E}
    (ran : attempt.run.burst state = (done (.error fault), next)) :
    (attempt >>= continuation).run.burst state = (done (.error fault), next) := by
  rw [ExceptT.run_bind, burst_bind_of_done ran]
  rfl

theorem run_of_burst [Timed State] {activity : Activity State A} {state next : State} {result : A}
    (ran : activity.burst state = (done result, next)) :
    activity.run state = some (result, next) := by
  induction activity generalizing state with
  | done answer =>
      cases ran
      rfl
  | act update rest ih => exact ih state ran
  | wait ready rest ih => cases ran

end Activity

namespace Installation

open Activity

variable {installation : Installation} {index : Nat} {station : Station}

/-! ## Steps of a station -/

def place (installation : Installation) (index : Nat) (station : Station) : Installation :=
  { installation with stations := installation.stations.set index station }

theorem getElem?_place (present : installation.stations[index]? = some station)
    (changed : Station) : (installation.place index changed).stations[index]? = some changed := by
  obtain ⟨bound, _⟩ := List.getElem?_eq_some_iff.mp present
  simp [place, bound]

theorem place_self (present : installation.stations[index]? = some station) :
    installation.place index station = installation := by
  obtain ⟨bound, found⟩ := List.getElem?_eq_some_iff.mp present
  rw [place, ← found, List.set_getElem_self]

theorem burst_withStation {A : Type} {absent : A} {change : Station → A × Station}
    (present : installation.stations[index]? = some station) :
    (withStation index absent change).burst installation =
      (.done (change station).1, installation.place index (change station).2) := by
  rw [withStation, step]
  simp only [burst, present, place]

theorem burst_modifyEngine {change : Engine → Engine}
    (present : installation.stations[index]? = some station) :
    (modifyEngine index change).burst installation =
      (.done (), installation.place index { station with engine := change station.engine }) :=
  burst_withStation present

/-! ## Calls to a store that replies at once -/

theorem burst_awaitStore {kind : StoreConduct → Reply}
    (prompt : kind installation.conduct = .prompt) :
    (awaitStore kind).run.burst installation = (.done (.ok ()), installation) := by
  rw [awaitStore, burst_bind_of_ok (burst_lift (burst_get _)), prompt]
  rfl

theorem burst_changeStore {A : Type} {change : Store → Except Fault (A × Store)} {result : A}
    {store : Store} (changed : change installation.store = .ok (result, store)) :
    (changeStore change).run.burst installation =
      (.done (.ok result), { installation with store }) := by
  rw [changeStore, ExceptT.run_mk, step]
  simp only [burst, changed]

theorem burst_changeStore_of_refused {A : Type} {change : Store → Except Fault (A × Store)}
    {fault : Fault} (refused : change installation.store = .error fault) :
    (changeStore change).run.burst installation = (.done (.error fault), installation) := by
  rw [changeStore, ExceptT.run_mk, step]
  simp only [burst, refused]

end Installation

end Alerting
