/-!
# Activities

An activity is a computation on a state that it shares with other activities. It changes the state
in steps that happen at once, and waits where it cannot go on; while it waits, others may change
the state. Time is part of the state and passes only while everything waits.
-/

namespace Alerting

class Timed (State : Type) where
  time : State → Nat
  setTime : Nat → State → State

inductive Activity (State Result : Type) where
  | done (result : Result)
  | act (update : State → State) (next : State → Activity State Result)
  /-- Goes on as soon as the time is at least `ready state`, which may depend on the state that
  others bring about. -/
  | wait (ready : State → Option Nat) (next : Activity State Result)

namespace Activity

variable {State A B C : Type}

protected def bind (activity : Activity State A) (continuation : A → Activity State B) :
    Activity State B :=
  match activity with
  | done result => continuation result
  | act update next => act update fun state => (next state).bind continuation
  | wait ready next => wait ready (next.bind continuation)

instance : Monad (Activity State) where
  pure := done
  bind := Activity.bind

@[simp] theorem pure_eq (result : A) : (pure result : Activity State A) = done result := rfl

@[simp] theorem bind_done (result : A) (continuation : A → Activity State B) :
    (done result >>= continuation) = continuation result := rfl

@[simp] theorem bind_act (update : State → State) (next : State → Activity State A)
    (continuation : A → Activity State B) :
    (act update next >>= continuation) =
      act update fun state => next state >>= continuation := rfl

@[simp] theorem bind_wait (ready : State → Option Nat) (next : Activity State A)
    (continuation : A → Activity State B) :
    (wait ready next >>= continuation) = wait ready (next >>= continuation) := rfl

theorem bind_pure_self (activity : Activity State A) : activity >>= done = activity := by
  induction activity with
  | done result => rfl
  | act update next ih => simp only [bind_act, ih]
  | wait ready next ih => simp only [bind_wait, ih]

theorem bind_assoc_self (activity : Activity State A) (f : A → Activity State B)
    (g : B → Activity State C) : activity >>= f >>= g = activity >>= fun a => f a >>= g := by
  induction activity with
  | done result => rfl
  | act update next ih => simp only [bind_act, ih]
  | wait ready next ih => simp only [bind_wait, ih]

instance : LawfulMonad (Activity State) :=
  LawfulMonad.mk' (Activity State) bind_pure_self (fun _ _ => rfl) bind_assoc_self

def get : Activity State State := act id done

def modify (update : State → State) : Activity State Unit := act update fun _ => done ()

def step (change : State → A × State) : Activity State A :=
  act (fun state => (change state).2) fun state => done (change state).1

def await (condition : State → Bool) : Activity State Unit :=
  wait (fun state => if condition state then some 0 else none) (done ())

def waitForever : Activity State Unit := wait (fun _ => none) (done ())

def elapse [Timed State] (millis : Nat) : Activity State Unit := do
  let state ← get
  wait (fun _ => some (Timed.time state + millis)) (done ())

/-- The longest pause in milliseconds: thirty years of 365 days. -/
def longestPause : Nat := 946080000000

def pause [Timed State] (millis : Nat) : Activity State Unit := elapse (min millis longestPause)

def longestInterval : Nat := Nat.pow 2 63 - Nat.pow 2 31

/-- When a regular tick comes first. There is none without a period, or if the clock cannot count up
to it. -/
def firstTick? (period now : Nat) : Option Nat :=
  if period = 0 ∨ longestInterval * 1000 < now + period then none else some (now + period)

def tickTolerance : Nat := 5

/-- When a regular tick follows the one that was due at `due` and is noticed at `now`. Late ticks
are made up for; after one that is noticed in time, the next is no farther off than a pause can
last. -/
def nextTick (period due now : Nat) : Nat :=
  if period ≤ longestPause ∨ due + tickTolerance < now then due + period else now + longestPause

def readyAt (activity : Activity State A) (state : State) : Option Nat :=
  match activity with
  | wait ready _ => ready state
  | _ => some 0

/-- The course of an activity that nothing else interferes with: time passes as far as it has to.
There is no result if the activity waits for something that nothing brings about. -/
def run [Timed State] (activity : Activity State A) (state : State) : Option (A × State) :=
  match activity with
  | done result => some (result, state)
  | act update next => (next state).run (update state)
  | wait ready next =>
      match ready state with
      | some time => next.run (Timed.setTime (max time (Timed.time state)) state)
      | none => none

end Activity

end Alerting
