import Alerting.Activity

/-!
# Collaborators

Stores and notifiers answer calls in their own time: at once, late, never, or by refusing. A caller
can set a deadline, after which it goes on without an answer and the call has no effect.
-/

namespace Alerting

inductive Reply where
  | prompt
  | delayed (millis : Nat)
  | never
  | refused (reason : String)
deriving DecidableEq, Repr

inductive Answer where
  | granted
  | refused (reason : String)
  | late
deriving DecidableEq, Repr

namespace Reply

variable {State : Type} [Timed State]

def answer : Reply → Activity State Answer
  | prompt => pure .granted
  | delayed millis => do
      Activity.pause millis
      pure .granted
  | never => do
      Activity.waitForever
      pure .late
  | refused reason => pure (.refused reason)

/-- Waits for a reply, at most for a number of milliseconds. A reply that comes just in time
counts. Only the reply takes no longer than a pause can take. -/
def answerWithin (limit : Nat) : Reply → Activity State Answer
  | prompt => pure .granted
  | delayed millis =>
      if min millis Activity.longestPause ≤ limit then do
        Activity.pause millis
        pure .granted
      else do
        Activity.elapse limit
        pure .late
  | never => do
      Activity.elapse limit
      pure .late
  | refused reason => pure (.refused reason)

end Reply

end Alerting
