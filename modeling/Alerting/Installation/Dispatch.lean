import Alerting.Installation.Storage
import Alerting.Template

/-!
# Dispatching actions

When a rule fires, its actions are rendered and carried out in their order. Only the bell is
delivered to the notifier, within a deadline; whatever happens to one action, the next one follows.
-/

namespace Alerting

inductive Outcome where
  | delivered
  | skipped
  | failed
deriving DecidableEq, Repr

def DispatchReport.add (report : DispatchReport) : Outcome → DispatchReport
  | .delivered => { report with delivered := report.delivered + 1 }
  | .skipped => { report with skipped := report.skipped + 1 }
  | .failed => { report with failed := report.failed + 1 }

namespace Installation

def defaultNotifyTimeout : Nat := 5000

def notify (notifier : Notifier) (title message : String) (limit : Nat) : Work Answer := do
  let installation ← Activity.get
  if notifier.recorded then
    modifyJournal fun journal => { journal with notices := (title, message) :: journal.notices }
  (notifier.reply installation.journal.notices).answerWithin limit

def carryOut (notifier : Option Notifier) (limit : Nat) (rule : Rule) (event : Event)
    (action : Action) : Work Outcome := do
  match action.target, notifier with
  | .bell, some notifier =>
      if notifier.enabled then
        let title := Template.render action.title rule event
        let message := Template.render action.message rule event
        match ← notify notifier title message limit with
        | .granted => pure .delivered
        | _ => pure .failed
      else pure .skipped
  | _, _ => pure .skipped

def dispatch (notifier : Option Notifier) (limit : Nat) (rule : Rule) (event : Event) :
    Work DispatchReport :=
  rule.actions.foldlM
    (fun report action => do return report.add (← carryOut notifier limit rule event action)) {}

def handOver (sink : Sink) (rule : Rule) (event : Event) : Work DispatchReport :=
  match sink with
  | .observer => pure {}
  | .dispatcher notifier limit => dispatch notifier limit rule event

end Installation

end Alerting
