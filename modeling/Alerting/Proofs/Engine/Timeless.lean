import Alerting.Proofs.Dispatch
import Alerting.Proofs.Engine.Service

/-!
# Work that takes no notice of the time

Handling an event that brings its time along, firing and dispatching wait for nothing but replies
and deadlines, and never ask how late it is. So it makes no difference when such work begins, but
for the time at which it ends.
-/

namespace Alerting

namespace Activity

open Installation

variable {A B : Type}

/-- Whether it makes no difference when a work begins, but for the time at which it ends. -/
def Timeless (work : Work A) : Prop :=
  ∀ (installation : Installation) (time : Nat), ∃ later,
    work.run { installation with time } =
      (work.run installation).map fun ran => (ran.1, { ran.2 with time := later })

theorem timeless_pure (result : A) : (pure result : Work A).Timeless :=
  fun _ time => ⟨time, rfl⟩

theorem Timeless.bind {work : Work A} {continuation : A → Work B} (first : work.Timeless)
    (rest : ∀ result, (continuation result).Timeless) : (work >>= continuation).Timeless := by
  intro installation time
  obtain ⟨between, same⟩ := first installation time
  rw [run_bind, run_bind, same]
  cases work.run installation with
  | none => exact ⟨time, rfl⟩
  | some ran => exact rest ran.1 ran.2 between

theorem timeless_get_bind {continuation : Installation → Work B}
    (ignores : ∀ (installation : Installation) (time : Nat),
      continuation { installation with time } = continuation installation)
    (each : ∀ installation, (continuation installation).Timeless) :
    (get >>= continuation).Timeless := by
  intro installation time
  change ∃ later, (continuation { installation with time }).run { installation with time } = _
  rw [ignores installation time]
  exact each installation installation time

theorem timeless_step {change : Installation → A × Installation}
    (ignores : ∀ (installation : Installation) (time : Nat),
      change { installation with time } =
        ((change installation).1, { (change installation).2 with time })) :
    (step change).Timeless :=
  fun installation time => ⟨time, congrArg some (ignores installation time)⟩

theorem timeless_modify {update : Installation → Installation}
    (ignores : ∀ (installation : Installation) (time : Nat),
      update { installation with time } = { update installation with time }) :
    (modify update).Timeless :=
  fun installation time =>
    ⟨time, congrArg (fun next => some ((), next)) (ignores installation time)⟩

theorem timeless_elapse (millis : Nat) : (elapse millis : Work Unit).Timeless :=
  fun _ _ => ⟨_, rfl⟩

theorem timeless_mapM {serve : A → Work B} (each : ∀ input, (serve input).Timeless)
    (inputs : List A) : (inputs.mapM serve).Timeless := by
  induction inputs with
  | nil => exact timeless_pure _
  | cons input inputs ih =>
      rw [List.mapM_cons]
      exact (each input).bind fun _ => ih.bind fun _ => timeless_pure _

theorem timeless_answer (reply : Reply) : (reply.answer : Work Answer).Timeless := by
  cases reply with
  | prompt => exact timeless_pure _
  | delayed millis => exact (timeless_elapse _).bind fun _ => timeless_pure _
  | never => exact fun _ time => ⟨time, rfl⟩
  | refused reason => exact timeless_pure _

theorem timeless_answerWithin (limit : Nat) (reply : Reply) :
    (reply.answerWithin limit : Work Answer).Timeless := by
  rcases reply.answerWithin_eq Installation limit with same | ⟨millis, same⟩
  · rw [same]
    exact timeless_pure _
  · rw [same]
    exact (timeless_elapse millis).bind fun _ => timeless_pure _

end Activity

namespace Installation

open Activity

/-! ## Handling events -/

variable {index : Nat}

theorem timeless_dispatch (notifier : Option Notifier) (limit : Nat) (rule : Rule) (event : Event) :
    (dispatch notifier limit rule event).Timeless := by
  cases heard : notifier.filter Notifier.enabled with
  | none =>
      rw [dispatch_of_absent heard]
      exact timeless_pure _
  | some listener =>
      obtain ⟨rfl, enabled⟩ := Option.filter_eq_some_iff.mp heard
      intro installation time
      obtain ⟨later, ran⟩ := exists_run_dispatch enabled limit rule event { installation with time }
      obtain ⟨_, other⟩ := exists_run_dispatch enabled limit rule event installation
      refine ⟨later, ?_⟩
      rw [ran, other]
      rfl

theorem timeless_saveFire (record : Record) (limit : Nat) : (saveFire record limit).Timeless := by
  apply timeless_get_bind fun _ _ => rfl
  intro installation
  apply (timeless_answerWithin _ _).bind
  intro answer
  cases answer with
  | granted => exact timeless_modify fun _ _ => rfl
  | refused reason => exact timeless_pure _
  | late => exact timeless_pure _

theorem timeless_fire (rule : Rule) (event : Event) (now : Instant) :
    (fire index rule event now).Timeless := by
  apply timeless_get_bind fun _ _ => rfl
  intro installation
  cases installation.stations[index]? with
  | none => exact timeless_pure _
  | some station =>
      apply (timeless_saveFire _ _).bind
      intro _
      cases station.sink with
      | none => exact timeless_pure _
      | some sink =>
          have handedOver : (handOver sink rule event).Timeless := by
            cases sink with
            | observer => exact timeless_pure _
            | dispatcher notifier limit => exact timeless_dispatch _ _ _ _
          apply handedOver.bind
          intro report
          by_cases recorded : station.recorded
          · simp only [recorded, if_true]
            exact timeless_modify fun _ _ => rfl
          · simp only [recorded]
            exact timeless_pure _

theorem timeless_withStation {A : Type} {absent : A} {change : Station → A × Station} :
    (withStation index absent change).Timeless := by
  apply timeless_step
  intro installation time
  dsimp only
  cases installation.stations[index]? <;> rfl

theorem timeless_decide (event : Event) (now : Instant) (handling : Handling) (rules : List Rule) :
    (decide index event now handling rules).Timeless := by
  induction rules generalizing handling with
  | nil => exact timeless_pure _
  | cons rule rules ih =>
      apply timeless_withStation.bind
      intro verdict
      by_cases fires : verdict = .fires
      · simp only [fires, if_true]
        exact (timeless_fire _ _ _).bind fun _ => ih _
      · simp only [fires, if_false]
        exact ih _

theorem timeless_handle {event : Event} {now : Instant} (timely : event.timestamp = some now) :
    (handle index event).Timeless := by
  rw [handle_eq timely]
  exact timeless_withStation.bind fun _ => timeless_decide _ _ _ _

end Installation

end Alerting
