import Alerting.Collaborator

/-!
# What activities leave alone

An activity spares a part of the state if none of its steps changes it, whatever others do in the
meantime. It is quiet if besides it waits for nothing but time: then it comes to an end. Activities
in sequence spare what each of them spares, and are quiet if each of them is; undisturbed, each goes
on where the one before it ends.
-/

namespace Alerting

namespace Activity

variable {State V A B : Type} {view : State → V}

def Spares (view : State → V) : Activity State A → Prop
  | done _ => True
  | act update next => (∀ state, view (update state) = view state) ∧
      ∀ state, (next state).Spares view
  | wait _ next => next.Spares view

theorem Spares.bind {activity : Activity State A} {continuation : A → Activity State B}
    (first : activity.Spares view) (rest : ∀ result, (continuation result).Spares view) :
    (activity >>= continuation).Spares view := by
  induction activity with
  | done result => exact rest result
  | act update next ih => exact ⟨first.1, fun state => ih state (first.2 state)⟩
  | wait ready next ih => exact ih first

theorem spares_pure (result : A) : (pure result : Activity State A).Spares view := trivial

theorem spares_get : (get : Activity State State).Spares view :=
  ⟨fun _ => rfl, fun _ => trivial⟩

/-! ## Undisturbed activities -/

theorem run_bind [Timed State] (activity : Activity State A) (continuation : A → Activity State B)
    (state : State) :
    (activity >>= continuation).run state =
      (activity.run state).bind fun ran => (continuation ran.1).run ran.2 := by
  induction activity generalizing state with
  | done result => rfl
  | act update next ih => exact ih state (update state)
  | wait ready next ih =>
      rw [bind_wait, run, run]
      cases ready state with
      | none => rfl
      | some time => exact ih _

theorem run_lift_bind {E : Type} (activity : Activity State A)
    (continuation : A → ExceptT E (Activity State) B) :
    (liftM activity >>= continuation).run = activity >>= fun result => (continuation result).run :=
  ExceptT.run_bind_lift activity continuation

theorem run_mapM_cons [Timed State] (serve : A → Activity State B) (input : A) (inputs : List A)
    (state : State) :
    ((input :: inputs).mapM serve).run state =
      ((serve input).run state).bind fun first =>
        ((inputs.mapM serve).run first.2).map fun rest => (first.1 :: rest.1, rest.2) := by
  rw [List.mapM_cons, run_bind]
  congr 1
  funext first
  rw [run_bind]
  exact (Option.map_eq_bind ..).symm

theorem run_mapM_append [Timed State] (serve : A → Activity State B) (inputs others : List A)
    (state : State) :
    ((inputs ++ others).mapM serve).run state =
      ((inputs.mapM serve).run state).bind fun first =>
        ((others.mapM serve).run first.2).map fun rest => (first.1 ++ rest.1, rest.2) := by
  rw [List.mapM_append, run_bind]
  congr 1
  funext first
  rw [run_bind]
  exact (Option.map_eq_bind ..).symm

/-! ## Quiet activities -/

def Quiet (view : State → V) : Activity State A → Prop
  | done _ => True
  | act update next => (∀ state, view (update state) = view state) ∧
      ∀ state, (next state).Quiet view
  | wait ready next => (∀ state, (ready state).isSome) ∧ next.Quiet view

theorem Quiet.spares {activity : Activity State A} (quiet : activity.Quiet view) :
    activity.Spares view := by
  induction activity with
  | done result => trivial
  | act update next ih => exact ⟨quiet.1, fun state => ih state (quiet.2 state)⟩
  | wait ready next ih => exact ih quiet.2

theorem Quiet.exists_run [Timed State] {activity : Activity State A} (quiet : activity.Quiet view)
    (state : State) : ∃ result final, activity.run state = some (result, final) := by
  induction activity generalizing state with
  | done result => exact ⟨result, state, rfl⟩
  | act update next ih => exact ih state (quiet.2 state) (update state)
  | wait ready next ih =>
      obtain ⟨time, htime⟩ := Option.isSome_iff_exists.mp (quiet.1 state)
      simp only [run, htime]
      exact ih quiet.2 _

theorem Quiet.map {W : Type} (part : V → W) {activity : Activity State A}
    (quiet : activity.Quiet view) : activity.Quiet fun state => part (view state) := by
  induction activity with
  | done result => trivial
  | act update next ih =>
      exact ⟨fun state => congrArg part (quiet.1 state), fun state => ih state (quiet.2 state)⟩
  | wait ready next ih => exact ⟨quiet.1, ih quiet.2⟩

theorem Quiet.bind {activity : Activity State A} {continuation : A → Activity State B}
    (first : activity.Quiet view) (rest : ∀ result, (continuation result).Quiet view) :
    (activity >>= continuation).Quiet view := by
  induction activity with
  | done result => exact rest result
  | act update next ih => exact ⟨first.1, fun state => ih state (first.2 state)⟩
  | wait ready next ih => exact ⟨first.1, ih first.2⟩

theorem quiet_pure (result : A) : (pure result : Activity State A).Quiet view := trivial

theorem quiet_get : (get : Activity State State).Quiet view :=
  ⟨fun _ => rfl, fun _ => trivial⟩

theorem quiet_modify {update : State → State} (same : ∀ state, view (update state) = view state) :
    (modify update).Quiet view :=
  ⟨same, fun _ => trivial⟩

theorem quiet_step {change : State → A × State}
    (same : ∀ state, view (change state).2 = view state) : (step change).Quiet view :=
  ⟨same, fun _ => trivial⟩

theorem quiet_elapse [Timed State] (millis : Nat) :
    (elapse millis : Activity State Unit).Quiet view :=
  quiet_get.bind fun _ => ⟨fun _ => rfl, trivial⟩

theorem quiet_mapM {serve : A → Activity State B} (each : ∀ input, (serve input).Quiet view)
    (inputs : List A) : (inputs.mapM serve).Quiet view := by
  induction inputs with
  | nil => exact quiet_pure _
  | cons input inputs ih =>
      rw [List.mapM_cons]
      exact (each input).bind fun _ => ih.bind fun _ => quiet_pure _

end Activity

namespace Reply

variable {State V : Type} [Timed State] {view : State → V}

def finalAnswer (limit : Nat) : Reply → Answer
  | prompt => .granted
  | delayed millis => if min millis Activity.longestPause ≤ limit then .granted else .late
  | never => .late
  | refused reason => .refused reason

theorem answerWithin_eq (State : Type) [Timed State] (limit : Nat) (reply : Reply) :
    (reply.answerWithin limit : Activity State Answer) = pure (reply.finalAnswer limit) ∨
      ∃ millis, (reply.answerWithin limit : Activity State Answer) =
        Activity.elapse millis >>= fun _ => pure (reply.finalAnswer limit) := by
  cases reply with
  | prompt => exact .inl rfl
  | delayed millis =>
      simp only [answerWithin, finalAnswer]
      split
      · exact .inr ⟨_, rfl⟩
      · exact .inr ⟨_, rfl⟩
  | never => exact .inr ⟨_, rfl⟩
  | refused reason => exact .inl rfl

theorem quiet_answerWithin (limit : Nat) (reply : Reply) :
    (reply.answerWithin limit : Activity State Answer).Quiet view := by
  rcases reply.answerWithin_eq State limit with same | ⟨millis, same⟩
  · rw [same]
    exact Activity.quiet_pure _
  · rw [same]
    exact (Activity.quiet_elapse millis).bind fun _ => Activity.quiet_pure _

theorem spares_answer (reply : Reply) : (reply.answer : Activity State Answer).Spares view := by
  cases reply with
  | prompt => exact Activity.spares_pure _
  | delayed millis =>
      exact (Activity.quiet_elapse _).spares.bind fun _ => Activity.spares_pure _
  | never => trivial
  | refused reason => exact Activity.spares_pure _

end Reply

end Alerting
