import Alerting.Proofs.Activity

/-!
# The course of activities among others

While an activity is under way, others may change whatever they like except a view of the state. It
takes each step in a state that shows what the view has come to, and a wait may be over at any
time. What an activity ensures is told by the view it finds: whatever else the states hold, it ends
with a result and a view that fit each other.
-/

namespace Alerting

namespace Activity

variable {State V A B : Type} {view : State → V}

/-- Whether an activity that begins in a state can end with a result in another one. -/
inductive Ends (view : State → V) : Activity State A → State → A → State → Prop where
  | done (result : A) (state : State) : Ends view (.done result) state result state
  | act {update : State → State} {next : State → Activity State A} {state final : State}
      {result : A} (rest : Ends view (next state) (update state) result final) :
      Ends view (.act update next) state result final
  | wait {ready : State → Option Nat} {next : Activity State A} {state final : State} {result : A}
      (rest : Ends view next state result final) : Ends view (.wait ready next) state result final
  | aside {activity : Activity State A} {state other final : State} {result : A}
      (same : view other = view state) (rest : Ends view activity other result final) :
      Ends view activity state result final

theorem Ends.of_run [Timed State]
    (timeless : ∀ time state, view (Timed.setTime time state) = view state)
    {activity : Activity State A} {state final : State} {result : A}
    (run : activity.run state = some (result, final)) : Ends view activity state result final := by
  induction activity generalizing state with
  | done answer =>
      cases run
      exact .done ..
  | act update next ih => exact .act (ih state run)
  | wait ready next ih =>
      rw [Activity.run] at run
      split at run
      · exact .wait (.aside (timeless _ _) (ih run))
      · contradiction

theorem exists_ends_of_run [Timed State]
    (timeless : ∀ time state, view (Timed.setTime time state) = view state)
    {activity : Activity State A} {state : State} {result : A}
    (run : (activity.run state).map Prod.fst = some result) :
    ∃ final, Ends view activity state result final := by
  obtain ⟨⟨answer, final⟩, run, same⟩ := Option.map_eq_some_iff.mp run
  exact ⟨final, same ▸ .of_run timeless run⟩

def rush (activity : Activity State A) (state : State) : A × State :=
  match activity with
  | done result => (result, state)
  | act update next => (next state).rush (update state)
  | wait _ next => next.rush state

theorem exists_ends_of_rush {activity : Activity State A} {state : State} {result : A}
    (rushed : (activity.rush state).1 = result) :
    ∃ final, Ends view activity state result final := by
  induction activity generalizing state with
  | done answer =>
      cases rushed
      exact ⟨state, .done ..⟩
  | act update next ih =>
      obtain ⟨final, rest⟩ := ih state rushed
      exact ⟨final, .act rest⟩
  | wait ready next ih =>
      obtain ⟨final, rest⟩ := ih rushed
      exact ⟨final, .wait rest⟩

/-- Whether an activity that finds a view can only end with a result and a view that fit. -/
def Ensures (view : State → V) (post : A → V → Prop) : Activity State A → V → Prop
  | .done result, seen => post result seen
  | .act update next, seen =>
      ∀ state, view state = seen → (next state).Ensures view post (view (update state))
  | .wait _ next, seen => next.Ensures view post seen

theorem Ends.fits {post : A → V → Prop} {activity : Activity State A} {state final : State}
    {result : A} (ends : Ends view activity state result final)
    (ensures : activity.Ensures view post (view state)) : post result (view final) := by
  induction ends with
  | done result state => exact ensures
  | act rest ih => exact ih (ensures _ rfl)
  | wait rest ih => exact ih ensures
  | aside same rest ih => exact ih (same ▸ ensures)

/-! ## Rules -/

variable {post : A → V → Prop} {seen : V}

theorem Ensures.bind {after : B → V → Prop} {activity : Activity State A}
    {continuation : A → Activity State B} (first : activity.Ensures view post seen)
    (rest : ∀ result next, post result next → (continuation result).Ensures view after next) :
    (activity >>= continuation).Ensures view after seen := by
  induction activity generalizing seen with
  | done result => exact rest result seen first
  | act update next ih => exact fun state same => ih state (first state same)
  | wait ready next ih => exact ih first

theorem Ensures.imp {weaker : A → V → Prop} {activity : Activity State A}
    (ensures : activity.Ensures view post seen)
    (weaken : ∀ result next, post result next → weaker result next) :
    activity.Ensures view weaker seen := by
  induction activity generalizing seen with
  | done result => exact weaken result seen ensures
  | act update next ih => exact fun state same => ih state (ensures state same)
  | wait ready next ih => exact ih ensures

theorem Spares.ensures {activity : Activity State A} (spares : activity.Spares view) :
    activity.Ensures view (fun _ next => next = seen) seen := by
  induction activity with
  | done result => rfl
  | act update next ih =>
      intro state same
      rw [spares.1 state, same]
      exact ih state (spares.2 state)
  | wait ready next ih => exact ih spares

theorem ensures_get : (get : Activity State State).Ensures view
    (fun state next => view state = seen ∧ next = seen) seen :=
  fun _ same => ⟨same, same⟩

theorem ensures_step {change : State → A × State}
    (leads : ∀ state, view state = seen → post (change state).1 (view (change state).2)) :
    (step change).Ensures view post seen :=
  leads

theorem ensures_modify {update : State → State} (change : V → V)
    (same : ∀ state, view (update state) = change (view state)) :
    (modify update).Ensures view (fun _ next => next = change seen) seen := by
  rintro state rfl
  exact same state

/-! ## Attempts -/

variable {E : Type}

theorem Ensures.lift_bind {activity : Activity State A}
    {continuation : A → ExceptT E (Activity State) B} {after : Except E B → V → Prop}
    (first : activity.Ensures view post seen)
    (rest : ∀ result next, post result next → (continuation result).run.Ensures view after next) :
    (liftM activity >>= continuation).run.Ensures view after seen := by
  have lifted : (activity >>= fun result => pure (.ok result : Except E A)).Ensures view
      (fun answer next => ∃ result, answer = .ok result ∧ post result next) seen :=
    first.bind fun result _ fits => ⟨result, rfl, fits⟩
  rw [ExceptT.run_bind]
  apply Ensures.bind lifted
  rintro _ next ⟨result, rfl, fits⟩
  exact rest result next fits

theorem Ensures.lift {activity : Activity State A} {after : Except E A → V → Prop}
    (ensures : activity.Ensures view post seen)
    (fits : ∀ result next, post result next → after (.ok result) next) :
    (liftM activity : ExceptT E (Activity State) A).run.Ensures view after seen :=
  ensures.bind fits

theorem Ensures.run_bind {attempt : ExceptT E (Activity State) A}
    {continuation : A → ExceptT E (Activity State) B} {first : Except E A → V → Prop}
    {after : Except E B → V → Prop} (ensures : attempt.run.Ensures view first seen)
    (rest : ∀ result next, first (.ok result) next →
      (continuation result).run.Ensures view after next)
    (failed : ∀ fault next, first (.error fault) next → after (.error fault) next) :
    (attempt >>= continuation).run.Ensures view after seen := by
  rw [ExceptT.run_bind]
  apply ensures.bind
  rintro (fault | result) next fits
  · exact failed fault next fits
  · exact rest result next fits

/-! ## One thing after another -/

inductive Chain {S : Type} (step : S → A → B → S → Prop) : S → List A → List B → S → Prop where
  | nil (state : S) : Chain step state [] [] state
  | cons {state between last : S} {input : A} {output : B} {inputs : List A} {outputs : List B}
      (first : step state input output between) (rest : Chain step between inputs outputs last) :
      Chain step state (input :: inputs) (output :: outputs) last

theorem ensures_mapM {S : Type} {shown : S → V} {step : S → A → B → S → Prop}
    {serve : A → Activity State B} {inputs : List A}
    (each : ∀ input ∈ inputs, ∀ state, (serve input).Ensures view
      (fun output next => ∃ after, next = shown after ∧ step state input output after)
      (shown state)) (state : S) :
    (inputs.mapM serve).Ensures view
      (fun outputs next => ∃ last, next = shown last ∧ Chain step state inputs outputs last)
      (shown state) := by
  induction inputs generalizing state with
  | nil => exact ⟨state, rfl, .nil state⟩
  | cons input inputs ih =>
      rw [List.mapM_cons]
      apply (each input List.mem_cons_self state).bind
      rintro output _ ⟨between, rfl, first⟩
      apply (ih (fun other mem => each other (List.mem_cons_of_mem _ mem)) between).bind
      rintro outputs _ ⟨last, rfl, rest⟩
      exact ⟨last, rfl, .cons first rest⟩

theorem Ends.chain {S : Type} {shown : S → V} {step : S → A → B → S → Prop}
    {serve : A → Activity State B} {inputs : List A} {outputs : List B} {state : S}
    {first last : State}
    (each : ∀ input ∈ inputs, ∀ state, (serve input).Ensures view
      (fun output next => ∃ after, next = shown after ∧ step state input output after)
      (shown state))
    (present : view first = shown state)
    (ends : Ends view (inputs.mapM serve) first outputs last) :
    ∃ final, view last = shown final ∧ Chain step state inputs outputs final := by
  have ensures := ensures_mapM each state
  rw [← present] at ensures
  exact ends.fits ensures

end Activity

end Alerting
