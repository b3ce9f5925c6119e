import Alerting.Proofs.Course
import Alerting.Proofs.Engine.Handling
import Alerting.Proofs.Engine.Verdicts

/-!
# Serving one request after another

Whoever looks at an installation from outside sees an engine that takes its steps one after another,
and what comes to tell of its fires. Whatever else goes on, an event is handled as the engine alone
would handle it.
-/

namespace Alerting

namespace Installation

open Activity

variable {index : Nat} {event : Event} {now : Instant}

/-! ## Steps of an engine -/

theorem ensures_askEngine {A W : Type} (shown : Installation → Station → Option W)
    (ignores : ∀ (installation : Installation) (stations : List Station),
      shown { installation with stations } = shown installation)
    {seen : W} {post : A → W → Prop} {absent : A} {change : Engine → A × Engine}
    (leads : ∀ installation station, shown installation station = some seen →
      ∃ after, shown installation { station with engine := (change station.engine).2 } = some after ∧
        post (change station.engine).1 after) :
    (askEngine index absent change).Ensures
      (fun installation => installation.stations[index]?.bind (shown installation))
      (fun result next => ∃ after, next = some after ∧ post result after) (some seen) := by
  apply ensures_step
  intro installation same
  obtain ⟨station, present, shows⟩ := Option.bind_eq_some_iff.mp same
  obtain ⟨after, leads, fits⟩ := leads installation station shows
  obtain ⟨bound, rfl⟩ := List.getElem?_eq_some_iff.mp present
  refine ⟨after, ?_, ?_⟩
  · simp [bound, ignores, leads]
  · simpa [bound] using fits

theorem ensures_decide {V : Type} {view : Installation → V}
    {invariant : Handling → List Rule → V → Prop}
    (kept : ∀ handling rule pending seen, invariant handling (rule :: pending) seen →
      (askEngine index .unmatched fun engine => engine.consider rule event now).Ensures view
        (fun verdict next =>
          if verdict = .fires then
            (fire index rule event now).Ensures view
              (fun _ after => invariant (handling.add rule .fires) pending after) next
          else invariant (handling.add rule verdict) pending next) seen)
    {handling : Handling} {rules : List Rule} {seen : V} (holds : invariant handling rules seen) :
    (decide index event now handling rules).Ensures view
      (fun final next => invariant final [] next) seen := by
  induction rules generalizing handling seen with
  | nil => exact holds
  | cons rule rules ih =>
      apply (kept handling rule rules seen holds).bind
      intro verdict next decided
      change (if verdict = .fires then do
          fire index rule event now
          decide index event now (handling.add rule verdict) rules
        else decide index event now (handling.add rule verdict) rules).Ensures view _ next
      by_cases fires : verdict = .fires
      · rw [if_pos fires] at decided ⊢
        rw [fires]
        exact decided.bind fun _ after => ih
      · rw [if_neg fires] at decided ⊢
        exact ih decided

theorem handle_eq (timely : event.timestamp = some now) :
    handle index event =
      (askEngine index (false, []) fun engine =>
        (((engine.observe event now).1, (engine.observe event now).2.rules),
          (engine.observe event now).2)) >>= fun answer =>
        decide index event now { recorded := answer.1 } answer.2 := by
  unfold handle
  rw [timely]
  rfl

/-! ## Reading the store -/

section

variable {V : Type} {view : Installation → V} {seen : V}

theorem ensures_awaitStore (kind : StoreConduct → Reply) :
    (awaitStore kind).run.Ensures view (fun _ next => next = seen) seen := by
  apply spares_get.ensures.lift_bind
  rintro installation _ rfl
  apply (Reply.spares_answer _).ensures.lift_bind
  rintro answer _ rfl
  cases answer <;> rfl

theorem ensures_reading {A : Type} (kind : StoreConduct → Reply) (part : Store → A) :
    (do
      awaitStore kind
      return part (← (Activity.get : Work Installation)).store : Attempt A).run.Ensures view
      (fun answer next => next = seen ∧ ∀ result, answer = .ok result →
        ∃ source, view source = seen ∧ result = part source.store) seen := by
  apply (ensures_awaitStore _).run_bind
  · rintro _ _ rfl
    apply ensures_get.lift_bind
    rintro source _ ⟨shows, rfl⟩
    refine ⟨rfl, ?_⟩
    rintro _ ⟨⟩
    exact ⟨source, shows, rfl⟩
  · rintro _ _ rfl
    exact ⟨rfl, by simp⟩

theorem ensures_listRules :
    listRules.run.Ensures view
      (fun answer next => next = seen ∧ ∀ rules, answer = .ok rules →
        ∃ source, view source = seen ∧ rules = source.store.rules) seen :=
  ensures_reading _ Store.rules

theorem ensures_listEnabledRules :
    listEnabledRules.run.Ensures view
      (fun answer next => next = seen ∧ ∀ rules, answer = .ok rules →
        ∃ source, view source = seen ∧ rules = source.store.enabledRules) seen :=
  ensures_reading _ Store.enabledRules

end

/-! ## Outlooks -/

/-- A view of an installation that shows an engine and comes to tell of its fires. -/
structure Outlook (index : Nat) (W : Type) where
  view : Installation → Option W
  engine : W → Engine
  tells : W → List (UInt64 × Instant) → W → Prop
  ignoresClock : ∀ (installation : Installation) (clock : Clock),
    view { installation with clock } = view installation
  trans : ∀ {before between after : W} {first second : List (UInt64 × Instant)},
    tells before first between → tells between second after → tells before (first ++ second) after
  asks : ∀ {A : Type} (absent : A) (change : Engine → A × Engine) (seen : W),
    (change (engine seen)).2.settings = (engine seen).settings →
    (askEngine index absent change).Ensures view
      (fun result next => ∃ after, next = some after ∧ result = (change (engine seen)).1 ∧
        engine after = (change (engine seen)).2 ∧ tells seen [] after) (some seen)
  fires : ∀ (rule : Rule) {event : Event} {now : Instant} (seen : W), event.timestamp = some now →
    (fire index rule event now).Ensures view
      (fun _ next => ∃ after, next = some after ∧ engine after = engine seen ∧
        tells seen [(rule.id, now)] after) (some seen)

inductive Request where
  | handle (event : Event)
  | refresh
  | testFire (rule : Rule)
  | cooldownRemaining (id : UInt64) (now : Instant)

inductive Response where
  | handled (handling : Handling)
  | refreshed (outcome : Except Fault Nat)
  | testFired
  | cooldown (remaining : Option Span)
deriving DecidableEq

def serve (index : Nat) : Request → Work Response
  | .handle event => do return .handled (← handle index event)
  | .refresh => do return .refreshed (← (refresh index).run)
  | .testFire rule => do
      testFire index rule
      return .testFired
  | .cooldownRemaining id now => do
      return .cooldown (← askEngine index none fun engine =>
        (engine.cooldownRemaining id now, engine))

def Request.Timely : Request → Prop
  | .handle event => event.timestamp.isSome
  | _ => True

/-- How an engine serves a request, and which fires are told of afterwards. -/
inductive Serves {W : Type} (outlook : Outlook index W) : W → Request → Response → W → Prop where
  | handle {before after : W} {event : Event} {now : Instant} (timely : event.timestamp = some now)
      (left : outlook.engine after = ((outlook.engine before).handle event now).2)
      (tells : outlook.tells before
        (((outlook.engine before).handle event now).1.fired.map (·, now)) after) :
      Serves outlook before (.handle event)
        (.handled ((outlook.engine before).handle event now).1) after
  | refresh {before after : W} {source : Installation} (shows : outlook.view source = some before)
      (left : outlook.engine after = (outlook.engine before).refresh source.store.enabledRules)
      (tells : outlook.tells before [] after) :
      Serves outlook before .refresh (.refreshed (.ok source.store.enabledRules.length)) after
  | refuse {before : W} {fault : Fault} :
      Serves outlook before .refresh (.refreshed (.error fault)) before
  | testFire {before after : W} {rule : Rule} {now : Instant}
      (left : outlook.engine after = (outlook.engine before).noteFire rule.id now)
      (tells : outlook.tells before [(rule.id, now)] after) :
      Serves outlook before (.testFire rule) .testFired after
  | cooldownRemaining {before after : W} {id : UInt64} {now : Instant}
      (left : outlook.engine after = outlook.engine before)
      (tells : outlook.tells before [] after) :
      Serves outlook before (.cooldownRemaining id now)
        (.cooldown ((outlook.engine before).cooldownRemaining id now)) after

section

variable {W : Type} {outlook : Outlook index W}

theorem Outlook.ensures_handle (timely : event.timestamp = some now) (seen : W) :
    (handle index event).Ensures outlook.view
      (fun handling next => ∃ after, next = some after ∧
        handling = ((outlook.engine seen).handle event now).1 ∧
        outlook.engine after = ((outlook.engine seen).handle event now).2 ∧
        outlook.tells seen (handling.fired.map (·, now)) after) (some seen) := by
  -- What the engine on view would decide from here on is what it was to decide at first.
  let invariant (handling : Handling) (pending : List Rule) (found : Option W) : Prop :=
    ∃ current : W, found = some current ∧
      (outlook.engine current).decide event now handling pending =
        (outlook.engine seen).handle event now ∧
      outlook.tells seen (handling.fired.map (·, now)) current
  have kept : ∀ handling rule pending found, invariant handling (rule :: pending) found →
      (askEngine index .unmatched fun engine => engine.consider rule event now).Ensures
        outlook.view
        (fun verdict next =>
          if verdict = .fires then
            (fire index rule event now).Ensures outlook.view
              (fun _ after => invariant (handling.add rule .fires) pending after) next
          else invariant (handling.add rule verdict) pending next) found := by
    rintro handling rule pending _ ⟨current, rfl, decided, told⟩
    apply (outlook.asks _ _ current Engine.settings_consider).imp
    rintro verdict _ ⟨between, rfl, hverdict, left, silent⟩
    rw [Engine.decide_cons, Engine.verdict, ← hverdict, ← left] at decided
    -- Between the verdict and the next rule the engine is let alone, whether the rule fires or not.
    have told := outlook.trans told silent
    rw [List.append_nil] at told
    by_cases fires : verdict = .fires
    · rw [if_pos fires]
      rw [fires] at decided
      apply (outlook.fires rule between timely).imp
      rintro _ _ ⟨after, rfl, same, fired⟩
      rw [← same] at decided
      refine ⟨after, rfl, decided, ?_⟩
      rw [Handling.fired_add, List.map_append]
      exact outlook.trans told fired
    · rw [if_neg fires]
      refine ⟨between, rfl, decided, ?_⟩
      rw [Handling.fired_add, if_neg fires, List.append_nil]
      exact told
  rw [handle_eq timely]
  have settings : ((outlook.engine seen).observe event now).2.settings =
      (outlook.engine seen).settings := by rw [Engine.observe_eq]
  apply (outlook.asks _ _ seen settings).bind
  rintro _ _ ⟨between, rfl, rfl, left, silent⟩
  have begun : invariant { recorded := ((outlook.engine seen).observe event now).1 }
      ((outlook.engine seen).observe event now).2.rules (some between) := by
    refine ⟨between, rfl, ?_, silent⟩
    rw [left, Engine.handle_eq_decide, Engine.rules_observe]
  apply (ensures_decide kept begun).imp
  rintro handling _ ⟨after, rfl, decided, told⟩
  rw [← decided]
  exact ⟨after, rfl, rfl, rfl, told⟩

theorem Outlook.ensures_refresh (seen : W) :
    (refresh index).run.Ensures outlook.view
      (fun outcome next => ∃ after, next = some after ∧
        Serves outlook seen .refresh (.refreshed outcome) after) (some seen) := by
  apply ensures_listEnabledRules.run_bind
  · rintro rules _ ⟨rfl, listed⟩
    obtain ⟨source, shows, rfl⟩ := listed rules rfl
    apply (outlook.asks () (fun engine => ((), engine.refresh source.store.enabledRules)) seen
      rfl).lift_bind
    rintro _ _ ⟨after, rfl, -, left, silent⟩
    exact ⟨after, rfl, .refresh shows left silent⟩
  · rintro fault _ ⟨rfl, -⟩
    exact ⟨seen, rfl, .refuse⟩

theorem Outlook.ensures_testFire (rule : Rule) (seen : W) :
    (testFire index rule).Ensures outlook.view
      (fun _ next => ∃ after, next = some after ∧
        Serves outlook seen (.testFire rule) .testFired after) (some seen) := by
  have looks : now.Spares outlook.view :=
    ⟨fun installation => outlook.ignoresClock installation _, fun _ => trivial⟩
  apply looks.ensures.bind
  rintro now _ rfl
  apply (outlook.asks () (fun engine => ((), engine.noteFire rule.id now)) seen rfl).bind
  rintro _ _ ⟨between, rfl, -, noted, silent⟩
  apply (outlook.fires rule between rfl).imp
  rintro _ _ ⟨after, rfl, same, fired⟩
  exact ⟨after, rfl, .testFire (same.trans noted) (outlook.trans silent fired)⟩

theorem Outlook.ensures_serve {request : Request} (timely : request.Timely) (seen : W) :
    (serve index request).Ensures outlook.view
      (fun response next => ∃ after, next = some after ∧
        Serves outlook seen request response after) (some seen) := by
  cases request with
  | handle event =>
      obtain ⟨now, timely⟩ := Option.isSome_iff_exists.mp timely
      apply (outlook.ensures_handle timely seen).bind
      rintro _ _ ⟨after, rfl, rfl, left, told⟩
      exact ⟨after, rfl, .handle timely left told⟩
  | refresh =>
      apply (outlook.ensures_refresh seen).bind
      rintro _ _ ⟨after, rfl, served⟩
      exact ⟨after, rfl, served⟩
  | testFire rule =>
      apply (outlook.ensures_testFire rule seen).bind
      rintro _ _ ⟨after, rfl, served⟩
      exact ⟨after, rfl, served⟩
  | cooldownRemaining id now =>
      apply (outlook.asks _ _ seen rfl).bind
      rintro _ _ ⟨after, rfl, rfl, left, silent⟩
      exact ⟨after, rfl, .cooldownRemaining left silent⟩

theorem Outlook.chain {requests : List Request} (timely : ∀ request ∈ requests, request.Timely)
    {first last : Installation} {responses : List Response} {before : W}
    (present : outlook.view first = some before)
    (ends : Ends outlook.view (requests.mapM (serve index)) first responses last) :
    ∃ after, outlook.view last = some after ∧
      Chain (Serves outlook) before requests responses after := by
  have each : ∀ request ∈ requests, ∀ seen, (serve index request).Ensures outlook.view
      (fun response next => ∃ after, next = some after ∧
        Serves outlook seen request response after) (some seen) :=
    fun request mem seen => outlook.ensures_serve (timely request mem) seen
  exact ends.chain each present

end

/-! ## The engine alone -/

def engineAt (index : Nat) (installation : Installation) : Option Engine :=
  installation.stations[index]?.map Station.engine

theorem spares_fire_engineAt (index other : Nat) (rule : Rule) (event : Event) (now : Instant) :
    (fire index rule event now).Spares (engineAt other) :=
  ((quiet_fire index rule event now).map fun stations =>
    stations[other]?.map Station.engine).spares

def engineOutlook (index : Nat) : Outlook index Engine where
  view := engineAt index
  engine := id
  tells _ _ _ := True
  ignoresClock _ _ := rfl
  trans _ _ := trivial
  asks absent change seen _ := by
    have shown : engineAt index = fun installation =>
        installation.stations[index]?.bind fun station => some station.engine := by
      funext installation
      exact Option.map_eq_bind ..
    rw [shown]
    apply ensures_askEngine (fun _ station => some station.engine) fun _ _ => rfl
    rintro _ station ⟨⟩
    exact ⟨_, rfl, rfl, rfl, trivial⟩
  fires rule event now seen _ := by
    apply (spares_fire_engineAt ..).ensures.imp
    rintro _ _ rfl
    exact ⟨seen, rfl, rfl, trivial⟩

/-! ## Events in a row -/

inductive Answers : Engine → Event → Handling → Engine → Prop where
  | handle {engine : Engine} {event : Event} {now : Instant} (timely : event.timestamp = some now) :
      Answers engine event (engine.handle event now).1 (engine.handle event now).2

theorem chain_of_ends {events : List Event} (timely : ∀ event ∈ events, event.timestamp.isSome)
    {engine : Engine} {first last : Installation} {handlings : List Handling}
    (present : engineAt index first = some engine)
    (ends : Ends (engineAt index) (events.mapM (handle index)) first handlings last) :
    ∃ final, engineAt index last = some final ∧ Chain Answers engine events handlings final := by
  have each : ∀ event ∈ events, ∀ engine, (handle index event).Ensures (engineAt index)
      (fun handling next => ∃ after, next = some after ∧ Answers engine event handling after)
      (some engine) := by
    intro event mem engine
    obtain ⟨now, hnow⟩ := Option.isSome_iff_exists.mp (timely event mem)
    apply ((engineOutlook index).ensures_handle hnow engine).imp
    rintro _ _ ⟨after, rfl, rfl, rfl, -⟩
    exact ⟨_, rfl, .handle hnow⟩
  exact ends.chain each present

/-! ## Two rules on one metric -/

def hot : Rule :=
  { id := 1, name := "hot", objectType := "host", trigger := .metric "cpu", cooldownSeconds := 60
    conditions := [⟨"value", .greaterThan, "90", 30⟩] }

def warm : Rule :=
  { id := 2, name := "warm", objectType := "host", trigger := .metric "cpu"
    conditions := [⟨"value", .greaterThan, "50", 0⟩] }

def load (value seconds : Int) : Event :=
  { Event.reading "host" "cpu" (.ofInt value) with
    timestamp := some (.clamp (seconds * 1000000000)) }

def restart (seconds : Int) : Event :=
  { Event.occurrence "host" "up" with timestamp := some (.clamp (seconds * 1000000000)) }

def withEngine (rules : List Rule) (conduct : StoreConduct) (sink : Option Sink) : Installation :=
  { Installation.start (.clamp 0) with
    conduct
    stations := [{ engine := (Engine.start {}).refresh rules, sink, recorded := true }] }

end Installation

end Alerting
