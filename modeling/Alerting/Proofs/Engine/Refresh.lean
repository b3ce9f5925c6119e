import Alerting.Proofs.Burst
import Alerting.Proofs.Engine.Timeless

/-!
# Taking over rules

An engine takes over the rules of the store all at once or not at all, and forgets the fires of the
rules that are gone. So it knows of the fires of its own rules alone; as long as the rules of the
store stay the same, taking them over once more changes nothing but the time.
-/

namespace Alerting

namespace Engine

variable {engine : Engine} {rule : Rule} {rules : List Rule} {event : Event} {now : Instant}

/-! ## Fires of rules in the snapshot -/

def OwnFires (engine : Engine) : Prop :=
  ∀ fire ∈ engine.lastFires, ∃ rule ∈ engine.rules, rule.id = fire.1

theorem ownFires_start (settings : Settings) : (start settings).OwnFires :=
  fun _ mem => absurd mem List.not_mem_nil

theorem ownFires_resetCooldowns : engine.resetCooldowns.OwnFires :=
  fun _ mem => absurd mem List.not_mem_nil

theorem ownFires_refresh (engine : Engine) (rules : List Rule) :
    (engine.refresh rules).OwnFires := by
  intro fire mem
  obtain ⟨rule, known, same⟩ := List.any_eq_true.mp (List.mem_filter.mp mem).2
  exact ⟨rule, known, beq_iff_eq.mp same⟩

theorem OwnFires.observe (own : engine.OwnFires) : (engine.observe event now).2.OwnFires := by
  intro fire mem
  rw [lastFires_observe] at mem
  rw [rules_observe]
  exact own fire mem

theorem OwnFires.noteFire (own : engine.OwnFires) (mem : rule ∈ engine.rules) :
    (engine.noteFire rule.id now).OwnFires := by
  intro fire noted
  rcases List.mem_cons.mp noted with rfl | earlier
  · exact ⟨rule, mem, rfl⟩
  · exact own fire (List.mem_filter.mp earlier).1

theorem OwnFires.consider (own : engine.OwnFires) (mem : rule ∈ engine.rules) :
    (engine.consider rule event now).2.OwnFires := by
  unfold Engine.consider claim
  split
  · split
    · exact own
    · exact own.noteFire mem
  · exact own

theorem OwnFires.decide {handling : Handling} (own : engine.OwnFires)
    (known : rules ⊆ engine.rules) : (engine.decide event now handling rules).2.OwnFires := by
  induction rules generalizing engine handling with
  | nil => exact own
  | cons rule rules ih =>
      obtain ⟨mem, known⟩ := List.cons_subset.mp known
      rw [decide_cons]
      apply ih (own.consider mem)
      rw [rules_consider]
      exact known

theorem OwnFires.handle (own : engine.OwnFires) : (engine.handle event now).2.OwnFires := by
  rw [handle_eq_decide]
  apply own.observe.decide
  rw [rules_observe]
  exact List.Subset.refl _

theorem lastFired_refresh (engine : Engine) (rules : List Rule) (id : UInt64) :
    (engine.refresh rules).lastFired id =
      if ∃ rule ∈ rules, rule.id = id then engine.lastFired id else none := by
  split
  · rename_i kept
    exact lastFired_forgetOthers kept
  · rename_i gone
    apply List.lookup_eq_none_iff.mpr
    intro fire mem
    obtain ⟨rule, known, same⟩ := ownFires_refresh engine rules fire mem
    simpa [← same] using fun other => gone ⟨rule, known, other.symm⟩

theorem OwnFires.refresh_self (own : engine.OwnFires) : engine.refresh engine.rules = engine := by
  have kept : (engine.lastFires.filter fun fire =>
      engine.rules.any fun rule => rule.id == fire.1) = engine.lastFires :=
    List.filter_eq_self.mpr fun fire mem => by simpa using own fire mem
  unfold refresh forgetOthers adopt
  rw [kept]

end Engine

namespace Installation

open Activity

variable {index : Nat} {installation : Installation} {station : Station} {engine : Engine}

/-! ## A refresh from its beginning to its end -/

theorem run_refresh (index : Nat) :
    (refresh index).run = (do
      let installation ← get
      match ← installation.conduct.listing.answer with
      | .granted => do
          let source ← get
          modifyEngine index fun engine => engine.refresh source.store.enabledRules
          return .ok source.store.enabledRules.length
      | .refused reason => return .error (.store reason)
      | .late => return .error (.store "") : Work (Except Fault Nat)) := by
  unfold refresh listEnabledRules awaitStore
  simp only [bind_assoc, run_lift_bind]
  congr 1
  funext installation
  congr 1
  funext answer
  cases answer <;> rfl

theorem timeless_refresh (index : Nat) : (refresh index).run.Timeless := by
  rw [run_refresh]
  apply timeless_get_bind fun _ _ => rfl
  intro installation
  apply (timeless_answer _).bind
  intro answer
  cases answer with
  | granted =>
      apply timeless_get_bind fun _ _ => rfl
      exact fun source => timeless_withStation.bind fun _ => timeless_pure _
  | refused reason => exact timeless_pure _
  | late => exact timeless_pure _

def takenOver (installation : Installation) (index : Nat) (station : Station) : Installation :=
  installation.place index
    { station with engine := station.engine.refresh installation.store.enabledRules }

theorem engineAt_takenOver (present : installation.stations[index]? = some station) :
    engineAt index (installation.takenOver index station) =
      some (station.engine.refresh installation.store.enabledRules) :=
  congrArg (Option.map Station.engine) (getElem?_place present _)

theorem takenOver_self (present : installation.stations[index]? = some station)
    (own : station.engine.OwnFires) (same : station.engine.rules = installation.store.enabledRules) :
    installation.takenOver index station = installation := by
  rw [takenOver, ← same, own.refresh_self]
  exact place_self present

theorem exists_run_refresh (present : installation.stations[index]? = some station) :
    ∃ time, (refresh index).run.run installation =
      match installation.conduct.listing with
      | .never => none
      | .refused reason => some (.error (.store reason), installation)
      | _ =>
          some (.ok installation.store.enabledRules.length,
            { installation.takenOver index station with time }) := by
  have taken (time : Nat) :
      (do
        modifyEngine index fun engine => engine.refresh installation.store.enabledRules
        return .ok installation.store.enabledRules.length : Work (Except Fault Nat)).run
          { installation with time } =
        some (.ok installation.store.enabledRules.length,
          { installation.takenOver index station with time }) := by
    have later : { installation with time }.stations[index]? = some station := present
    rw [run_bind, run_of_burst (burst_modifyEngine later)]
    rfl
  rw [run_refresh]
  change ∃ time, (installation.conduct.listing.answer >>= _).run installation = _
  cases installation.conduct.listing with
  | prompt => exact ⟨installation.time, taken _⟩
  | delayed millis => exact ⟨_, taken _⟩
  | never => exact ⟨0, rfl⟩
  | refused reason => exact ⟨0, rfl⟩

/-! ## One errand after another -/

inductive Errand where
  | handle (event : Event) (now : Instant)
  | refresh
  | resetCooldowns
  | edit (change : Store → Store) (conduct : StoreConduct)

inductive Errand.Result where
  | handled (handling : Handling)
  | refreshed (outcome : Except Fault Nat)
  | done
deriving DecidableEq

open Errand (Result)

def Errand.perform (index : Nat) : Errand → Work Result
  | .handle event now => do
      return .handled (← Installation.handle index { event with timestamp := some now })
  | .refresh => do return .refreshed (← (Installation.refresh index).run)
  | .resetCooldowns => do
      modifyEngine index Engine.resetCooldowns
      return .done
  | .edit change conduct => do
      .modify fun installation => { installation with store := change installation.store, conduct }
      return .done

theorem Errand.timeless_perform (index : Nat) (errand : Errand) :
    (errand.perform index).Timeless := by
  cases errand with
  | handle event now => exact (timeless_handle rfl).bind fun _ => timeless_pure _
  | refresh => exact (timeless_refresh index).bind fun _ => timeless_pure _
  | resetCooldowns => exact timeless_withStation.bind fun _ => timeless_pure _
  | edit change conduct => exact (timeless_modify fun _ _ => rfl).bind fun _ => timeless_pure _

/-- How an errand leaves an engine. -/
inductive Errand.Leaves : Engine → Errand → Result → Engine → Prop where
  | handle {engine : Engine} {event : Event} {now : Instant} :
      Leaves engine (.handle event now)
        (.handled (engine.handle { event with timestamp := some now } now).1)
        (engine.handle { event with timestamp := some now } now).2
  | refresh {engine : Engine} {rules : List Rule} :
      Leaves engine .refresh (.refreshed (.ok rules.length)) (engine.refresh rules)
  | refuse {engine : Engine} {fault : Fault} :
      Leaves engine .refresh (.refreshed (.error fault)) engine
  | resetCooldowns {engine : Engine} :
      Leaves engine .resetCooldowns .done engine.resetCooldowns
  | edit {engine : Engine} {change : Store → Store} {conduct : StoreConduct} :
      Leaves engine (.edit change conduct) .done engine

theorem Errand.ensures_perform (errand : Errand) (engine : Engine) :
    (errand.perform index).Ensures (engineAt index)
      (fun result next => ∃ after, next = some after ∧ Leaves engine errand result after)
      (some engine) := by
  cases errand with
  | handle event now =>
      apply ((engineOutlook index).ensures_handle rfl engine).bind
      rintro _ _ ⟨_, rfl, rfl, rfl, -⟩
      exact ⟨_, rfl, .handle⟩
  | refresh =>
      apply ((engineOutlook index).ensures_refresh engine).bind
      rintro _ _ ⟨after, rfl, served⟩
      cases served with
      | refresh shows left tells =>
          cases left
          exact ⟨_, rfl, .refresh⟩
      | refuse => exact ⟨_, rfl, .refuse⟩
  | resetCooldowns =>
      apply ((engineOutlook index).asks () (fun engine => ((), engine.resetCooldowns)) engine
        rfl).bind
      rintro _ _ ⟨_, rfl, -, rfl, -⟩
      exact ⟨_, rfl, .resetCooldowns⟩
  | edit change conduct =>
      apply (quiet_modify fun _ => rfl).spares.ensures.bind
      rintro _ _ rfl
      exact ⟨engine, rfl, .edit⟩

section

variable {final : Engine} {errands : List Errand} {results : List Result}
  {first last : Installation}

theorem chain_of_run (present : engineAt index first = some engine)
    (ran : (errands.mapM (Errand.perform index)).run first = some (results, last)) :
    ∃ final, engineAt index last = some final ∧
      Chain Errand.Leaves engine errands results final :=
  (Ends.of_run (fun _ _ => rfl) ran).chain
    (fun errand _ engine => errand.ensures_perform engine) present

theorem ownFires_of_chain (own : engine.OwnFires)
    (chain : Chain Errand.Leaves engine errands results final) : final.OwnFires := by
  induction chain with
  | nil engine => exact own
  | cons step rest ih =>
      apply ih
      cases step with
      | handle => exact own.handle
      | refresh => exact Engine.ownFires_refresh _ _
      | refuse => exact own
      | resetCooldowns => exact Engine.ownFires_resetCooldowns
      | edit => exact own

theorem rules_of_chain (unrefreshed : ∀ count, .refreshed (.ok count) ∉ results)
    (chain : Chain Errand.Leaves engine errands results final) : final.rules = engine.rules := by
  induction chain with
  | nil engine => rfl
  | cons step rest ih =>
      rw [ih fun count mem => unrefreshed count (List.mem_cons_of_mem _ mem)]
      cases step with
      | handle => exact Engine.rules_handle
      | refresh => exact absurd List.mem_cons_self (unrefreshed _)
      | refuse => rfl
      | resetCooldowns => rfl
      | edit => rfl

end

/-- Whether the store has the same rules as at the last refresh that succeeded. -/
inductive UpToDate (index : Nat) (first : Installation) : List Errand → Installation → Prop where
  | intro {earlier since : List Errand} {results others : List Result} {count : Nat}
      {there here : Installation}
      (before : (earlier.mapM (Errand.perform index)).run first = some (results, there))
      (after : ((.refresh :: since).mapM (Errand.perform index)).run there =
        some (.refreshed (.ok count) :: others, here))
      (unrefreshed : ∀ count, .refreshed (.ok count) ∉ others)
      (same : here.store.rules = there.store.rules) :
      UpToDate index first (earlier ++ .refresh :: since) here

theorem exists_station (present : engineAt index installation = some engine) :
    ∃ station, installation.stations[index]? = some station ∧ station.engine = engine :=
  Option.map_eq_some_iff.mp present

theorem run_perform_refresh :
    (Errand.refresh.perform index).run installation =
      ((refresh index).run.run installation).map fun ran => (.refreshed ran.1, ran.2) := by
  rw [Option.map_eq_bind]
  exact run_bind ..

theorem engineAt_of_refreshed {next : Installation} {count : Nat}
    (present : engineAt index installation = some engine)
    (ran : (Errand.refresh.perform index).run installation =
      some (.refreshed (.ok count), next)) :
    engineAt index next = some (engine.refresh installation.store.enabledRules) := by
  obtain ⟨station, standing, rfl⟩ := exists_station present
  obtain ⟨time, refreshed⟩ := exists_run_refresh standing
  rw [run_perform_refresh, refreshed] at ran
  revert ran
  cases installation.conduct.listing with
  | prompt =>
      rintro ⟨⟩
      exact engineAt_takenOver standing
  | delayed millis =>
      rintro ⟨⟩
      exact engineAt_takenOver standing
  | never => nofun
  | refused reason => nofun

theorem UpToDate.exists_engine {first here : Installation} {errands : List Errand}
    (upToDate : UpToDate index first errands here) (present : engineAt index first = some engine) :
    ∃ current, engineAt index here = some current ∧ current.rules = here.store.enabledRules := by
  obtain @⟨_, _, _, _, _, there, _, before, after, unrefreshed, same⟩ := upToDate
  obtain ⟨engine, present, -⟩ := chain_of_run present before
  -- The first errand after that sets the snapshot, and none of the others does.
  rw [run_mapM_cons] at after
  obtain ⟨⟨_, next⟩, refreshed, after⟩ := Option.bind_eq_some_iff.mp after
  obtain ⟨_, rest, ends⟩ := Option.map_eq_some_iff.mp after
  cases ends
  obtain ⟨current, present, chain⟩ := chain_of_run (engineAt_of_refreshed present refreshed) rest
  refine ⟨current, present, ?_⟩
  rw [rules_of_chain unrefreshed chain]
  exact (congrArg (List.filter Rule.enabled) same).symm

theorem exists_run_idle {here : Installation} (present : engineAt index here = some engine)
    (own : engine.OwnFires)
    (idle : (∃ reason, here.conduct.listing = .refused reason) ∨
      engine.rules = here.store.enabledRules ∧ here.conduct.listing ≠ .never) :
    ∃ result time, (Errand.refresh.perform index).run here = some (result, { here with time }) := by
  obtain ⟨station, standing, rfl⟩ := exists_station present
  obtain ⟨time, ran⟩ := exists_run_refresh standing
  rw [run_perform_refresh, ran]
  rcases idle with ⟨reason, refused⟩ | ⟨same, answers⟩
  · rw [refused]
    exact ⟨_, here.time, rfl⟩
  · rw [takenOver_self standing own same]
    cases listing : here.conduct.listing with
    | prompt => exact ⟨_, time, rfl⟩
    | delayed millis => exact ⟨_, time, rfl⟩
    | never => exact absurd listing answers
    | refused reason => exact ⟨_, here.time, rfl⟩

/-- Without the store the snapshot, the fires and the readings stay as they are; otherwise the
enabled rules are the snapshot, and the fires of others are forgotten. So the fires that an engine
knows of are those of its own rules, and a refresh in between that has nothing new to take over
leaves no trace in what comes after it. -/
theorem refresh_transparent (index : Nat) :
    (∀ (installation : Installation) (station : Station),
      installation.stations[index]? = some station →
      match installation.conduct.listing with
      | .never => (refresh index).run.run installation = none
      | .refused reason =>
          (refresh index).run.run installation = some (.error (.store reason), installation)
      | _ => ∃ engine time,
          (refresh index).run.run installation =
            some (.ok engine.rules.length,
              { installation.place index { station with engine } with time }) ∧
          engine =
            { station.engine with
              rules := installation.store.enabledRules, lastFires := engine.lastFires } ∧
          ∀ id, engine.lastFired id =
            if ∃ rule ∈ engine.rules, rule.id = id then station.engine.lastFired id else none) ∧
    ∀ (settings : Settings) (before : List Errand) (results : List Result)
      (first here : Installation),
      engineAt index first = some (Engine.start settings) →
      (before.mapM (Errand.perform index)).run first = some (results, here) →
      (∃ engine, engineAt index here = some engine ∧ engine.OwnFires) ∧
      ((∃ reason, here.conduct.listing = .refused reason) ∨
          UpToDate index first before here ∧ here.conduct.listing ≠ .never →
        ∃ result, ∀ later,
          let rest := (later.mapM (Errand.perform index)).run here
          ((before ++ later).mapM (Errand.perform index)).run first =
            rest.map (fun ran => (results ++ ran.1, ran.2)) ∧
          ∃ time, ((before ++ .refresh :: later).mapM (Errand.perform index)).run first =
            rest.map fun ran => (results ++ result :: ran.1, { ran.2 with time })) := by
  constructor
  · intro installation station standing
    obtain ⟨time, ran⟩ := exists_run_refresh standing
    have taken := Engine.lastFired_refresh station.engine installation.store.enabledRules
    revert ran
    cases installation.conduct.listing with
    | prompt => exact fun ran => ⟨_, time, ran, rfl, taken⟩
    | delayed millis => exact fun ran => ⟨_, time, ran, rfl, taken⟩
    | never => exact id
    | refused reason => exact id
  · intro settings before results first here fresh ran
    obtain ⟨engine, present, chain⟩ := chain_of_run fresh ran
    have own : engine.OwnFires := ownFires_of_chain (Engine.ownFires_start settings) chain
    refine ⟨⟨engine, present, own⟩, fun idle => ?_⟩
    have idle : (∃ reason, here.conduct.listing = .refused reason) ∨
        engine.rules = here.store.enabledRules ∧ here.conduct.listing ≠ .never := by
      apply idle.imp_right
      rintro ⟨upToDate, answers⟩
      obtain ⟨current, same, rules⟩ := upToDate.exists_engine fresh
      cases present.symm.trans same
      exact ⟨rules, answers⟩
    obtain ⟨result, time, refreshed⟩ := exists_run_idle present own idle
    refine ⟨result, fun later => ⟨?_, ?_⟩⟩
    · rw [run_mapM_append, ran, Option.bind_some]
    -- The later errands begin in the same installation, only at another time.
    · obtain ⟨last, same⟩ := timeless_mapM (Errand.timeless_perform index) later here time
      refine ⟨last, ?_⟩
      rw [run_mapM_append, ran, Option.bind_some, run_mapM_cons, refreshed, Option.bind_some, same,
        Option.map_map, Option.map_map]
      rfl

def doorman : Rule :=
  { id := 1, name := "doorman", objectType := "host", trigger := .event "up"
    cooldownSeconds := 60 }

def guarded : Installation :=
  { Installation.start (.clamp 0) with
    store := { entries := [(1, doorman)], lastRuleId := 1 }
    stations := [{ engine := Engine.start {}, sink := some .observer, recorded := true }] }

def rounds : List Errand :=
  [.refresh, .handle (.occurrence "host" "up") (.clamp 0), .edit id { listing := .refused "busy" },
    .refresh, .edit id { listing := .delayed 20 }]

def roundResults : List Result :=
  [.refreshed (.ok 1), .handled { recorded := false, evaluated := 1, matched := 1, fired := [1] },
    .done, .refreshed (.error (.store "busy")), .done]

/-- A rule that keeps quiet goes on doing so, whether its engine takes over the rules once more or
not. -/
theorem refresh_transparent_of_rounds :
    let next := Errand.handle (.occurrence "host" "up") (.clamp 59000000000)
    let quiet := Result.handled
      { recorded := false, evaluated := 1, matched := 1, suppressed := [1] }
    ∃ result last time,
      ((rounds ++ [next]).mapM (Errand.perform 0)).run guarded =
        some (roundResults ++ [quiet], last) ∧
      ((rounds ++ [.refresh, next]).mapM (Errand.perform 0)).run guarded =
        some (roundResults ++ [result, quiet], { last with time }) := by
  intro next quiet
  have begins : ((rounds.mapM (Errand.perform 0)).run guarded).map
      (fun ran => (ran.1, ran.2.store.rules, ran.2.conduct.listing)) =
        some (roundResults, [doorman], .delayed 20) := by decide +kernel
  have goesOn : (((rounds ++ [next]).mapM (Errand.perform 0)).run guarded).map Prod.fst =
      some (roundResults ++ [quiet]) := by decide +kernel
  obtain ⟨⟨_, here⟩, ran, begins⟩ := Option.map_eq_some_iff.mp begins
  obtain ⟨rfl, rules, listing⟩ : _ ∧ _ ∧ _ := by simpa using begins
  have upToDate : UpToDate 0 guarded ([] ++ rounds) here :=
    .intro rfl ran (by simp) rules
  have transparent := (refresh_transparent 0).2 {} rounds roundResults guarded here rfl ran
  obtain ⟨result, spare⟩ := transparent.2 (.inr ⟨upToDate, by simp [listing]⟩)
  obtain ⟨plain, time, extra⟩ := spare [next]
  rw [plain, Option.map_map] at goesOn
  obtain ⟨⟨answers, last⟩, rest, ends⟩ := Option.map_eq_some_iff.mp goesOn
  obtain rfl : answers = [quiet] := List.append_cancel_left ends
  refine ⟨result, last, time, ?_, ?_⟩
  · rw [plain, rest]
    rfl
  · rw [extra, rest]
    rfl

end Installation

end Alerting
