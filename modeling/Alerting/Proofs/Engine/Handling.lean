import Alerting.Installation.Handling
import Alerting.Proofs.Activity
import Alerting.Proofs.Engine.Cooldown

/-!
# Handling as it runs

The activities that handle events, at work at the same time in any order, do what calls on a docket
do: each of their steps on the engine is a run of one call, and what they do besides spares the
engine.
-/

namespace Alerting

namespace Installation

/-! ## Firing is quiet about the engines -/

section

variable {V : Type} {view : Installation → V}

def IgnoresNotices (view : Installation → V) : Prop :=
  ∀ (installation : Installation) (notices : List (String × String)),
    view { installation with journal := { installation.journal with notices } } =
      view installation

theorem quiet_notify (ignores : IgnoresNotices view) (notifier : Notifier)
    (title message : String) (limit : Nat) : (notify notifier title message limit).Quiet view := by
  refine Activity.quiet_get.bind fun installation => ?_
  have answer : ((notifier.reply installation.journal.notices).answerWithin limit :
      Work Answer).Quiet view := Reply.quiet_answerWithin ..
  by_cases recorded : notifier.recorded
  · simp only [recorded, if_true]
    exact (Activity.quiet_modify fun state => ignores state _).bind fun _ => answer
  · simp only [recorded]
    exact answer

theorem quiet_carryOut (ignores : IgnoresNotices view) (notifier : Option Notifier) (limit : Nat)
    (rule : Rule) (event : Event) (action : Action) :
    (carryOut notifier limit rule event action).Quiet view := by
  unfold carryOut
  split
  · split
    · refine (quiet_notify ignores ..).bind fun answer => ?_
      cases answer <;> exact Activity.quiet_pure _
    · exact Activity.quiet_pure _
  · exact Activity.quiet_pure _

theorem quiet_dispatch (ignores : IgnoresNotices view) (notifier : Option Notifier) (limit : Nat)
    (rule : Rule) (event : Event) : (dispatch notifier limit rule event).Quiet view := by
  have fold (actions : List Action) (report : DispatchReport) :
      (actions.foldlM (fun report action => do
        return report.add (← carryOut notifier limit rule event action)) report :
          Work DispatchReport).Quiet view := by
    induction actions generalizing report with
    | nil => exact Activity.quiet_pure _
    | cons action actions ih =>
        rw [List.foldlM_cons]
        refine Activity.Quiet.bind ?_ ih
        exact (quiet_carryOut ignores ..).bind fun _ => Activity.quiet_pure _
  exact fold rule.actions {}

theorem quiet_handOver (ignores : IgnoresNotices view) (sink : Sink) (rule : Rule)
    (event : Event) : (handOver sink rule event).Quiet view := by
  cases sink with
  | observer => exact Activity.quiet_pure _
  | dispatcher notifier limit => exact quiet_dispatch ignores ..

end

theorem ignoresNotices_stations : IgnoresNotices Installation.stations := fun _ _ => rfl

theorem quiet_saveFire (record : Record) (limit : Nat) :
    (saveFire record limit).Quiet Installation.stations := by
  refine Activity.quiet_get.bind fun installation => ?_
  refine (Reply.quiet_answerWithin ..).bind fun answer => ?_
  cases answer with
  | granted => exact Activity.quiet_modify fun _ => rfl
  | refused reason => exact Activity.quiet_pure _
  | late => exact Activity.quiet_pure _

theorem quiet_fire (index : Nat) (rule : Rule) (event : Event) (now : Instant) :
    (fire index rule event now).Quiet Installation.stations := by
  refine Activity.quiet_get.bind fun installation => ?_
  cases installation.stations[index]? with
  | none => exact Activity.quiet_pure _
  | some station =>
      refine (quiet_saveFire ..).bind fun _ => ?_
      cases station.sink with
      | none => exact Activity.quiet_pure _
      | some sink =>
          refine (quiet_handOver ignoresNotices_stations ..).bind fun report => ?_
          by_cases recorded : station.recorded
          · simp only [recorded, if_true]
            exact Activity.quiet_modify fun _ => rfl
          · simp only [recorded]
            exact Activity.quiet_pure _

/-! ## Handling comes to an end -/

def nothing (_ : Installation) : Unit := ()

theorem quiet_decide (index : Nat) (event : Event) (now : Instant) (handling : Handling)
    (rules : List Rule) : (decide index event now handling rules).Quiet nothing := by
  induction rules generalizing handling with
  | nil => exact Activity.quiet_pure _
  | cons rule rules ih =>
      refine (Activity.quiet_step fun _ => rfl).bind fun verdict => ?_
      by_cases fires : verdict = .fires
      · simp only [fires, if_true]
        exact ((quiet_fire ..).map fun _ => ()).bind fun _ => ih _
      · simp only [fires, if_false]
        exact ih _

theorem quiet_handle (index : Nat) (event : Event) : (handle index event).Quiet nothing := by
  unfold handle
  cases event.timestamp with
  | some now => exact (Activity.quiet_step fun _ => rfl).bind fun _ => quiet_decide ..
  | none =>
      refine (Activity.quiet_step fun _ => rfl).bind fun now => ?_
      exact (Activity.quiet_step fun _ => rfl).bind fun _ => quiet_decide ..

theorem exists_run_handles (index : Nat) (events : List Event) (installation : Installation) :
    ∃ handlings final,
      (events.mapM (handle index)).run installation = some (handlings, final) :=
  (Activity.quiet_mapM (quiet_handle index) events).exists_run installation

/-! ## A call as an activity -/

inductive Pursues (index : Nat) (event : Event) (now : Instant) : Stage → Work Handling → Prop where
  | done (handling : Handling) :
      Pursues index event now (.deciding handling []) (.done handling)
  | aside {stage : Stage} {update : Installation → Installation}
      {next : Installation → Work Handling}
      (spares : ∀ installation, (update installation).stations = installation.stations)
      (rest : ∀ installation, Pursues index event now stage (next installation)) :
      Pursues index event now stage (.act update next)
  | wait {stage : Stage} {ready : Installation → Option Nat} {next : Work Handling}
      (rest : Pursues index event now stage next) :
      Pursues index event now stage (.wait ready next)
  | observe {update : Installation → Installation} {next : Installation → Work Handling}
      (changes : ∀ installation station, installation.stations[index]? = some station →
        (update installation).stations = installation.stations.set index
          { station with engine := (station.engine.observe event now).2 })
      (rest : ∀ installation station, installation.stations[index]? = some station →
        Pursues index event now
          (.deciding { recorded := (station.engine.observe event now).1 }
            (station.engine.observe event now).2.rules) (next installation)) :
      Pursues index event now .arrived (.act update next)
  | consider {handling : Handling} {rule : Rule} {pending : List Rule}
      {update : Installation → Installation} {next : Installation → Work Handling}
      (changes : ∀ installation station, installation.stations[index]? = some station →
        (update installation).stations = installation.stations.set index
          { station with engine := (station.engine.consider rule event now).2 })
      (rest : ∀ installation station, installation.stations[index]? = some station →
        Pursues index event now
          (.deciding (handling.add rule (station.engine.consider rule event now).1) pending)
          (next installation)) :
      Pursues index event now (.deciding handling (rule :: pending)) (.act update next)

section

variable {index : Nat} {event : Event} {now : Instant}

theorem Pursues.bind {A : Type} {stage : Stage} {activity : Work A}
    {continuation : A → Work Handling} (spares : activity.Spares Installation.stations)
    (rest : ∀ result, Pursues index event now stage (continuation result)) :
    Pursues index event now stage (activity >>= continuation) := by
  induction activity with
  | done result => exact rest result
  | act update next ih => exact .aside spares.1 fun state => ih state (spares.2 state)
  | wait ready next ih => exact .wait (ih spares)

theorem Pursues.stage_of_done {stage : Stage} {handling : Handling}
    (pursues : Pursues index event now stage (.done handling)) : stage = .deciding handling [] := by
  cases pursues
  rfl

theorem pursues_decide (handling : Handling) (rules : List Rule) :
    Pursues index event now (.deciding handling rules)
      (decide index event now handling rules) := by
  induction rules generalizing handling with
  | nil => exact .done handling
  | cons rule rules ih =>
      refine .consider (fun installation station present => ?_)
        fun installation station present => ?_
      · simp [present]
      · simp only [present]
        generalize (station.engine.consider rule event now).1 = verdict
        change Pursues index event now _
          (if verdict = .fires then do
            fire index rule event now
            decide index event now (handling.add rule verdict) rules
          else decide index event now (handling.add rule verdict) rules)
        split
        · exact .bind (quiet_fire ..).spares fun _ => ih _
        · exact ih _

theorem pursues_handle (timely : event.timestamp = some now) :
    Pursues index event now .arrived (handle index event) := by
  unfold handle
  rw [timely]
  refine .observe (fun installation station present => ?_) fun installation station present => ?_
  · simp [present]
  · simp only [present]
    exact pursues_decide ..

end

/-! ## Calls at work -/

structure Pool where
  installation : Installation
  works : List (Work Handling)

namespace Pool

inductive Step (index : Nat) (admitted : List Rule → Prop) : Pool → Pool → Prop where
  | arrive (pool : Pool) {event : Event} {now : Instant} (timely : event.timestamp = some now) :
      Step index admitted pool { pool with works := pool.works ++ [handle index event] }
  | act {pool : Pool} {place : Nat} {update : Installation → Installation}
      {next : Installation → Work Handling}
      (present : pool.works[place]? = some (.act update next)) :
      Step index admitted pool
        { installation := update pool.installation
          works := pool.works.set place (next pool.installation) }
  | resume {pool : Pool} {place : Nat} {ready : Installation → Option Nat} {next : Work Handling}
      (present : pool.works[place]? = some (.wait ready next)) :
      Step index admitted pool { pool with works := pool.works.set place next }
  | refresh {pool : Pool} {installation : Installation} {station other : Station}
      {rules : List Rule} (permitted : admitted rules)
      (before : pool.installation.stations[index]? = some station)
      (after : installation.stations[index]? = some other)
      (refreshed : other.engine = station.engine.refresh rules) :
      Step index admitted pool { pool with installation }
  | tend {pool : Pool} {installation : Installation} {station other : Station}
      (before : pool.installation.stations[index]? = some station)
      (after : installation.stations[index]? = some other)
      (sameRules : other.engine.rules = station.engine.rules)
      (sameFires : other.engine.lastFires = station.engine.lastFires) :
      Step index admitted pool { pool with installation }

/-- Whether the works do what is left of the calls of a docket with the same engine. -/
structure Matches (pool : Pool) (index : Nat) (docket : Docket) : Prop where
  engine : ∃ station : Station, pool.installation.stations[index]? = some station ∧
    station.engine = docket.engine
  length : pool.works.length = docket.calls.length
  works : ∀ (place : Nat) (work : Work Handling), pool.works[place]? = some work →
    ∃ call : Call, docket.calls[place]? = some call ∧
      Pursues index call.event call.now call.stage work

variable {pool next : Pool} {index : Nat} {admitted : List Rule → Prop} {docket : Docket}

theorem Matches.arrive (same : pool.Matches index docket) {event : Event} {now : Instant}
    (timely : event.timestamp = some now) :
    Matches { pool with works := pool.works ++ [handle index event] } index
      (docket.arrive event now) := by
  refine ⟨same.engine, ?_, fun place work present => ?_⟩
  · simp [Docket.arrive, same.length]
  · simp only [Docket.arrive, List.getElem?_append] at present ⊢
    rw [← same.length]
    split at present
    · rename_i old
      rw [if_pos old]
      exact same.works place work present
    · rename_i new
      rw [if_neg new]
      have isLast := (List.getElem?_eq_some_iff.mp present).1
      have zero : place - pool.works.length = 0 := by simpa using isLast
      rw [zero] at present ⊢
      cases present
      refine ⟨_, rfl, ?_⟩
      simp only [timely, Option.getD_some]
      exact pursues_handle timely

theorem Matches.set (same : pool.Matches index docket) {place : Nat} {call : Call}
    {work : Work Handling} {installation : Installation} {station : Station} {engine : Engine}
    {claims : List Claim} (present : installation.stations[index]? = some station)
    (kept : station.engine = engine)
    (pursues : Pursues index call.event call.now call.stage work) :
    Matches { installation, works := pool.works.set place work } index
      { engine, calls := docket.calls.set place call, claims } := by
  refine ⟨⟨station, present, kept⟩, ?_, fun other left hleft => ?_⟩
  · simp [same.length]
  · rw [List.getElem?_set] at hleft ⊢
    rw [← same.length]
    split at hleft
    · rename_i here
      split at hleft
      · rename_i bound
        cases hleft
        rw [if_pos here, if_pos bound]
        exact ⟨call, rfl, pursues⟩
      · cases hleft
    · rename_i elsewhere
      rw [if_neg elsewhere]
      exact same.works other left hleft

theorem Matches.reaches (same : pool.Matches index docket) {place : Nat} {call : Call}
    {work : Work Handling} {installation : Installation} {station : Station} {engine : Engine}
    (present : installation.stations[index]? = some station) (kept : station.engine = engine)
    (pursues : Pursues index call.event call.now call.stage work)
    (reaches : docket.Reaches admitted place call engine) :
    ∃ after, Docket.Run admitted docket after ∧
      Matches { installation, works := pool.works.set place work } index after := by
  obtain ⟨claims, run⟩ := reaches
  exact ⟨_, run, same.set present kept pursues⟩

theorem Matches.act (same : pool.Matches index docket) {place : Nat}
    {update : Installation → Installation} {next : Installation → Work Handling}
    (present : pool.works[place]? = some (.act update next)) :
    ∃ after, Docket.Run admitted docket after ∧
      Matches
        { installation := update pool.installation
          works := pool.works.set place (next pool.installation) } index after := by
  obtain ⟨station, hstation, engine⟩ := same.engine
  have bound := (List.getElem?_eq_some_iff.mp hstation).1
  obtain ⟨⟨event, now, stage⟩, hcall, pursues⟩ := same.works place _ present
  cases pursues with
  | aside spares rest =>
      have kept : (update pool.installation).stations[index]? = some station := by
        rw [spares, hstation]
      exact same.reaches kept engine (rest _) (.refl hcall rfl)
  | observe changes rest =>
      have changed := changes _ _ hstation
      have rest := rest _ _ hstation
      rw [engine] at changed rest
      have updated : (update pool.installation).stations[index]? =
          some { station with engine := (docket.engine.observe event now).2 } := by
        rw [changed, List.getElem?_set_self bound]
      exact same.reaches updated rfl rest (Docket.reaches_of_observe hcall rfl)
  | @consider handling rule pending _ _ changes rest =>
      have changed := changes _ _ hstation
      have rest := rest _ _ hstation
      rw [engine] at changed rest
      have updated : (update pool.installation).stations[index]? =
          some { station with engine := (docket.engine.consider rule event now).2 } := by
        rw [changed, List.getElem?_set_self bound]
      exact same.reaches updated rfl rest (Docket.reaches_of_consider hcall rfl)

theorem Matches.resume (same : pool.Matches index docket) {place : Nat}
    {ready : Installation → Option Nat} {next : Work Handling}
    (present : pool.works[place]? = some (.wait ready next)) :
    ∃ after, Docket.Run admitted docket after ∧
      Matches { pool with works := pool.works.set place next } index after := by
  obtain ⟨station, hstation, engine⟩ := same.engine
  obtain ⟨⟨event, now, stage⟩, hcall, pursues⟩ := same.works place _ present
  cases pursues with
  | wait rest => exact same.reaches hstation engine rest (.refl hcall rfl)

theorem Step.refines (step : Step index admitted pool next) (same : pool.Matches index docket) :
    ∃ after, Docket.Run admitted docket after ∧ next.Matches index after := by
  cases step with
  | arrive timely => exact ⟨_, .single (.arrive docket _ _), same.arrive timely⟩
  | act present => exact same.act present
  | resume present => exact same.resume present
  | refresh permitted before after refreshed =>
      obtain ⟨station, present, engine⟩ := same.engine
      rw [before] at present
      cases present
      rw [engine] at refreshed
      exact ⟨_, Docket.run_refresh permitted, ⟨_, after, refreshed⟩, same.length, same.works⟩
  | tend before after sameRules sameFires =>
      obtain ⟨station, present, engine⟩ := same.engine
      rw [before] at present
      cases present
      rw [engine] at sameRules sameFires
      exact ⟨_, .single (.tend docket sameRules sameFires), ⟨_, after, rfl⟩, same.length,
        same.works⟩

/-- Whatever the works do, a docket can do as well. -/
theorem Run.refines (run : Relation.ReflTransGen (Step index admitted) pool next)
    (same : pool.Matches index docket) :
    ∃ after, Docket.Run admitted docket after ∧ next.Matches index after := by
  induction run with
  | refl => exact ⟨docket, .refl, same⟩
  | tail _ step ih =>
      obtain ⟨between, first, same⟩ := ih
      obtain ⟨after, second, same⟩ := step.refines same
      exact ⟨after, first.trans second, same⟩

theorem Matches.start {installation : Installation} {station : Station}
    (present : installation.stations[index]? = some station) :
    Matches { installation, works := [] } index { engine := station.engine } :=
  ⟨⟨station, present, rfl⟩, rfl, by simp⟩

theorem Run.reports {installation : Installation} {station : Station} {id : UInt64}
    {cooldown : Int64} (present : installation.stations[index]? = some station)
    (fresh : station.engine.lastFired id = none)
    (kept : KeepsCooldown id cooldown station.engine.rules)
    (run : Relation.ReflTransGen (Step index (KeepsCooldown id cooldown))
      { installation, works := [] } next) :
    ∃ docket : Docket, next.Matches index docket ∧ docket.Cooled id cooldown ∧
      ∀ (place : Nat) (handling : Handling), next.works[place]? = some (.done handling) →
        handling.Reports (docket.claimsBy place) := by
  obtain ⟨docket, moves, same⟩ := Run.refines run (Matches.start present)
  have faithful := moves.faithful (Docket.faithful_of_no_calls _)
  refine ⟨docket, same, (moves.cooled fresh kept.2).2, fun place handling ended => ?_⟩
  obtain ⟨call, hcall, pursues⟩ := same.works place _ ended
  have reports := faithful.reports place call hcall
  rw [pursues.stage_of_done] at reports
  exact reports

end Pool

end Installation

end Alerting
