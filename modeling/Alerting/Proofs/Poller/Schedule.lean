import Alerting.Proofs.Poller.Punctuality

/-!
# The polls of a run

In every run a poller makes a poll at each of its ticks before the last word, and no others. It can
always go on to its next poll, or to its end once it is to end, and no time passes without that. If
the clock cannot count up to its first tick, it makes no polls and can only end.
-/

namespace Alerting

open Installation

namespace Polling

section

variable {index start interval : Nat} {plan poller changed : Poller} {log more : List Happening}
  {happening : Happening} {polling next : Workplace} {before after : Installation}

/-! ## What the poller can always do -/

/-- By looking after its rounds the poller can come to sleep at once with no call to go on. -/
def Settles (index start : Nat) (plan : Poller) (log : List Happening) (polling : Workplace) :
    Prop :=
  ∃ more next poller, Run index polling more next ∧
    (∀ happening ∈ more, happening.deed = .attended) ∧
    next.installation.time = polling.installation.time ∧
    Sound index start plan (log ++ more) next poller ∧
    Asleep index start plan.interval (log ++ more) next poller ∧ ¬poller.isUrged

theorem Settles.head (step : Step index polling ⟨.attended, before, after⟩ next)
    (same : next.installation.time = polling.installation.time)
    (settles : Settles index start plan (log ++ [⟨.attended, before, after⟩]) next) :
    Settles index start plan log polling := by
  obtain ⟨more, last, poller, run, attended, time, rest⟩ := settles
  refine ⟨_, last, poller, run.head step, List.forall_mem_cons.mpr ⟨rfl, attended⟩,
    time.trans same, ?_⟩
  rwa [List.append_cons]

theorem step_wake {due : Nat} (there : polling.gone = false)
    (rest : polling.rest = some (PollerTask.sleep index due))
    (present : polling.installation.pollers[index]? = some poller)
    (come : poller.hasWord ∨ due ≤ polling.installation.time) {left : Work Bool}
    (woken : (PollerTask.wake index due).burst polling.installation = (left, after)) :
    Step index polling
      ⟨if poller.hasWord then .attended else .polled, polling.installation, after⟩
      (polling.conclude after left) := by
  rw [← deedOf_of_rest rest present]
  have sleeping : polling.current (.poller index) = PollerTask.sleep index due :=
    Workplace.current_of_some rest
  refine .turn ⟨⟨poller_mem_tasks present, there⟩, ?_, sleeping ▸ woken⟩
  rw [sleeping, World.isDue, PollerTask.readyAt_sleep present, Option.any_some, decide_eq_true_iff]
  split
  · exact Nat.zero_le _
  · rename_i silent
    exact come.resolve_left silent

theorem step_round (there : polling.gone = false) (unbegun : polling.rest = none)
    (present : polling.installation.pollers[index]? = some poller) {left : Work Bool}
    (begun : (PollerTask.round index).burst polling.installation = (left, after)) :
    Step index polling ⟨.attended, polling.installation, after⟩ (polling.conclude after left) := by
  have round : polling.current (.poller index) = PollerTask.round index :=
    Workplace.current_of_none unbegun
  rw [← deedOf_of_rest_eq_none unbegun]
  refine .turn ⟨⟨poller_mem_tasks present, there⟩, ?_, ?_⟩
  · rw [round]
    rfl
  · rw [round, PollerTask.past_round]
    exact begun

theorem Sound.settles_of_asleep (sound : Sound index start plan log polling poller)
    (asleep : Asleep index start plan.interval log polling poller) (calm : ¬poller.isUrged) :
    Settles index start plan log polling := by
  refine ⟨[], polling, poller, .start, by simp, rfl, ?_⟩
  rw [List.append_nil]
  exact ⟨sound, asleep, calm⟩

theorem Sound.settles_of_beginning (sound : Sound index start plan log polling poller)
    (beginning : Beginning start plan.interval log polling poller) (calm : ¬poller.isUrged) :
    Settles index start plan log polling := by
  obtain ⟨begun, still, asleep⟩ := sound.round beginning
  exact (still.settles_of_asleep asleep calm).head
    (step_round beginning.there beginning.rest sound.present begun) rfl

theorem Sound.settles_of_urged (sound : Sound index start plan log polling poller)
    (asleep : Asleep index start plan.interval log polling poller) (urged : poller.isUrged) :
    Settles index start plan log polling := by
  have heard : poller.hasWord := Poller.hasWord_iff.mpr (.inl urged)
  have step := step_wake asleep.there asleep.rest sound.present (.inl heard)
    (PollerTask.burst_wake_of_urged sound.present urged _)
  rw [if_pos heard] at step
  obtain ⟨still, beginning⟩ := sound.urged asleep urged
  exact (still.settles_of_beginning beginning nofun).head step rfl

theorem Sound.settles (sound : Sound index start plan log polling poller)
    (there : polling.gone = false) : Settles index start plan log polling := by
  cases sound.stage with
  | beginning beginning =>
      by_cases urged : poller.isUrged
      · obtain ⟨begun, still, asleep⟩ := sound.round beginning
        exact (still.settles_of_urged asleep urged).head
          (step_round beginning.there beginning.rest sound.present begun) rfl
      · exact sound.settles_of_beginning beginning urged
  | asleep asleep =>
      by_cases urged : poller.isUrged
      · exact sound.settles_of_urged asleep urged
      · exact sound.settles_of_asleep asleep urged
  | finished gone => exact nomatch gone.symm.trans there

theorem still_of_attended (log : List Happening)
    (attended : ∀ happening ∈ more, happening.deed = .attended) :
    (∀ happening ∈ more, ¬happening.deed.isWord) ∧ pollTimes more = [] ∧
      pollTimes (log ++ more) = pollTimes log ∧ endOf (log ++ more) = endOf log := by
  have silent : ∀ happening ∈ more, ¬happening.deed.isWord := by
    intro happening mem
    rw [attended happening mem]
    nofun
  have none : pollTimes more = [] := pollTimes_eq_nil fun happening mem => by
    rw [attended happening mem]
    nofun
  exact ⟨silent, none, by rw [pollTimes_append, none, List.append_nil], endOf_append log silent⟩

theorem Sound.exists_sleep (sound : Sound index start plan log polling poller)
    (there : polling.gone = false) (ongoing : endOf log = none)
    {time : Nat} (later : polling.installation.time ≤ time)
    (early : time ≤ PollTimes.time start plan.interval (pollTimes log).length) :
    ∃ more next poller, Run index polling more next ∧
      (∀ happening ∈ more, ¬happening.deed.isWord) ∧ pollTimes more = [] ∧
      next.installation.time = time ∧ next.gone = false ∧
      next.rest = some
        (PollerTask.sleep index (PollTimes.time start plan.interval (pollTimes log).length)) ∧
      next.installation.pollers[index]? = some poller ∧ ¬poller.hasWord := by
  obtain ⟨more, last, calm, run, attended, same, still, asleep, unurged⟩ :=
    sound.settles there
  obtain ⟨quiet, unpolled, times, ends⟩ := still_of_attended log attended
  have undismissed : ¬calm.isDismissed := by
    rw [asleep.onTime.dismissed, ends, ongoing]
    nofun
  have silent : ¬calm.hasWord := fun heard =>
    (Poller.hasWord_iff.mp heard).elim unurged undismissed
  have rest := asleep.rest
  rw [times] at rest
  have allowed : last.MaySleep (.poller index) time := by
    refine ⟨same ▸ later, fun _ => ⟨_, rest, fun due tick => ?_⟩⟩
    rw [PollerTask.readyAt_sleep still.present, if_neg silent] at tick
    exact Option.some.inj tick ▸ early
  refine ⟨_, _, calm, .step run (.sleep allowed), ?_, ?_, rfl, asleep.there, rest, still.present,
    silent⟩
  · exact List.forall_mem_append.mpr ⟨quiet, by simp [Deed.isWord]⟩
  · rw [pollTimes_append, unpolled]
    rfl

theorem Sound.exists_poll (sound : Sound index start plan log polling poller)
    (there : polling.gone = false) (ongoing : endOf log = none)
    (early : polling.installation.time ≤
      PollTimes.time start plan.interval (pollTimes log).length) :
    ∃ more next, Run index polling more next ∧ (∀ happening ∈ more, ¬happening.deed.isWord) ∧
      pollTimes more = [PollTimes.time start plan.interval (pollTimes log).length] ∧
      next.installation.time = PollTimes.time start plan.interval (pollTimes log).length := by
  obtain ⟨more, last, calm, run, quiet, unpolled, time, still, rest, present, silent⟩ :=
    sound.exists_sleep there ongoing early (Nat.le_refl _)
  have woken := PollerTask.burst_wake present silent (PollerTask.nextPoll?_of_eq time)
  have polled := step_wake still rest present (.inr (Nat.le_of_eq time.symm)) woken
  rw [if_neg silent] at polled
  refine ⟨_, _, .step run polled, ?_, ?_, (time_reported ..).trans time⟩
  · exact List.forall_mem_append.mpr ⟨quiet, by simp [Deed.isWord]⟩
  · rw [pollTimes_concat rfl, unpolled, List.nil_append, time]

def CanEnd (index : Nat) (polling : Workplace) : Prop :=
  ∃ more next, Run index polling more next ∧ (∀ happening ∈ more, happening.deed = .attended) ∧
    next.gone = true ∧ next.installation.pollers[index]?.all Poller.finished = true

theorem Sound.canEnd (sound : Sound index start plan log polling poller)
    (there : polling.gone = false) (ended : (endOf log).isSome) : CanEnd index polling := by
  obtain ⟨more, last, calm, run, attended, -, still, asleep, unurged⟩ := sound.settles there
  have dismissed : calm.isDismissed := by
    rwa [asleep.onTime.dismissed, (still_of_attended log attended).2.2.2]
  have heard := Poller.hasWord_of_isDismissed dismissed
  have woken := step_wake asleep.there asleep.rest still.present (.inl heard)
    (PollerTask.burst_wake_of_dismissed still.present dismissed unurged _)
  rw [if_pos heard] at woken
  refine ⟨_, _, .step run woken, ?_, rfl, ?_⟩
  · exact List.forall_mem_append.mpr ⟨attended, by simp⟩
  · have left := getElem?_placePoller still.present { calm with finished := true }
    exact (congrArg (Option.all Poller.finished) left).trans rfl

/-! ## A first tick out of reach -/

structure Unable (index start : Nat) (plan : Poller) (polling : Workplace) (poller : Poller) :
    Prop where
  present : polling.installation.pollers[index]? = some poller
  same : poller.plan = plan
  due : poller.due = none
  unbegun : polling.gone = false → polling.rest = none ∧ polling.installation.time = start

theorem Unable.burst_round (unable : Unable index start plan polling poller)
    (unreachable : ¬PollTimes.Reachable start plan.interval) (there : polling.gone = false) :
    (PollerTask.round index).burst polling.installation =
      (.done false, polling.installation.placePoller index { poller with finished := true }) := by
  have interval : poller.interval = plan.interval := by
    rw [← unable.same]
    rfl
  apply PollerTask.burst_round_of_none unable.present
  rw [unable.due, (unable.unbegun there).2, interval, PollTimes.firstTick?_eq_none unreachable]
  rfl

theorem Unable.step (unable : Unable index start plan polling poller)
    (unreachable : ¬PollTimes.Reachable start plan.interval)
    (step : Step index polling happening next) :
    (happening.deed ≠ .polled ∧ happening.Reports plan.handle plan.readings) ∧
      ∃ changed, Unable index start plan next changed := by
  rcases step.cases unable.present with
    heard | ⟨rest, after, ⟨there, -, turned⟩, rfl, rfl⟩ | ⟨time, allowed, rfl, rfl⟩
  · obtain ⟨unpolled, unattended, -, rfl, time, present⟩ := heard
    refine ⟨⟨unpolled, reports_of_ne unpolled unattended⟩, _, present,
      unable.same, unable.due, fun there => ?_⟩
    exact ⟨(unable.unbegun there).1, time.trans (unable.unbegun there).2⟩
  · have unbegun := (unable.unbegun there.2).1
    rw [Workplace.current_of_none unbegun] at turned
    obtain ⟨rfl, rfl⟩ := Prod.mk.inj (turned.symm.trans (unable.burst_round unreachable there.2))
    rw [deedOf_of_rest_eq_none unbegun]
    exact ⟨⟨nofun, rfl⟩, _, getElem?_placePoller unable.present _, unable.same, unable.due, nofun⟩
  · -- Time stands still until it has taken its first turn, which is its last one.
    refine ⟨⟨nofun, trivial⟩, poller, unable.present, unable.same, unable.due, fun there => ?_⟩
    exact absurd (unable.unbegun there).1
      (allowed.rest_ne_none ⟨poller_mem_tasks unable.present, there⟩)

theorem Unable.canEnd (unable : Unable index start plan polling poller)
    (unreachable : ¬PollTimes.Reachable start plan.interval) (there : polling.gone = false) :
    CanEnd index polling := by
  have ends := step_round there (unable.unbegun there).1 unable.present
    (unable.burst_round unreachable there)
  refine ⟨_, _, .step .start ends, by simp, rfl, ?_⟩
  have left := getElem?_placePoller unable.present { poller with finished := true }
  exact (congrArg (Option.all Poller.finished) left).trans rfl

/-! ## Runs -/

theorem startPoller_spec {readings : List (String × Number)} {first : Installation}
    (started : (startPoller readings interval).burst before = (.done (), first)) :
    first.time = before.time ∧ first.pollers[before.pollers.length]? =
      some { readings, handle := before.handleInUse, interval } := by
  obtain ⟨-, rfl⟩ := Prod.mk.inj started
  refine ⟨rfl, ?_⟩
  cases used : before.pollerInUse <;> simp [used]

theorem sound_of_start {readings : List (String × Number)} {first : Installation}
    (reachable : PollTimes.Reachable before.time interval)
    (started : (startPoller readings interval).burst before = (.done (), first)) :
    let plan : Poller := { readings, handle := before.handleInUse, interval }
    Sound before.pollers.length before.time plan [] { installation := first } plan := by
  intro plan
  obtain ⟨time, present⟩ := startPoller_spec started
  rw [← time] at reachable ⊢
  have onTime : OnTime first.time interval [] first.time plan := by
    refine ⟨?_, Nat.le_of_lt (PollTimes.start_lt_time reachable.1 ..), ?_, rfl, ?_⟩
    · simp [pollTimes]
    · simp [plan, Poller.hasWord]
    · simp [endOf]
  refine ⟨present, rfl, Nat.le_refl _, rfl, .beginning ⟨rfl, rfl, ?_, onTime⟩⟩
  change Activity.firstTick? interval first.time = _
  rw [reachable.firstTick?_eq]
  simp [plan, PollTimes.time, pollTimes]

theorem unable_of_start {readings : List (String × Number)} {first : Installation}
    (started : (startPoller readings interval).burst before = (.done (), first)) :
    let plan : Poller := { readings, handle := before.handleInUse, interval }
    Unable before.pollers.length before.time plan { installation := first } plan := by
  intro plan
  obtain ⟨time, present⟩ := startPoller_spec started
  exact ⟨present, rfl, rfl, fun _ => ⟨rfl, time⟩⟩

theorem Sound.exists_of_run {first : Workplace} (positive : 0 < plan.interval)
    (sound : Sound index start plan [] first poller) (run : Run index first log polling)
    (orderly : Orderly (PollTimes.time start plan.interval) log) :
    ∃ poller, Sound index start plan log polling poller := by
  refine Logged.invariant (fun log polling => Orderly (PollTimes.time start plan.interval) log →
    ∃ poller, Sound index start plan log polling poller) (fun _ => ⟨poller, sound⟩) ?_ run orderly
  intro _ _ _ _ earlier step orderly
  obtain ⟨orderly, last⟩ := orderly_concat_iff.mp orderly
  obtain ⟨poller, sound⟩ := earlier orderly
  exact (sound.carries_step positive step).2 last

theorem Sound.reports_of_run {first : Workplace} (positive : 0 < plan.interval)
    (sound : Sound index start plan [] first poller) (run : Run index first log polling)
    (orderly : Orderly (PollTimes.time start plan.interval) log) :
    ∀ happening ∈ log, happening.Reports plan.handle plan.readings := by
  intro happening mem
  obtain ⟨earlier, later, split⟩ := List.append_of_mem mem
  obtain ⟨_, _, before, step⟩ := Logged.exists_of_split run split
  obtain ⟨_, still⟩ := sound.exists_of_run positive before (split ▸ orderly).of_append
  exact (still.carries_step positive step).1

theorem Unable.of_run {first : Workplace} (unable : Unable index start plan first poller)
    (unreachable : ¬PollTimes.Reachable start plan.interval) (run : Run index first log polling) :
    (∀ happening ∈ log, happening.deed ≠ .polled ∧
      happening.Reports plan.handle plan.readings) ∧
      ∃ changed, Unable index start plan polling changed := by
  refine Logged.invariant (fun log polling => (∀ happening ∈ log, happening.deed ≠ .polled ∧
    happening.Reports plan.handle plan.readings) ∧
    ∃ changed, Unable index start plan polling changed) ⟨by simp, poller, unable⟩ ?_ run
  rintro _ _ _ _ ⟨earlier, _, still⟩ step
  obtain ⟨here, after⟩ := still.step unreachable step
  exact ⟨List.forall_mem_append.mpr ⟨earlier, List.forall_mem_singleton.mpr here⟩, after⟩

/-- What a run of a poller that was started at some time comes to. -/
structure Punctual (index start interval : Nat) (log : List Happening) (polling : Workplace) :
    Prop where
  times : pollTimes log =
    (List.range (pollTimes log).length).map (PollTimes.time start interval)
  /-- Until the poller is to end, the time is not beyond the next tick, and it can go on to the poll
  at that tick. -/
  ongoing : endOf log = none →
    let tick := PollTimes.time start interval (pollTimes log).length
    polling.gone = false ∧ polling.installation.time ≤ tick ∧
      ∃ more next, Run index polling more next ∧ (∀ happening ∈ more, ¬happening.deed.isWord) ∧
        pollTimes more = [tick] ∧ next.installation.time = tick
  /-- When the poller is to end, it makes no more polls. No time passes until it has ended, and it
  can end at once. -/
  ended : ∀ last, endOf log = some last → start ≤ last ∧
    (pollTimes log).length = PollTimes.within interval (last - start) ∧
    (polling.gone = false → polling.installation.time = last ∧ CanEnd index polling)

/-- What a run of a poller comes to if the clock cannot count up to its first tick: it makes no
polls, and no time passes until it has ended. -/
structure Futile (index start : Nat) (log : List Happening) (polling : Workplace) : Prop where
  times : pollTimes log = []
  ended : polling.gone = false → polling.installation.time = start ∧ CanEnd index polling

theorem Sound.punctual (sound : Sound index start plan log polling poller)
    (positive : 0 < plan.interval) : Punctual index start plan.interval log polling := by
  have working (there : polling.gone = false) :
      OnTime start plan.interval log polling.installation.time poller := by
    cases sound.stage with
    | beginning beginning => exact beginning.onTime
    | asleep asleep => exact asleep.onTime
    | finished gone => exact nomatch gone.symm.trans there
  refine ⟨sound.times, fun ongoing => ?_, fun last ended => ?_⟩
  · have there : polling.gone = false := by
      cases sound.stage with
      | beginning beginning => exact beginning.there
      | asleep asleep => exact asleep.there
      | finished _ _ ended =>
          obtain ⟨last, ended, -⟩ := ended
          simp [ongoing] at ended
    have early := (working there).early
    exact ⟨there, early, sound.exists_poll there ongoing early⟩
  · cases gone : polling.gone with
    | false =>
        obtain ⟨now, count⟩ := (working gone).length_eq positive sound.begun ended
        exact ⟨now ▸ sound.begun, count, fun _ =>
          ⟨now.symm, sound.canEnd gone (by rw [ended, Option.isSome_some])⟩⟩
    | true =>
        cases sound.stage with
        | beginning beginning => exact nomatch gone.symm.trans beginning.there
        | asleep asleep => exact nomatch gone.symm.trans asleep.there
        | finished _ _ told =>
            obtain ⟨other, before, later, count⟩ := told
            obtain rfl := Option.some.inj (ended.symm.trans before)
            exact ⟨later, count, nofun⟩

section

variable {readings : List (String × Number)} {first : Installation}

theorem exists_run_of_polls (reachable : PollTimes.Reachable before.time interval)
    (started : (startPoller readings interval).burst before = (.done (), first)) (count : Nat) :
    ∃ log polling, Run before.pollers.length { installation := first } log polling ∧
      (∀ happening ∈ log, ¬happening.deed.isWord) ∧
      pollTimes log = (List.range count).map (PollTimes.time before.time interval) := by
  have fresh := sound_of_start reachable started
  induction count with
  | zero => exact ⟨[], _, .start, by simp, rfl⟩
  | succ count ih =>
      obtain ⟨log, polling, run, silent, times⟩ := ih
      obtain ⟨poller, sound⟩ := fresh.exists_of_run reachable.1 run
        ((orderly_nil _).append silent)
      obtain ⟨-, -, more, next, further, quiet, tick, -⟩ :=
        (sound.punctual reachable.1).ongoing (endOf_eq_none silent)
      refine ⟨log ++ more, next, Logged.append run further, ?_, ?_⟩
      · exact List.forall_mem_append.mpr ⟨silent, quiet⟩
      · rw [pollTimes_append, tick, times, List.length_map, List.length_range, List.range_succ,
          List.map_append]
        rfl

/-- However words from outside, the turns of the poller, the passing of time and whatever others do
follow each other: if words come between ticks, the poller makes its polls at its ticks and at no
other time until it is to end, and none at all if its first tick is out of reach. A poll publishes
each reading on the bus that the handle is bound to by then. -/
theorem polls_of_run
    (started : (startPoller readings interval).burst before = (.done (), first))
    (run : Run before.pollers.length { installation := first } log polling)
    (orderly : Orderly (PollTimes.time before.time interval) log) :
    (PollTimes.Reachable before.time interval →
        Punctual before.pollers.length before.time interval log polling) ∧
      (¬PollTimes.Reachable before.time interval →
        Futile before.pollers.length before.time log polling) ∧
      (0 < interval → interval ≤ Activity.longestPause →
        (∀ count, PollTimes.time before.time interval count =
          before.time + (count + 1) * interval) ∧
        ∀ elapsed, PollTimes.within interval elapsed = elapsed / interval) ∧
      (∀ happening ∈ log, happening.Reports before.handleInUse readings) ∧
      ((reports readings).map fun event =>
          (event.objectType, event.trigger, event.properties.entries, event.timestamp)) =
        (readings.map fun reading =>
          ("system", .metric reading.1, [("value", .number reading.2)], none)) ∧
      ∀ (installation : Installation) (handle : Nat), installation.Publishes handle readings := by
  have reached (reachable : PollTimes.Reachable before.time interval) :
      Punctual before.pollers.length before.time interval log polling ∧
        ∀ happening ∈ log, happening.Reports before.handleInUse readings := by
    have fresh := sound_of_start reachable started
    obtain ⟨poller, sound⟩ := fresh.exists_of_run reachable.1 run orderly
    exact ⟨sound.punctual reachable.1, fresh.reports_of_run reachable.1 run orderly⟩
  have missed (unreachable : ¬PollTimes.Reachable before.time interval) :
      Futile before.pollers.length before.time log polling ∧
        ∀ happening ∈ log, happening.Reports before.handleInUse readings := by
    obtain ⟨each, poller, unable⟩ := (unable_of_start started).of_run unreachable run
    refine ⟨⟨pollTimes_eq_nil fun happening mem => (each happening mem).1, fun there => ?_⟩,
      fun happening mem => (each happening mem).2⟩
    exact ⟨(unable.unbegun there).2, unable.canEnd unreachable there⟩
  refine ⟨fun reachable => (reached reachable).1, fun unreachable => (missed unreachable).1,
    fun positive bound => ⟨PollTimes.time_eq_mul bound _, PollTimes.within_eq_div positive bound⟩,
    ?_, parts_reports readings, fun installation handle => installation.publishes handle readings⟩
  by_cases reachable : PollTimes.Reachable before.time interval
  · exact (reached reachable).2
  · exact (missed reachable).2

end

end

def quiet : Installation where
  clock := { origin := .clamp 0 }
  buses := [Bus.start 10]
  handles := [some 0]

/-- A poller is urged on at once, makes a poll after ten seconds, and is told to stop five seconds
later. -/
theorem polls_of_run_of_quiet :
    let ticks := PollTimes.time 0 10000
    ∃ first log last,
      (startPoller [("cpu", .ofInt 42)] 10000).burst quiet = (.done (), first) ∧
      Run 0 { installation := first } log last ∧ Orderly ticks log ∧
      (log.filter fun happening => happening.deed.isWord).map Incident.deed =
        [.told false, .told true] ∧
      endOf log = some 15000 ∧ pollTimes log = [10000] ∧ Punctual 0 0 10000 log last := by
  intro ticks
  have tick (count : Nat) : ticks count = 0 + (count + 1) * 10000 :=
    PollTimes.time_eq_mul (by decide) ..
  obtain ⟨first, started⟩ : ∃ first,
    (startPoller [("cpu", .ofInt 42)] 10000).burst quiet = (.done (), first) := ⟨_, rfl⟩
  have reachable : PollTimes.Reachable 0 10000 := by decide
  have positive := reachable.1
  have fresh := sound_of_start reachable started
  have start : first.time = 0 := (startPoller_spec started).1
  -- It is urged on, goes on to its first poll, and sleeps for half of the time to the next one.
  obtain ⟨heard, told⟩ : ∃ heard, (signalPoller 0 false).burst first = (.done (), heard) :=
    ⟨_, rfl⟩
  have urged : Run 0 { installation := first } [⟨.told false, first, heard⟩] _ :=
    .step .start (.tell told)
  have early : Orderly ticks [⟨.told false, first, heard⟩] := by
    refine orderly_concat_iff.mpr ⟨orderly_nil _, ⟨fun _ _ count => ?_, fun _ => rfl⟩⟩
    change first.time ≠ ticks count
    rw [start, tick]
    omega
  obtain ⟨_, ready⟩ := fresh.exists_of_run positive urged early
  obtain ⟨-, -, more, next, run, silent, times, now⟩ := (ready.punctual positive).ongoing rfl
  have now : next.installation.time = 10000 := now.trans (tick 0)
  have polled := Logged.append urged run
  have steady := early.append silent
  have count : pollTimes ([⟨.told false, first, heard⟩] ++ more) = [10000] :=
    (pollTimes_append ..).trans (times.trans (congrArg (fun time => [time]) (tick 0)))
  have ongoing : endOf ([⟨.told false, first, heard⟩] ++ more) = none := endOf_append _ silent
  obtain ⟨_, working⟩ := fresh.exists_of_run positive polled steady
  have there := ((working.punctual positive).ongoing ongoing).1
  have later : next.installation.time ≤ 15000 := by
    rw [now]
    decide
  have second : 15000 ≤ ticks (pollTimes ([⟨.told false, first, heard⟩] ++ more)).length := by
    rw [count, tick]
    decide
  obtain ⟨rest, last, _, sleep, calm, unpolled, half, -⟩ :=
    working.exists_sleep there ongoing later second
  -- It is told to stop.
  obtain ⟨final, stopped⟩ : ∃ final, (signalPoller 0 true).burst last.installation =
    (.done (), final) := ⟨_, rfl⟩
  have whole : Run 0 { installation := first } _ _ :=
    (Logged.append polled sleep).step (.tell stopped)
  have orderly : Orderly ticks (([⟨.told false, first, heard⟩] ++ more ++ rest) ++
      [⟨.told true, last.installation, final⟩]) := by
    refine orderly_concat_iff.mpr ⟨steady.append calm, ⟨fun _ _ count => ?_, nofun⟩⟩
    change last.installation.time ≠ ticks count
    rw [half, tick]
    omega
  refine ⟨first, _, _, started, whole, orderly, ?_, ?_, ?_,
    (polls_of_run started whole orderly).1 reachable⟩
  · have quiet (log : List Happening) (silent : ∀ happening ∈ log, ¬happening.deed.isWord) :
        (log.filter fun happening => happening.deed.isWord) = [] :=
      List.filter_eq_nil_iff.mpr silent
    simp only [List.filter_append, quiet more silent, quiet rest calm]
    rfl
  · rw [endOf_concat, endOf_append _ calm, ongoing, Option.none_or, ← half]
    rfl
  · rw [pollTimes_concat_of_ne (by simp), pollTimes_append, unpolled, count, List.append_nil]

/-- Beyond the longest pause, the ticks are not as far apart as the interval says. -/
theorem not_forall_pollTimes_eq :
    ¬∀ (readings : List (String × Number)) (interval : Nat) (before first : Installation)
        (log : List Happening) (polling : Workplace), 1000 ≤ interval →
      (startPoller readings interval).burst before = (.done (), first) →
      Run before.pollers.length { installation := first } log polling →
      Orderly (fun count => before.time + (count + 1) * interval) log →
      pollTimes log = (List.range (pollTimes log).length).map fun count =>
        before.time + (count + 1) * interval := by
  intro claimed
  have started : (startPoller [] 1000000000000).burst quiet = (.done (), _) := rfl
  obtain ⟨log, polling, run, silent, times⟩ := exists_run_of_polls (by decide) started 2
  have regular := claimed [] _ quiet _ log polling (by decide) started run
    ((orderly_nil _).append silent)
  rw [times] at regular
  revert regular
  decide

end Polling

end Alerting
