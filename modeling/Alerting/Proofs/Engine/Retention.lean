import Alerting.Proofs.Engine.Upkeep
import Alerting.Proofs.Entries

/-!
# For how long history is kept

A record is removed only when it is older than the days that count: those of the latest order before
the engine was stopped. The task that removes old history passes through stages, and in each of them
it is known what its next turn may do.
-/

namespace Alerting

open Installation

/-! ## Where the task stands -/

namespace Upkeep

/-- Nobody but the task moves it from one stage to another, except that it is started from outside.
Until it has made its first pass it waits for it, and knows when it was started. -/
inductive Stage (index : Nat) (settings : Settings) (log : List Happening) (upkeep : Upkeep)
    (station : Station) : Prop where
  | unstarted (fresh : station.engine.cleanup = .unstarted) (undue : station.cleanupDue = none)
      (rest : upkeep.rest = none) (there : upkeep.gone = false)
      (unspawned : ∀ spawn ∈ log, ¬spawn.Spawns index) (unpassed : NoPass log)
  | begun (running : station.engine.cleanup = .running) (undue : station.cleanupDue = none)
      (rest : upkeep.rest = none) (there : upkeep.gone = false)
      (spawned : ∃ spawn ∈ log, spawn.Spawns index)
      (now : ∀ spawn ∈ log, spawn.Spawns index →
        spawn.before.time = upkeep.installation.time)
      (unpassed : NoPass log)
  | asleep {interval due : Nat} (running : station.engine.cleanup = .running)
      (rest : upkeep.rest = some (CleanupTask.sleep index interval due))
      (there : upkeep.gone = false) (spawned : ∃ spawn ∈ log, spawn.Spawns index)
      (first : NoPass log → ∀ spawn ∈ log, spawn.Spawns index →
        due = spawn.before.time + settings.cleanupMillis)
      (early : NoPass log → hasStopped log = false → upkeep.installation.time ≤ due)
  | between {due : Nat} (running : station.engine.cleanup = .running)
      (noted : station.cleanupDue = some due) (rest : upkeep.rest = none)
      (there : upkeep.gone = false) (spawned : ∃ spawn ∈ log, spawn.Spawns index)
      (passed : ¬NoPass log)
  | finished (gone : upkeep.gone = true)
      (ended : station.engine.cleanup = .ended ∨ station.engine.cleanup = .awaited)
      (spawned : ∃ spawn ∈ log, spawn.Spawns index)
      (reason : hasStopped log = true ∨
        ¬CleanupTask.Usable settings.cleanupIntervalSeconds.toNat)

structure Sound (index : Nat) (settings : Settings) (log : List Happening) (upkeep : Upkeep)
    (station : Station) : Prop where
  prompt : upkeep.installation.conduct = {}
  held : upkeep.installation.engineInUse = some index
  present : upkeep.installation.stations[index]? = some station
  configured : station.engine.settings = settings
  days : station.engine.retentionDays = daysKept settings log
  stopped : station.engine.stopped = hasStopped log
  leaving : ∀ rest, upkeep.leaving = some rest → hasStopped log = true ∧ rest = departure index
  stage : Stage index settings log upkeep station

def Carries (index : Nat) (settings : Settings) (log : List Happening) (next : Upkeep)
    (happening : Happening) : Prop :=
  happening.Fits index settings log ∧
    ∃ changed, Sound index settings (log ++ [happening]) next changed

section

variable {index : Nat} {settings : Settings} {log : List Happening} {happening : Happening}
  {upkeep next : Upkeep} {station changed : Station}

theorem mem_of_spawns (quiet : ¬happening.Spawns index) {spawn : Happening}
    (mem : spawn ∈ log ++ [happening]) (spawns : spawn.Spawns index) : spawn ∈ log := by
  rcases List.mem_append.mp mem with mem | last
  · exact mem
  · rw [List.mem_singleton.mp last] at spawns
    exact absurd spawns quiet

theorem spawned_concat (index : Nat) (log : List Happening) (happening : Happening)
    (spawned : ∃ spawn ∈ log, spawn.Spawns index) :
    ∃ spawn ∈ log ++ [happening], spawn.Spawns index := by
  obtain ⟨spawn, mem, spawns⟩ := spawned
  exact ⟨spawn, List.mem_append_left _ mem, spawns⟩

theorem Stage.concat (stage : Stage index settings log upkeep station)
    (quiet : ¬happening.Spawns index) (ordinary : happening.deed ≠ .pass)
    (cleanup : changed.engine.cleanup = station.engine.cleanup)
    (due : changed.cleanupDue = station.cleanupDue) (rest : next.rest = upkeep.rest)
    (gone : next.gone = upkeep.gone)
    (time : next.installation.time = upkeep.installation.time) :
    Stage index settings (log ++ [happening]) next changed := by
  have before : NoPass (log ++ [happening]) → NoPass log := fun unpassed =>
    (noPass_concat.mp unpassed).1
  have unstoppedBefore : hasStopped (log ++ [happening]) = false → hasStopped log = false := by
    rw [hasStopped_concat, Bool.or_eq_false_iff]
    exact And.left
  have still := spawned_concat index log happening
  cases stage with
  | unstarted fresh undue none there unspawned unpassed =>
      exact .unstarted (cleanup.trans fresh) (due.trans undue) (rest.trans none) (gone.trans there)
        (fun spawn mem spawns => unspawned spawn (mem_of_spawns quiet mem spawns) spawns)
        (noPass_concat.mpr ⟨unpassed, ordinary⟩)
  | begun running undue none there spawned now unpassed =>
      exact .begun (cleanup.trans running) (due.trans undue) (rest.trans none) (gone.trans there)
        (still spawned)
        (fun spawn mem spawns => time ▸ now spawn (mem_of_spawns quiet mem spawns) spawns)
        (noPass_concat.mpr ⟨unpassed, ordinary⟩)
  | asleep running sleeping there spawned first early =>
      refine .asleep (cleanup.trans running) (rest.trans sleeping) (gone.trans there)
        (still spawned) ?_ ?_
      · exact fun unpassed spawn mem spawns =>
          first (before unpassed) spawn (mem_of_spawns quiet mem spawns) spawns
      · intro unpassed unstopped
        rw [time]
        exact early (before unpassed) (unstoppedBefore unstopped)
  | between running noted none there spawned passed =>
      exact .between (cleanup.trans running) (due.trans noted) (rest.trans none)
        (gone.trans there) (still spawned) fun unpassed => passed (before unpassed)
  | finished away ended spawned reason =>
      refine .finished (gone.trans away) (cleanup ▸ ended) (still spawned)
        (reason.imp_left fun stopped => ?_)
      rw [hasStopped_concat, stopped, Bool.true_or]

theorem Sound.concat (sound : Sound index settings log upkeep station)
    (conduct : next.installation.conduct = upkeep.installation.conduct)
    (held : next.installation.engineInUse = upkeep.installation.engineInUse)
    (present : next.installation.stations[index]? = some changed)
    (same : changed.engine.settings = station.engine.settings)
    (days : changed.engine.retentionDays = station.engine.retentionDays)
    (stopped : changed.engine.stopped = (station.engine.stopped || happening.deed.stops))
    (silent : happening.deed.days? = none)
    (leaving : ∀ rest, next.leaving = some rest →
      hasStopped (log ++ [happening]) = true ∧ rest = departure index)
    (stage : Stage index settings (log ++ [happening]) next changed) :
    Sound index settings (log ++ [happening]) next changed where
  prompt := conduct.trans sound.prompt
  held := held.trans sound.held
  present := present
  configured := same.trans sound.configured
  days := by rw [days, sound.days, daysKept_concat_of_days?_eq_none silent]
  stopped := by rw [stopped, sound.stopped, hasStopped_concat]
  leaving := leaving
  stage := stage

theorem Sound.leaving_concat (sound : Sound index settings log upkeep station)
    (happening : Happening) (rest : Work Unit) (waits : upkeep.leaving = some rest) :
    hasStopped (log ++ [happening]) = true ∧ rest = departure index := by
  obtain ⟨stopped, same⟩ := sound.leaving rest waits
  exact ⟨by rw [hasStopped_concat, stopped, Bool.true_or], same⟩

/-! ## Orders -/

theorem Sound.carries_ignored (sound : Sound index settings log upkeep station)
    (stopped : station.engine.stopped = true) (days : Int64) :
    Carries index settings log upkeep ⟨.kept days, upkeep.installation, upkeep.installation⟩ := by
  have halted : hasStopped log = true := sound.stopped ▸ stopped
  have quiet : ¬Happening.Spawns index ⟨.kept days, upkeep.installation, upkeep.installation⟩ :=
    Happening.not_spawns sound.present sound.present id
  refine ⟨⟨iff_of_false quiet ?_, nofun, rfl, nofun, fun _ _ _ => rfl⟩,
    station, sound.prompt, sound.held, sound.present, sound.configured, ?_, ?_,
    sound.leaving_concat _, sound.stage.concat quiet nofun rfl rfl rfl rfl rfl⟩
  · simp [halted]
  · rw [daysKept_concat_of_hasStopped halted, sound.days]
  · rw [hasStopped_concat, halted, stopped, Bool.true_or]

theorem Stage.unstarted_iff (stage : Stage index settings log upkeep station) :
    station.engine.cleanup = .unstarted ↔ ∀ spawn ∈ log, ¬spawn.Spawns index := by
  have spawned : (∃ spawn ∈ log, spawn.Spawns index) → ¬∀ spawn ∈ log, ¬spawn.Spawns index := by
    rintro ⟨spawn, mem, spawns⟩ unspawned
    exact unspawned spawn mem spawns
  cases stage with
  | unstarted fresh _ _ _ unspawned _ => exact iff_of_true fresh unspawned
  | begun running _ _ _ started | asleep running _ _ started | between running _ _ _ started =>
      exact iff_of_false (by simp [running]) (spawned started)
  | finished _ ended started =>
      exact iff_of_false (by rcases ended with ended | ended <;> simp [ended]) (spawned started)

theorem Stage.begin (stage : Stage index settings log upkeep station)
    (fresh : station.engine.cleanup = .unstarted) (spawns : happening.Spawns index)
    (ordinary : happening.deed ≠ .pass) (now : happening.before.time = next.installation.time)
    (running : changed.engine.cleanup = .running)
    (due : changed.cleanupDue = station.cleanupDue) (rest : next.rest = upkeep.rest)
    (gone : next.gone = upkeep.gone) :
    Stage index settings (log ++ [happening]) next changed := by
  have unspawned := stage.unstarted_iff.mp fresh
  cases stage with
  | unstarted _ undue none there _ unpassed =>
      refine .begun running (due.trans undue) (rest.trans none) (gone.trans there)
        ⟨happening, List.mem_concat_self, spawns⟩ ?_ (noPass_concat.mpr ⟨unpassed, ordinary⟩)
      intro spawn mem again
      rcases List.mem_append.mp mem with mem | mem
      · exact absurd again (unspawned spawn mem)
      · rw [List.mem_singleton.mp mem, now]
  | begun running | asleep running | between running => simp [fresh] at running
  | finished _ ended => simp [fresh] at ended

theorem Sound.stage_kept (sound : Sound index settings log upkeep station) {days : Int64}
    (deed : happening.deed = .kept days) (before : happening.before = upkeep.installation)
    (present : happening.after.stations[index]? = some changed)
    (cleanup : changed.engine.cleanup =
      if 0 < days ∧ station.engine.cleanup = .unstarted then .running
      else station.engine.cleanup)
    (due : changed.cleanupDue = station.cleanupDue) (rest : next.rest = upkeep.rest)
    (gone : next.gone = upkeep.gone)
    (time : next.installation.time = upkeep.installation.time) :
    Stage index settings (log ++ [happening]) next changed ∧
      (happening.Spawns index ↔ 0 < days ∧ ∀ other ∈ log, ¬other.Spawns index) := by
  have found : happening.before.stations[index]? = some station := by rw [before, sound.present]
  have ordinary : happening.deed ≠ .pass := by simp [deed]
  rw [← sound.stage.unstarted_iff]
  by_cases starts : 0 < days ∧ station.engine.cleanup = .unstarted
  · rw [if_pos starts] at cleanup
    have spawns : happening.Spawns index :=
      ⟨by simp [isTended_eq found, starts.2], by simp [isTended_eq present, cleanup]⟩
    have now : happening.before.time = next.installation.time := by rw [before, time]
    exact ⟨sound.stage.begin starts.2 spawns ordinary now cleanup due rest gone,
      iff_of_true spawns starts⟩
  · rw [if_neg starts] at cleanup
    have quiet : ¬happening.Spawns index :=
      Happening.not_spawns found present fun running => cleanup ▸ running
    exact ⟨sound.stage.concat quiet ordinary cleanup due rest gone time,
      iff_of_false quiet starts⟩

theorem Sound.carries_kept (sound : Sound index settings log upkeep station)
    (running : station.engine.stopped = false) (days : Int64) :
    let changed := { station with engine := station.engine.startCleanup days }
    Carries index settings log
      { upkeep with installation := upkeep.installation.place index changed }
      ⟨.kept days, upkeep.installation, upkeep.installation.place index changed⟩ := by
  intro changed
  have unstopped : hasStopped log = false := sound.stopped ▸ running
  have set : changed.engine =
      { station.engine with
        retentionDays := days
        cleanup := if 0 < days ∧ station.engine.cleanup = .unstarted then .running
          else station.engine.cleanup } :=
    if_neg (by simp [running])
  have present : (upkeep.installation.place index changed).stations[index]? = some changed :=
    getElem?_place sound.present changed
  let happening : Happening :=
    ⟨.kept days, upkeep.installation, upkeep.installation.place index changed⟩
  obtain ⟨stage, spawns⟩ : Stage index settings (log ++ [happening])
        { upkeep with installation := upkeep.installation.place index changed } changed ∧
      (happening.Spawns index ↔ 0 < days ∧ ∀ other ∈ log, ¬other.Spawns index) :=
    sound.stage_kept rfl rfl present (by rw [set]) rfl rfl rfl rfl
  refine ⟨⟨?_, nofun, rfl, nofun, ?_⟩, changed, sound.prompt, sound.held, present, ?_, ?_, ?_,
    sound.leaving_concat _, stage⟩
  · rw [spawns]
    simp [unstopped]
  · simp [unstopped]
  · rw [set]
    exact sound.configured
  · rw [daysKept_concat unstopped, set]
    rfl
  · rw [hasStopped_concat, set]
    exact sound.stopped.trans (Bool.or_false _).symm

theorem Sound.carries_purged (sound : Sound index settings log upkeep station) :
    let after := upkeep.installation.swept station.engine.retentionDays
    Carries index settings log { upkeep with installation := after }
      ⟨.purged (purgeAnswer station.engine.retentionDays upkeep.installation.clock.look.1
        upkeep.installation.store after.store), upkeep.installation, after⟩ := by
  intro after
  have quiet : ¬Happening.Spawns index ⟨.purged (purgeAnswer station.engine.retentionDays
      upkeep.installation.clock.look.1 upkeep.installation.store after.store),
      upkeep.installation, after⟩ :=
    Happening.not_spawns sound.present sound.present id
  refine ⟨⟨iff_of_false quiet (by simp), nofun, ?_, ?_, nofun⟩, station,
    sound.concat rfl rfl sound.present rfl rfl (Bool.or_false _).symm rfl
      (sound.leaving_concat _) (sound.stage.concat quiet nofun rfl rfl rfl rfl rfl)⟩
  · rw [← sound.days]
    rfl
  · rintro answer ⟨⟩
    rw [← sound.days]

theorem Sound.carries_saved (sound : Sound index settings log upkeep station) (record : Record)
    (answer : Except Fault UInt64) :
    let after :=
      { upkeep.installation with store := (upkeep.installation.store.save record).2 }
    Carries index settings log { upkeep with installation := after }
      ⟨.saved record answer, upkeep.installation, after⟩ := by
  intro after
  have quiet : ¬Happening.Spawns index ⟨.saved record answer, upkeep.installation, after⟩ :=
    Happening.not_spawns sound.present sound.present id
  exact ⟨⟨iff_of_false quiet (by simp), nofun, rfl, nofun, nofun⟩, station,
    sound.concat rfl rfl sound.present rfl rfl (Bool.or_false _).symm rfl
      (sound.leaving_concat _) (sound.stage.concat quiet nofun rfl rfl rfl rfl rfl)⟩

theorem Sound.carries_stopped (sound : Sound index settings log upkeep station) {deed : Deed}
    (stops : deed = .stopped ∨ deed = .shutDown) (stopped : next.installation =
      upkeep.installation.place index { station with engine := station.engine.stop })
    (rest : next.rest = upkeep.rest) (gone : next.gone = upkeep.gone)
    (leaving : ∀ rest, next.leaving = some rest → rest = departure index ∨
      upkeep.leaving = some rest) :
    Carries index settings log next ⟨deed, upkeep.installation, next.installation⟩ := by
  have present : next.installation.stations[index]? =
      some { station with engine := station.engine.stop } := by
    rw [stopped]
    exact getElem?_place sound.present _
  have quiet : ¬Happening.Spawns index ⟨deed, upkeep.installation, next.installation⟩ :=
    Happening.not_spawns sound.present present id
  have halts : deed.stops = true := by rcases stops with rfl | rfl <;> rfl
  have still : Stage index settings
      (log ++ [⟨deed, upkeep.installation, next.installation⟩]) next
      { station with engine := station.engine.stop } := by
    refine sound.stage.concat quiet ?_ rfl rfl rest gone (by rw [stopped]; rfl)
    rcases stops with rfl | rfl <;> nofun
  refine ⟨⟨iff_of_false quiet ?_, ?_, ?_, ?_, ?_⟩, _, sound.concat
    (by rw [stopped]; rfl) (by rw [stopped]; rfl) present rfl rfl ?_ ?_ ?_ still⟩
  · rcases stops with rfl | rfl <;> simp
  · rcases stops with rfl | rfl <;> nofun
  · rw [stopped]
    rcases stops with rfl | rfl <;> rfl
  · rcases stops with rfl | rfl <;> nofun
  · rcases stops with rfl | rfl <;> nofun
  · rw [halts, Bool.or_true]
    rfl
  · rcases stops with rfl | rfl <;> rfl
  · intro rest waits
    rcases leaving rest waits with same | waits
    · rw [hasStopped_concat, halts, Bool.or_true]
      exact ⟨rfl, same⟩
    · exact sound.leaving_concat _ rest waits

/-! ## Shutdowns and the task -/

theorem Sound.carries_aside (sound : Sound index settings log upkeep station)
    {cleanup : Cleanup} {due : Option Nat}
    (conduct : next.installation.conduct = upkeep.installation.conduct)
    (held : next.installation.engineInUse = upkeep.installation.engineInUse)
    (store : next.installation.store = upkeep.installation.store)
    (present : next.installation.stations[index]? = some
      { station with engine := { station.engine with cleanup }, cleanupDue := due })
    (unbegun : cleanup = .running → station.engine.cleanup = .running)
    (leaving : ∀ rest, next.leaving = some rest → upkeep.leaving = some rest)
    (stage : ∀ happening : Happening, ¬happening.Spawns index → happening.deed = .aside →
      Stage index settings (log ++ [happening]) next
        { station with engine := { station.engine with cleanup }, cleanupDue := due }) :
    Carries index settings log next ⟨.aside, upkeep.installation, next.installation⟩ := by
  have quiet : ¬Happening.Spawns index ⟨.aside, upkeep.installation, next.installation⟩ :=
    Happening.not_spawns sound.present present unbegun
  exact ⟨⟨iff_of_false quiet (by simp), nofun, store, nofun, nofun⟩, _,
    sound.concat conduct held present rfl rfl (Bool.or_false _).symm rfl
      (fun rest waits => sound.leaving_concat _ rest (leaving rest waits)) (stage _ quiet rfl)⟩

theorem Sound.carries_setClock (sound : Sound index settings log upkeep station) (clock : Clock) :
    Carries index settings log { upkeep with installation := { upkeep.installation with clock } }
      ⟨.aside, upkeep.installation, { upkeep.installation with clock }⟩ :=
  sound.carries_aside rfl rfl rfl sound.present id (fun _ => id) fun _ quiet aside =>
    sound.stage.concat quiet (by simp [aside]) rfl rfl rfl rfl rfl

theorem Stage.elapse (stage : Stage index settings log upkeep station)
    (sound : Sound index settings log upkeep station) {time : Nat}
    (allowed : upkeep.MaySleep (.cleanup index) time) :
    Stage index settings log
      { upkeep with installation := { upkeep.installation with time } } station := by
  have there (running : station.engine.cleanup = .running) (there : upkeep.gone = false) :
      upkeep.HasTask (.cleanup index) :=
    ⟨(cleanup_mem_tasks sound.present).mpr (by simp [running]), there⟩
  cases stage with
  | unstarted fresh undue rest there unspawned unpassed =>
      exact .unstarted fresh undue rest there unspawned unpassed
  | begun running undue rest present spawned now unpassed =>
      exact absurd rest (allowed.rest_ne_none (there running present))
  | asleep running rest present spawned first early =>
      refine .asleep running rest present spawned first fun _ unstopped => ?_
      have awake : station.engine.stopped = false := sound.stopped.trans unstopped
      exact allowed.le_due (there running present) rest
        (CleanupTask.readyAt_sleep sound.held sound.present awake ..)
  | between running noted rest present spawned passed =>
      exact .between running noted rest present spawned passed
  | finished gone ended spawned reason => exact .finished gone ended spawned reason

theorem Sound.carries_sleep (sound : Sound index settings log upkeep station) {time : Nat}
    (allowed : upkeep.MaySleep (.cleanup index) time) :
    Carries index settings log { upkeep with installation := { upkeep.installation with time } }
      ⟨.aside, upkeep.installation, { upkeep.installation with time }⟩ :=
  sound.carries_aside rfl rfl rfl sound.present id (fun _ => id) fun _ quiet aside =>
    (sound.stage.elapse sound allowed).concat quiet (by simp [aside]) rfl rfl rfl rfl rfl

theorem Sound.carries_leave (sound : Sound index settings log upkeep station)
    {wait rest : Work Unit} {after : Installation} (leaving : upkeep.leaving = some wait)
    (due : World.isDue wait.readyAt upkeep.installation)
    (left : wait.past.burst upkeep.installation = (rest, after)) :
    Carries index settings log (upkeep.await after rest) ⟨.aside, upkeep.installation, after⟩ := by
  obtain ⟨stopped, rfl⟩ := sound.leaving wait leaving
  have dismissed : (departure index).past.burst upkeep.installation = (.done (),
      upkeep.installation.place index { station with engine := station.engine.dismissTask }) :=
    burst_modifyEngine sound.present
  obtain ⟨rfl, rfl⟩ := Prod.mk.inj (left.symm.trans dismissed)
  have ended : station.engine.cleanup = .ended := by
    by_contra there
    simp [World.isDue, departure, Activity.readyAt, sound.present, there] at due
  refine sound.carries_aside rfl rfl rfl (getElem?_place sound.present _) nofun
    (fun _ waits => nomatch waits) ?_
  intro happening _ _
  have halted : hasStopped (log ++ [happening]) = true := by
    rw [hasStopped_concat, stopped, Bool.true_or]
  cases sound.stage with
  | unstarted fresh => simp [fresh] at ended
  | begun running | asleep running | between running => simp [running] at ended
  | finished gone _ spawned =>
      exact .finished gone (.inr rfl) (spawned_concat index log happening spawned) (.inl halted)

theorem Sound.carries_round (sound : Sound index settings log upkeep station)
    (running : station.engine.cleanup = .running) (there : upkeep.gone = false)
    (spawned : ∃ spawn ∈ log, spawn.Spawns index)
    (first : NoPass log → ∀ spawn ∈ log, spawn.Spawns index →
      station.cleanupDue.getD (upkeep.installation.time + settings.cleanupMillis) =
        spawn.before.time + settings.cleanupMillis)
    (early : NoPass log → upkeep.installation.time ≤
      station.cleanupDue.getD (upkeep.installation.time + settings.cleanupMillis))
    {left : Work Bool} {after : Installation}
    (turned : (CleanupTask.round index).burst upkeep.installation = (left, after)) :
    Carries index settings log { upkeep with toWorkplace := upkeep.conclude after left }
      ⟨deedOf left, upkeep.installation, after⟩ := by
  by_cases usable : CleanupTask.Usable station.engine.settings.cleanupIntervalSeconds.toNat
  · obtain ⟨rfl, rfl⟩ := Prod.mk.inj (turned.symm.trans
      (CleanupTask.burst_round sound.present usable))
    rw [sound.configured]
    refine sound.carries_aside rfl rfl rfl (getElem?_place sound.present _) id (fun _ => id) ?_
    intro happening quiet aside
    refine .asleep running rfl there (spawned_concat index log happening spawned) ?_ ?_
    · exact fun unpassed spawn mem spawns =>
        first (noPass_concat.mp unpassed).1 spawn (mem_of_spawns quiet mem spawns) spawns
    · exact fun unpassed _ => early (noPass_concat.mp unpassed).1
  · obtain ⟨rfl, rfl⟩ := Prod.mk.inj (turned.symm.trans
      (CleanupTask.burst_round_of_not_usable sound.present usable))
    refine sound.carries_aside rfl rfl rfl (getElem?_place sound.present _) nofun
      (fun _ => id) ?_
    exact fun happening _ _ => .finished rfl (.inl rfl) (spawned_concat index log happening spawned)
      (.inr (sound.configured ▸ usable))

theorem Sound.carries_wake (sound : Sound index settings log upkeep station)
    (running : station.engine.cleanup = .running) {interval due : Nat}
    (spawned : ∃ spawn ∈ log, spawn.Spawns index)
    (first : NoPass log → ∀ spawn ∈ log, spawn.Spawns index →
      due = spawn.before.time + settings.cleanupMillis)
    (early : NoPass log → hasStopped log = false → upkeep.installation.time ≤ due)
    (waited : World.isDue (CleanupTask.sleep index interval due).readyAt upkeep.installation)
    {left : Work Bool} {after : Installation}
    (turned : (CleanupTask.wake index interval due).burst upkeep.installation = (left, after)) :
    Carries index settings log { upkeep with toWorkplace := upkeep.conclude after left }
      ⟨deedOf left, upkeep.installation, after⟩ := by
  cases stopped : station.engine.stopped with
  | true =>
      obtain ⟨rfl, rfl⟩ := Prod.mk.inj (turned.symm.trans
        (CleanupTask.burst_wake_of_stopped sound.held sound.present stopped interval due))
      refine sound.carries_aside rfl rfl rfl (getElem?_place sound.present _) nofun
        (fun _ => id) ?_
      intro happening _ _
      refine .finished rfl (.inl rfl) (spawned_concat index log happening spawned) (.inl ?_)
      rw [hasStopped_concat, ← sound.stopped, stopped, Bool.true_or]
  | false =>
      obtain ⟨rfl, rfl⟩ := Prod.mk.inj (turned.symm.trans
        (CleanupTask.burst_wake sound.held sound.prompt sound.present stopped interval due))
      have unstopped : hasStopped log = false := sound.stopped ▸ stopped
      have come : due ≤ upkeep.installation.time := by
        rw [World.isDue, CleanupTask.readyAt_sleep sound.held sound.present stopped] at waited
        exact of_decide_eq_true waited
      have noted := getElem?_place sound.present { station with
        cleanupDue := some (Activity.nextTick interval due upkeep.installation.time) }
      have quiet : ¬Happening.Spawns index ⟨.pass, upkeep.installation,
          (upkeep.installation.place index { station with
            cleanupDue := some (Activity.nextTick interval due upkeep.installation.time) }).swept
              station.engine.retentionDays⟩ :=
        Happening.not_spawns sound.present noted id
      refine ⟨⟨iff_of_false quiet (by simp [deedOf]), fun _ => ⟨unstopped, spawned, ?_⟩, ?_, nofun,
        nofun⟩, _, sound.concat rfl rfl noted rfl rfl (Bool.or_false _).symm rfl
          (sound.leaving_concat _)
          (.between running rfl rfl rfl (spawned_concat index log _ spawned) ?_)⟩
      · intro unpassed spawn mem spawns
        rw [← first unpassed spawn mem spawns]
        exact Nat.le_antisymm (early unpassed unstopped) come
      · rw [← sound.days]
        rfl
      · exact fun unpassed => (noPass_concat.mp unpassed).2 rfl

theorem Sound.carries_turn (sound : Sound index settings log upkeep station) {left : Work Bool}
    {after : Installation} (turn : upkeep.Turn (.cleanup index) left after) :
    Carries index settings log { upkeep with toWorkplace := upkeep.conclude after left }
      ⟨deedOf left, upkeep.installation, after⟩ := by
  obtain ⟨present, due, turned⟩ := turn
  cases sound.stage with
  | unstarted fresh =>
      exact absurd fresh ((cleanup_mem_tasks sound.present).mp present.1)
  | begun running undue rest there spawned now unpassed =>
      rw [Workplace.current_of_none rest] at turned
      refine sound.carries_round running there spawned ?_ ?_ turned
      · intro _ spawn mem spawns
        rw [undue, Option.getD_none, now spawn mem spawns]
      · intro _
        rw [undue, Option.getD_none]
        exact Nat.le_add_right ..
  | asleep running rest _ spawned first early =>
      rw [Workplace.current_of_some rest] at turned due
      exact sound.carries_wake running spawned first early due turned
  | between running _ rest there spawned passed =>
      rw [Workplace.current_of_none rest] at turned
      exact sound.carries_round running there spawned (fun unpassed => absurd unpassed passed)
        (fun unpassed => absurd unpassed passed) turned
  | finished gone => exact absurd present.2 (by simp [gone])

/-! ## Every step -/

theorem Sound.carries_order (sound : Sound index settings log upkeep station) {order : Order}
    {deed : Deed} {after : Installation}
    (carried : (order.carryOut index).burst upkeep.installation = (.done deed, after)) :
    Carries index settings log { upkeep with installation := after }
      ⟨deed, upkeep.installation, after⟩ := by
  cases order with
  | keep days =>
      obtain ⟨⟨⟩, rfl⟩ := Prod.mk.inj (carried.symm.trans (Order.burst_keep sound.present days))
      cases stopped : station.engine.stopped with
      | true =>
          have ignored : station.engine.startCleanup days = station.engine := if_pos stopped
          rw [ignored, place_self sound.present]
          exact sound.carries_ignored stopped days
      | false => exact sound.carries_kept stopped days
  | purge =>
      obtain ⟨⟨⟩, rfl⟩ := Prod.mk.inj (carried.symm.trans
        (Order.burst_purge sound.prompt sound.present))
      exact sound.carries_purged
  | stop =>
      obtain ⟨⟨⟩, rfl⟩ := Prod.mk.inj (carried.symm.trans (Order.burst_stop sound.present))
      exact sound.carries_stopped (.inl rfl) rfl rfl rfl fun _ => .inr
  | save record =>
      obtain ⟨⟨⟩, rfl⟩ := Prod.mk.inj (carried.symm.trans (Order.burst_save sound.prompt record))
      exact sound.carries_saved record _

theorem Sound.carries_shutDown (sound : Sound index settings log upkeep station)
    {rest : Work Unit} {after : Installation}
    (begun : (shutDownEngine index).burst upkeep.installation = (rest, after)) :
    Carries index settings log (upkeep.await after rest)
      ⟨.shutDown, upkeep.installation, after⟩ := by
  obtain ⟨rfl, rfl⟩ := Prod.mk.inj (begun.symm.trans (burst_shutDownEngine sound.present))
  cases tended : station.engine.hasTask with
  | true =>
      refine sound.carries_stopped (.inr rfl) rfl rfl rfl fun rest waits => .inl ?_
      exact (Option.some.inj waits).symm
  | false =>
      exact sound.carries_stopped (.inr rfl) rfl rfl rfl fun rest waits => nomatch waits

theorem Sound.carries_step (sound : Sound index settings log upkeep station)
    (step : Step index upkeep happening next) : Carries index settings log next happening := by
  cases step with
  | order carried => exact sound.carries_order carried
  | shutDown _ begun => exact sound.carries_shutDown begun
  | leave leaving due left => exact sound.carries_leave leaving due left
  | turn turn => exact sound.carries_turn turn
  | sleep allowed => exact sound.carries_sleep allowed
  | setClock clock => exact sound.carries_setClock clock

theorem Sound.exists_deed (sound : Sound index settings log upkeep station) (order : Order) :
    ∃ deed after, (order.carryOut index).burst upkeep.installation = (.done deed, after) := by
  cases order with
  | keep days => exact ⟨_, _, Order.burst_keep sound.present days⟩
  | purge => exact ⟨_, _, Order.burst_purge sound.prompt sound.present⟩
  | stop => exact ⟨_, _, Order.burst_stop sound.present⟩
  | save record => exact ⟨_, _, Order.burst_save sound.prompt record⟩

/-! ## The first pass -/

structure Sleeps (index interval due : Nat) (upkeep : Upkeep) (station : Station) : Prop where
  prompt : upkeep.installation.conduct = {}
  held : upkeep.installation.engineInUse = some index
  found : upkeep.installation.stations[index]? = some station
  running : station.engine.stopped = false
  present : upkeep.HasTask (.cleanup index)
  rest : upkeep.rest = some (CleanupTask.sleep index interval due)

theorem Sleeps.current_eq {interval due : Nat} (sleeps : Sleeps index interval due upkeep station) :
    upkeep.current (.cleanup index) = CleanupTask.sleep index interval due :=
  Workplace.current_of_some sleeps.rest

theorem Sleeps.isDue {interval due : Nat} (sleeps : Sleeps index interval due upkeep station)
    (come : due ≤ upkeep.installation.time) :
    World.isDue (upkeep.current (.cleanup index)).readyAt upkeep.installation := by
  rw [sleeps.current_eq, World.isDue,
    CleanupTask.readyAt_sleep sleeps.held sleeps.found sleeps.running, Option.any_some]
  exact decide_eq_true come

theorem Sleeps.exists_step {interval due : Nat} (sleeps : Sleeps index interval due upkeep station)
    (come : due ≤ upkeep.installation.time) :
    ∃ after next, Step index upkeep ⟨.pass, upkeep.installation, after⟩ next := by
  obtain ⟨after, woken⟩ : ∃ after,
      (upkeep.current (.cleanup index)).past.burst upkeep.installation = (.done true, after) := by
    rw [sleeps.current_eq]
    exact ⟨_, CleanupTask.burst_wake sleeps.held sleeps.prompt sleeps.found sleeps.running ..⟩
  exact ⟨after, _, .turn ⟨sleeps.present, sleeps.isDue come, woken⟩⟩

theorem Sleeps.exists_pass {interval due : Nat} (sleeps : Sleeps index interval due upkeep station)
    (early : upkeep.installation.time ≤ due) :
    ∃ more next, Run index upkeep more next ∧
      ∃ pass ∈ more, pass.deed = .pass ∧ pass.before.time = due := by
  let later : Upkeep := { upkeep with installation := { upkeep.installation with time := due } }
  have slept : Step index upkeep ⟨.aside, upkeep.installation, later.installation⟩ later := by
    refine .sleep ⟨early, fun _ => ⟨_, sleeps.rest, fun time same => ?_⟩⟩
    rw [CleanupTask.readyAt_sleep sleeps.held sleeps.found sleeps.running] at same
    exact (Option.some.inj same).le
  have still : Sleeps index interval due later station :=
    ⟨sleeps.prompt, sleeps.held, sleeps.found, sleeps.running, sleeps.present, sleeps.rest⟩
  obtain ⟨after, next, woken⟩ := still.exists_step le_rfl
  exact ⟨_, _, .step (.step .start slept) woken, _, List.mem_concat_self, rfl, rfl⟩

/-- Unless the engine is stopped, the first pass comes an interval after the start of the task: time
does not pass beyond without it, and it is never too late for it. -/
theorem Sound.exists_pass (sound : Sound index settings log upkeep station)
    (usable : CleanupTask.Usable settings.cleanupIntervalSeconds.toNat)
    (unstopped : hasStopped log = false) (unpassed : NoPass log) {spawn : Happening}
    (mem : spawn ∈ log) (spawns : spawn.Spawns index) :
    let due := spawn.before.time + settings.cleanupMillis
    upkeep.installation.time ≤ due ∧ ∃ more next, Run index upkeep more next ∧
      ∃ pass ∈ more, pass.deed = .pass ∧ pass.before.time = due := by
  intro due
  have awake : station.engine.stopped = false := sound.stopped.trans unstopped
  have started (running : station.engine.cleanup = .running) :
      Task.cleanup index ∈ tasks upkeep.installation :=
    (cleanup_mem_tasks sound.present).mpr (by simp [running])
  cases sound.stage with
  | unstarted _ _ _ _ unspawned => exact absurd spawns (unspawned spawn mem)
  | begun running undue rest there _ now _ =>
      have begins : due = upkeep.installation.time + settings.cleanupMillis := by
        rw [← now spawn mem spawns]
      have early : upkeep.installation.time ≤ due := begins ▸ Nat.le_add_right ..
      have round : upkeep.current (.cleanup index) = CleanupTask.round index :=
        Workplace.current_of_none rest
      have ready : World.isDue (upkeep.current (.cleanup index)).readyAt upkeep.installation := by
        rw [round]
        rfl
      have turned : (upkeep.current (.cleanup index)).past.burst upkeep.installation =
          (CleanupTask.sleep index settings.cleanupMillis due,
            upkeep.installation.place index { station with cleanupDue := some due }) := by
        have turned := CleanupTask.burst_round sound.present (sound.configured ▸ usable)
        rw [undue, Option.getD_none, sound.configured, ← begins] at turned
        rwa [round]
      have found := getElem?_place sound.present { station with cleanupDue := some due }
      have sleeps : Sleeps index settings.cleanupMillis due
          { upkeep with
            toWorkplace := upkeep.conclude
              (upkeep.installation.place index { station with cleanupDue := some due })
              (CleanupTask.sleep index settings.cleanupMillis due) }
          { station with cleanupDue := some due } :=
        ⟨sound.prompt, sound.held, found, awake,
          ⟨(cleanup_mem_tasks found).mpr (by simp [running]), there⟩, rfl⟩
      obtain ⟨more, last, run, pass, later, passes⟩ := sleeps.exists_pass early
      exact ⟨early, _, last, .head (.turn ⟨⟨started running, there⟩, ready, turned⟩) run, pass,
        List.mem_cons_of_mem _ later, passes⟩
  | asleep running rest there _ first early =>
      have same : _ = due := first unpassed spawn mem spawns
      rw [same] at rest early
      have sleeps := Sleeps.mk sound.prompt sound.held sound.present awake
        ⟨started running, there⟩ rest
      exact ⟨early unpassed unstopped, sleeps.exists_pass (early unpassed unstopped)⟩
  | between _ _ _ _ _ passed => exact absurd unpassed passed
  | finished _ _ _ reason =>
      rcases reason with stopped | unusable
      · simp [unstopped] at stopped
      · exact absurd usable unusable

/-! ## Runs -/

structure IsFresh (index : Nat) (settings : Settings) (installation : Installation) : Prop where
  prompt : installation.conduct = {}
  held : installation.engineInUse = some index
  present : ∃ rules sink recorded, installation.stations[index]? =
    some { engine := (Engine.start settings).refresh rules, sink, recorded }

theorem IsFresh.exists_sound {installation : Installation}
    (fresh : IsFresh index settings installation) :
    ∃ station, Sound index settings [] { installation } station := by
  obtain ⟨rules, sink, recorded, present⟩ := fresh.present
  exact ⟨_, fresh.prompt, fresh.held, present, rfl, rfl, rfl, fun _ => nofun,
    .unstarted rfl rfl rfl rfl (fun _ mem => nomatch mem) fun _ mem => nomatch mem⟩

theorem IsFresh.exists_sound_of_run {first : Installation} (fresh : IsFresh index settings first)
    (run : Run index { installation := first } log upkeep) :
    ∃ station, Sound index settings log upkeep station := by
  refine Logged.invariant (fun log upkeep => ∃ station, Sound index settings log upkeep station)
    fresh.exists_sound ?_ run
  rintro _ _ _ _ ⟨station, sound⟩ step
  exact (sound.carries_step step).2

theorem IsFresh.fits_of_run {first : Installation} (fresh : IsFresh index settings first)
    (run : Run index { installation := first } log upkeep) {earlier later : List Happening}
    (split : log = earlier ++ happening :: later) : happening.Fits index settings earlier := by
  obtain ⟨_, _, before, step⟩ := Logged.exists_of_split run split
  obtain ⟨station, sound⟩ := fresh.exists_sound_of_run before
  exact (sound.carries_step step).1

/-- However orders, shutdowns, the task and the clocks take their turns, history is kept as it was
last ordered before the engine was stopped. -/
theorem retention_of_run {first : Installation} (fresh : IsFresh index settings first)
    (run : Run index { installation := first } log upkeep) :
    (∀ earlier happening later, log = earlier ++ happening :: later →
      happening.Fits index settings earlier) ∧
    (CleanupTask.Usable settings.cleanupIntervalSeconds.toNat → hasStopped log = false →
      NoPass log → ∀ spawn ∈ log, spawn.Spawns index →
        let due := spawn.before.time + settings.cleanupMillis
        upkeep.installation.time ≤ due ∧ ∃ more next, Run index upkeep more next ∧
          ∃ pass ∈ more, pass.deed = .pass ∧ pass.before.time = due) ∧
    ∀ order : Order, ∃ deed after,
      (order.carryOut index).burst upkeep.installation = (.done deed, after) := by
  obtain ⟨station, sound⟩ := fresh.exists_sound_of_run run
  exact ⟨fun _ _ _ split => fresh.fits_of_run run split,
    fun usable unstopped unpassed _ mem spawns =>
      sound.exists_pass usable unstopped unpassed mem spawns,
    sound.exists_deed⟩

end

def alone : Installation where
  clock := { origin := .clamp (2 * nanosPerDay) }
  store := { history := [⟨1, 7, .clamp 0, "", ""⟩] }
  stations := [{ engine := Engine.start {}, sink := none, recorded := false }]
  engineInUse := some 0

theorem retention_of_run_of_alone :
    (∃ log last, Run 0 { installation := alone } log last ∧
      log.map Incident.deed = [.kept 1, .aside, .aside, .pass] ∧
      last.installation.store.history = [] ∧
      ∀ earlier happening later, log = earlier ++ happening :: later →
        happening.Fits 0 {} earlier) ∧
    ∃ log last, Run 0 { installation := alone } log last ∧
      log.map Incident.deed = [.kept 1] ∧ ∃ more next, Run 0 last more next ∧
        ∃ pass ∈ more, pass.deed = .pass ∧ pass.before.time = 3600000 := by
  have fresh : IsFresh 0 {} alone := ⟨rfl, rfl, [], none, false, rfl⟩
  have kept : Run 0 { installation := alone } _ _ :=
    .step .start (.order (Order.burst_keep rfl 1))
  have begun := Logged.step kept (.turn ⟨⟨(cleanup_mem_tasks rfl).mpr nofun, rfl⟩, rfl,
    CleanupTask.burst_round rfl ⟨by decide, by decide⟩⟩)
  have slept := begun.step (.sleep ⟨Nat.zero_le _, fun _ => ⟨_, rfl, fun due same =>
    (Option.some.inj ((CleanupTask.readyAt_sleep rfl rfl rfl _ _).symm.trans same)).le⟩⟩)
  have passed := slept.step (.turn ⟨⟨(cleanup_mem_tasks rfl).mpr nofun, rfl⟩,
    Sleeps.isDue ⟨rfl, rfl, rfl, rfl, ⟨(cleanup_mem_tasks rfl).mpr nofun, rfl⟩, rfl⟩ le_rfl,
    CleanupTask.burst_wake rfl rfl rfl rfl _ _⟩)
  refine ⟨⟨_, _, passed, rfl, rfl, (retention_of_run fresh passed).1⟩,
    _, _, kept, rfl, ?_⟩
  have first := (retention_of_run fresh kept).2.1 ⟨by decide, by decide⟩ rfl
    (by simp [NoPass]) _ List.mem_concat_self ⟨rfl, rfl⟩
  exact first.2

end Upkeep

end Alerting
