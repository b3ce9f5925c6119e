import Alerting.Proofs.Poller.Watch

/-!
# Punctual polls

A poller makes its polls at its ticks and at no other time until it is told to stop or nobody can
tell it anything any more. Words that urge it on do not shift its ticks.
-/

namespace Alerting

open Installation

def Poller.plan (poller : Poller) : Poller where
  readings := poller.readings
  handle := poller.handle
  interval := poller.interval

theorem Poller.hasWord_of_isDismissed {poller : Poller} (dismissed : poller.isDismissed) :
    poller.hasWord := by
  unfold isDismissed hasWord at *
  cases same : poller.signal <;> simp_all

theorem Poller.hasWord_iff {poller : Poller} :
    poller.hasWord ↔ poller.isUrged ∨ poller.isDismissed := by
  unfold hasWord isUrged isDismissed
  match poller.signal with
  | none => simp
  | some false => simp
  | some true => simp

namespace Polling

/-! ## Where the poller stands -/

/-- What holds while the poller is at work: all ticks before the time have been used for polls,
words have come between ticks, and the time is that of the last word if there is one. -/
structure OnTime (start interval : Nat) (log : List Happening) (time : Nat) (poller : Poller) :
    Prop where
  past : ∀ count < (pollTimes log).length, PollTimes.time start interval count ≤ time
  early : time ≤ PollTimes.time start interval (pollTimes log).length
  between : poller.hasWord → ∀ count, time ≠ PollTimes.time start interval count
  dismissed : poller.isDismissed = (endOf log).isSome
  ending : ∀ last, endOf log = some last → last = time

structure Beginning (start interval : Nat) (log : List Happening) (polling : Workplace)
    (poller : Poller) : Prop where
  there : polling.gone = false
  rest : polling.rest = none
  due : (poller.due <|> Activity.firstTick? interval polling.installation.time) =
    some (PollTimes.time start interval (pollTimes log).length)
  onTime : OnTime start interval log polling.installation.time poller

structure Asleep (index start interval : Nat) (log : List Happening) (polling : Workplace)
    (poller : Poller) : Prop where
  there : polling.gone = false
  rest : polling.rest = some
    (PollerTask.sleep index (PollTimes.time start interval (pollTimes log).length))
  due : poller.due = some (PollTimes.time start interval (pollTimes log).length)
  onTime : OnTime start interval log polling.installation.time poller

inductive Stage (index start interval : Nat) (log : List Happening) (polling : Workplace)
    (poller : Poller) : Prop where
  | beginning (beginning : Beginning start interval log polling poller)
  | asleep (asleep : Asleep index start interval log polling poller)
  | finished (gone : polling.gone = true) (finished : poller.finished)
      (ended : ∃ last, endOf log = some last ∧ start ≤ last ∧
        (pollTimes log).length = PollTimes.within interval (last - start))

structure Sound (index start : Nat) (plan : Poller) (log : List Happening) (polling : Workplace)
    (poller : Poller) : Prop where
  present : polling.installation.pollers[index]? = some poller
  same : poller.plan = plan
  begun : start ≤ polling.installation.time
  times : pollTimes log =
    (List.range (pollTimes log).length).map (PollTimes.time start plan.interval)
  stage : Stage index start plan.interval log polling poller

def Carries (index start : Nat) (plan : Poller) (log : List Happening) (next : Workplace)
    (happening : Happening) : Prop :=
  happening.Reports plan.handle plan.readings ∧
    (happening.Orderly (PollTimes.time start plan.interval) log →
      ∃ poller, Sound index start plan (log ++ [happening]) next poller)

section

variable {index start interval : Nat} {plan poller changed : Poller} {log : List Happening}
  {happening : Happening} {polling next : Workplace} {time : Nat} {after : Installation}

/-! ## Words and other steps from outside -/

theorem OnTime.concat (onTime : OnTime start interval log time poller)
    (unpolled : happening.deed ≠ .polled) (ongoing : ¬happening.deed.isLast)
    (word : changed.hasWord → poller.hasWord)
    (dismissed : changed.isDismissed = poller.isDismissed) :
    OnTime start interval (log ++ [happening]) time changed := by
  obtain ⟨past, early, between, told, ending⟩ := onTime
  constructor
  · rwa [pollTimes_concat_of_ne unpolled]
  · rwa [pollTimes_concat_of_ne unpolled]
  · exact fun heard => between (word heard)
  · rw [dismissed, told, endOf_concat_of_not_isLast ongoing]
  · rwa [endOf_concat_of_not_isLast ongoing]

theorem OnTime.word (onTime : OnTime start interval log time poller)
    (word : happening.deed.isWord) (now : happening.before.time = time)
    (orderly : happening.Orderly (PollTimes.time start interval) log)
    (dismissed : changed.isDismissed = (poller.isDismissed || happening.deed.isLast)) :
    OnTime start interval (log ++ [happening]) time changed := by
  obtain ⟨past, early, between, told, ending⟩ := onTime
  have unpolled : happening.deed ≠ .polled := by
    intro polled
    simp [polled, Deed.isWord] at word
  constructor
  · rwa [pollTimes_concat_of_ne unpolled]
  · rwa [pollTimes_concat_of_ne unpolled]
  · intro _ count
    cases ended : endOf log with
    | none => exact now ▸ orderly.between ended word count
    | some last =>
        have heard : poller.isDismissed := by rw [told, ended, Option.isSome_some]
        exact between (Poller.hasWord_of_isDismissed heard) count
  · rw [dismissed, told, endOf_concat]
    cases endOf log <;> cases happening.deed.isLast <;> rfl
  · intro last ended
    rw [endOf_concat] at ended
    cases before : endOf log with
    | some first =>
        rw [before, Option.some_or] at ended
        exact ending last (before.trans ended)
    | none =>
        rw [before, Option.none_or] at ended
        split at ended
        · exact (Option.some.inj ended).symm.trans now
        · cases ended

theorem OnTime.heard (onTime : OnTime start interval log time poller)
    (unpolled : happening.deed ≠ .polled) (now : happening.before.time = time)
    (orderly : happening.Orderly (PollTimes.time start interval) log) :
    OnTime start interval (log ++ [happening]) time (happening.deed.heardBy poller) := by
  cases told : happening.deed with
  | told stop =>
      refine onTime.word (by rw [told]; rfl) now orderly ?_
      rw [told]
      cases stop with
      | true => simp [Deed.heardBy, Poller.isDismissed, Deed.isLast]
      | false =>
          -- Nobody urges the poller on after a word that it is to end.
          have ongoing : poller.isDismissed = false := by
            rw [onTime.dismissed, orderly.last told, Option.isSome_none]
          have there := (Bool.or_eq_false_iff.mp ongoing).2
          rw [ongoing]
          simp [Deed.heardBy, Poller.isDismissed, Deed.isLast, there]
  | abandoned =>
      refine onTime.word (by rw [told]; rfl) now orderly ?_
      simp [told, Deed.heardBy, Poller.isDismissed, Deed.isLast]
  | polled => exact absurd told unpolled
  | attended | aside => exact onTime.concat unpolled (by simp [told, Deed.isLast]) id rfl

theorem Sound.carries_heard (sound : Sound index start plan log polling poller)
    (heard : Overhears index polling poller happening next) :
    Carries index start plan log next happening := by
  obtain ⟨unpolled, unattended, before, rfl, time, present⟩ := heard
  have times : pollTimes (log ++ [happening]) = pollTimes log := pollTimes_concat_of_ne unpolled
  refine ⟨reports_of_ne unpolled unattended, fun orderly => ⟨_, present,
    sound.same, time ▸ sound.begun, times ▸ sound.times, ?_⟩⟩
  cases sound.stage with
  | beginning beginning =>
      refine .beginning ⟨beginning.there, beginning.rest, ?_,
        time ▸ beginning.onTime.heard unpolled (before ▸ rfl) orderly⟩
      rw [times, ← beginning.due, time]
      rfl
  | asleep asleep =>
      exact .asleep ⟨asleep.there, times ▸ asleep.rest, times ▸ asleep.due,
        time ▸ asleep.onTime.heard unpolled (before ▸ rfl) orderly⟩
  | finished gone finished ended =>
      obtain ⟨last, ended, later, count⟩ := ended
      exact .finished gone finished
        ⟨last, endOf_concat_of_some ended _, later, times ▸ count⟩

/-! ## The turns of the poller -/

theorem Sound.interval_eq (sound : Sound index start plan log polling poller) :
    poller.interval = plan.interval := by
  rw [← sound.same]
  rfl

theorem pollTimes_attended (log : List Happening) (before after : Installation) :
    pollTimes (log ++ [⟨.attended, before, after⟩]) = pollTimes log :=
  pollTimes_concat_of_ne nofun

theorem OnTime.attended (onTime : OnTime start interval log time poller)
    (before after : Installation) (word : changed.hasWord → poller.hasWord)
    (dismissed : changed.isDismissed = poller.isDismissed) :
    OnTime start interval (log ++ [⟨.attended, before, after⟩]) time changed :=
  onTime.concat nofun nofun word dismissed

theorem Sound.round (sound : Sound index start plan log polling poller)
    (beginning : Beginning start plan.interval log polling poller) :
    let due := PollTimes.time start plan.interval (pollTimes log).length
    let noted := { poller with due := some due }
    let after := polling.installation.placePoller index noted
    let next := polling.conclude after (PollerTask.sleep index due)
    (PollerTask.round index).burst polling.installation = (PollerTask.sleep index due, after) ∧
      Sound index start plan (log ++ [⟨.attended, polling.installation, after⟩]) next noted ∧
      Asleep index start plan.interval (log ++ [⟨.attended, polling.installation, after⟩]) next
        noted := by
  intro due noted after next
  have times := pollTimes_attended log polling.installation after
  have asleep : Asleep index start plan.interval
      (log ++ [⟨.attended, polling.installation, after⟩]) next noted := by
    refine ⟨beginning.there, ?_, ?_, beginning.onTime.attended _ _ id rfl⟩
    · rw [times]
      rfl
    · rw [times]
  refine ⟨?_, ⟨getElem?_placePoller sound.present _, sound.same, sound.begun,
    times ▸ sound.times, .asleep asleep⟩, asleep⟩
  exact PollerTask.burst_round sound.present (sound.interval_eq ▸ beginning.due)

theorem Sound.urged (sound : Sound index start plan log polling poller)
    (asleep : Asleep index start plan.interval log polling poller) (urged : poller.isUrged) :
    let heeded := { poller with signal := none }
    let after := polling.installation.placePoller index heeded
    let next := polling.conclude after (.done true)
    Sound index start plan (log ++ [⟨.attended, polling.installation, after⟩]) next heeded ∧
      Beginning start plan.interval (log ++ [⟨.attended, polling.installation, after⟩]) next
        heeded := by
  intro heeded after next
  have times := pollTimes_attended log polling.installation after
  have urge : poller.signal = some false := beq_iff_eq.mp urged
  have beginning : Beginning start plan.interval
      (log ++ [⟨.attended, polling.installation, after⟩]) next heeded := by
    refine ⟨rfl, rfl, ?_, asleep.onTime.attended _ _ ?_ ?_⟩
    · rw [times, asleep.due]
      rfl
    · simp [heeded, Poller.hasWord, urge]
    · simp [heeded, Poller.isDismissed, urge]
  exact ⟨⟨getElem?_placePoller sound.present _, sound.same, sound.begun, times ▸ sound.times,
    .beginning beginning⟩, beginning⟩

theorem OnTime.length_eq (onTime : OnTime start interval log time poller) (positive : 0 < interval)
    (begun : start ≤ time) {last : Nat} (ended : endOf log = some last) :
    last = time ∧ (pollTimes log).length = PollTimes.within interval (last - start) := by
  have dismissed : poller.isDismissed := by rw [onTime.dismissed, ended, Option.isSome_some]
  have now := onTime.ending last ended
  have elapsed : start + (last - start) = time := by omega
  have early := Nat.lt_of_le_of_ne onTime.early
    (onTime.between (Poller.hasWord_of_isDismissed dismissed) _)
  exact ⟨now, PollTimes.eq_within positive (elapsed ▸ onTime.past) (elapsed ▸ early)⟩

theorem Sound.dismissed (sound : Sound index start plan log polling poller)
    (positive : 0 < plan.interval)
    (asleep : Asleep index start plan.interval log polling poller)
    (dismissed : poller.isDismissed) :
    let ended := { poller with finished := true }
    let after := polling.installation.placePoller index ended
    Sound index start plan (log ++ [⟨.attended, polling.installation, after⟩])
      (polling.conclude after (.done false)) ended := by
  intro ended after
  have times := pollTimes_attended log polling.installation after
  obtain ⟨last, told⟩ :=
    Option.isSome_iff_exists.mp (asleep.onTime.dismissed.symm.trans dismissed)
  obtain ⟨now, count⟩ := asleep.onTime.length_eq positive sound.begun told
  exact ⟨getElem?_placePoller sound.present _, sound.same, sound.begun, times ▸ sound.times,
    .finished rfl rfl ⟨last, endOf_concat_of_some told _, now ▸ sound.begun, times ▸ count⟩⟩

theorem OnTime.polled (onTime : OnTime start interval log time poller)
    (deed : happening.deed = .polled)
    (come : PollTimes.time start interval (pollTimes log).length ≤ time)
    (silent : ¬poller.hasWord) (signal : changed.signal = poller.signal)
    (abandoned : changed.abandoned = poller.abandoned) :
    OnTime start interval (log ++ [happening]) time changed := by
  have due := Nat.le_antisymm onTime.early come
  have length : (pollTimes (log ++ [happening])).length = (pollTimes log).length + 1 := by
    rw [pollTimes_concat deed, List.length_append, List.length_singleton]
  have ongoing : endOf (log ++ [happening]) = endOf log :=
    endOf_concat_of_not_isLast (by simp [deed, Deed.isLast])
  have word : changed.hasWord = poller.hasWord := by
    rw [Poller.hasWord, Poller.hasWord, signal, abandoned]
  have dismissed : changed.isDismissed = poller.isDismissed := by
    rw [Poller.isDismissed, Poller.isDismissed, signal, abandoned]
  constructor
  · intro count less
    rw [length] at less
    rcases Nat.lt_succ_iff_lt_or_eq.mp less with less | rfl
    · exact onTime.past count less
    · exact come
  · rw [length, PollTimes.time_succ, ← due]
    exact Nat.le_add_right ..
  · exact fun heard => absurd (word ▸ heard) silent
  · rw [dismissed, ongoing, onTime.dismissed]
  · rw [ongoing]
    exact onTime.ending

theorem Sound.polled (sound : Sound index start plan log polling poller)
    (asleep : Asleep index start plan.interval log polling poller)
    (come : PollTimes.time start plan.interval (pollTimes log).length ≤ polling.installation.time)
    (silent : ¬poller.hasWord) :
    let due := PollTimes.time start plan.interval (pollTimes log).length
    let noted := { poller with due := some (due + PollTimes.period plan.interval) }
    let after := (polling.installation.placePoller index noted).reported poller.handle
      poller.readings
    (PollerTask.wake index due).burst polling.installation = (.done true, after) ∧
      Happening.Reports plan.handle plan.readings ⟨.polled, polling.installation, after⟩ ∧
      Sound index start plan (log ++ [⟨.polled, polling.installation, after⟩])
        (polling.conclude after (.done true)) noted := by
  intro due noted after
  have onTime := asleep.onTime
  -- It is neither early nor late, as no time has passed beyond the tick.
  have now : polling.installation.time = due := Nat.le_antisymm onTime.early come
  have left : after = { polling.installation.reported poller.handle poller.readings with
      pollers := polling.installation.pollers.set index noted } := reported_pollers ..
  have time : after.time = polling.installation.time := time_reported ..
  have times : pollTimes (log ++ [⟨.polled, polling.installation, after⟩]) =
      pollTimes log ++ [due] := by
    rw [pollTimes_concat rfl, now]
  have length : (pollTimes (log ++ [⟨.polled, polling.installation, after⟩])).length =
      (pollTimes log).length + 1 := by
    rw [times, List.length_append, List.length_singleton]
  refine ⟨PollerTask.burst_wake sound.present silent ?_, ?_, ?_, sound.same, ?_, ?_,
    .beginning ⟨rfl, rfl, ?_, ?_⟩⟩
  · rw [PollerTask.nextPoll?_of_eq now, sound.interval_eq]
  · rw [← sound.same]
    exact left.trans (by rw [left]; rfl)
  · change after.pollers[index]? = some noted
    rw [left]
    exact getElem?_placePoller sound.present noted
  · exact time.symm ▸ sound.begun
  · rw [length, times, List.range_succ, List.map_append, ← sound.times]
    rfl
  · rw [length, PollTimes.time_succ]
    rfl
  · change OnTime start plan.interval _ after.time noted
    rw [time]
    exact onTime.polled rfl come silent rfl rfl

theorem deedOf_of_rest_eq_none (unbegun : polling.rest = none) :
    deedOf polling index = .attended := by
  simp [deedOf, unbegun]

theorem deedOf_of_rest {rest : Work Bool} (begun : polling.rest = some rest)
    (present : polling.installation.pollers[index]? = some poller) :
    deedOf polling index = if poller.hasWord then .attended else .polled := by
  simp only [deedOf, begun, present, Option.isSome_some, Option.any_some, true_and]
  cases poller.hasWord <;> rfl

theorem Sound.carries_turn (sound : Sound index start plan log polling poller)
    (positive : 0 < plan.interval) {left : Work Bool}
    (turn : polling.Turn (.poller index) left after) :
    Carries index start plan log (polling.conclude after left)
      ⟨deedOf polling index, polling.installation, after⟩ := by
  obtain ⟨present, due, turned⟩ := turn
  cases sound.stage with
  | beginning beginning =>
      obtain ⟨begun, still, -⟩ := sound.round beginning
      rw [Workplace.current_of_none beginning.rest] at turned
      obtain ⟨rfl, rfl⟩ := Prod.mk.inj (turned.symm.trans begun)
      rw [deedOf_of_rest_eq_none beginning.rest]
      exact ⟨rfl, fun _ => ⟨_, still⟩⟩
  | asleep asleep =>
      rw [Workplace.current_of_some asleep.rest] at due turned
      rw [deedOf_of_rest asleep.rest sound.present]
      by_cases heard : poller.hasWord
      · rw [if_pos heard]
        by_cases urged : poller.isUrged
        · obtain ⟨rfl, rfl⟩ := Prod.mk.inj (turned.symm.trans
            (PollerTask.burst_wake_of_urged sound.present urged _))
          exact ⟨rfl, fun _ => ⟨_, (sound.urged asleep urged).1⟩⟩
        · have dismissed := (Poller.hasWord_iff.mp heard).resolve_left urged
          obtain ⟨rfl, rfl⟩ := Prod.mk.inj (turned.symm.trans
            (PollerTask.burst_wake_of_dismissed sound.present dismissed urged _))
          exact ⟨rfl, fun _ => ⟨_, sound.dismissed positive asleep dismissed⟩⟩
      · rw [if_neg heard]
        rw [World.isDue, PollerTask.readyAt_sleep sound.present, if_neg heard,
          Option.any_some] at due
        obtain ⟨woken, reports, still⟩ := sound.polled asleep (of_decide_eq_true due) heard
        obtain ⟨rfl, rfl⟩ := Prod.mk.inj (turned.symm.trans woken)
        exact ⟨reports, fun _ => ⟨_, still⟩⟩
  | finished gone => exact absurd present.2 (by simp [gone])

/-! ## The passing of time -/

theorem OnTime.elapse (onTime : OnTime start interval log time poller) {other : Nat}
    (later : time ≤ other)
    (early : other ≤ PollTimes.time start interval (pollTimes log).length)
    (still : poller.hasWord → other = time) : OnTime start interval log other poller where
  past count less := Nat.le_trans (onTime.past count less) later
  early := early
  between heard := still heard ▸ onTime.between heard
  dismissed := onTime.dismissed
  ending last ended := by
    have dismissed : poller.isDismissed := by rw [onTime.dismissed, ended, Option.isSome_some]
    rw [onTime.ending last ended, still (Poller.hasWord_of_isDismissed dismissed)]

theorem Asleep.elapse (asleep : Asleep index start interval log polling poller)
    (present : polling.installation.pollers[index]? = some poller)
    (allowed : polling.MaySleep (.poller index) time) :
    Asleep index start interval log
      { polling with installation := { polling.installation with time } } poller := by
  have bound := allowed.le_due ⟨poller_mem_tasks present, asleep.there⟩ asleep.rest
    (PollerTask.readyAt_sleep present _)
  have onTime := asleep.onTime
  refine ⟨asleep.there, asleep.rest, asleep.due, onTime.elapse allowed.later ?_ fun heard => ?_⟩
  · split at bound
    · exact Nat.le_trans bound (Nat.zero_le _)
    · exact bound
  · rw [if_pos heard] at bound
    exact Nat.le_antisymm (Nat.le_trans bound (Nat.zero_le _)) allowed.later

theorem Sound.carries_sleep (sound : Sound index start plan log polling poller)
    (allowed : polling.MaySleep (.poller index) time) :
    let after := { polling.installation with time }
    Carries index start plan log { polling with installation := after }
      ⟨.aside, polling.installation, after⟩ := by
  intro after
  have times : pollTimes (log ++ [⟨.aside, polling.installation, after⟩]) = pollTimes log :=
    pollTimes_concat_of_ne nofun
  refine ⟨trivial, fun _ => ⟨poller, sound.present, sound.same,
    Nat.le_trans sound.begun allowed.later, times.symm ▸ sound.times, ?_⟩⟩
  cases sound.stage with
  | beginning beginning =>
      exact absurd beginning.rest
        (allowed.rest_ne_none ⟨poller_mem_tasks sound.present, beginning.there⟩)
  | asleep asleep =>
      obtain ⟨there, rest, due, onTime⟩ := asleep.elapse sound.present allowed
      refine .asleep ⟨there, ?_, ?_, onTime.concat nofun nofun id rfl⟩
      · rwa [times]
      · rwa [times]
  | finished gone finished ended =>
      obtain ⟨last, ended, later, count⟩ := ended
      exact .finished gone finished
        ⟨last, endOf_concat_of_some ended _, later, times.symm ▸ count⟩

/-! ## Every step -/

theorem Sound.carries_step (sound : Sound index start plan log polling poller)
    (positive : 0 < plan.interval) (step : Step index polling happening next) :
    Carries index start plan log next happening := by
  rcases step.cases sound.present with
    heard | ⟨rest, after, turn, rfl, rfl⟩ | ⟨time, allowed, rfl, rfl⟩
  · exact sound.carries_heard heard
  · exact sound.carries_turn positive turn
  · exact sound.carries_sleep allowed

end

end Polling

end Alerting
