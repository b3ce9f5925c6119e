import Alerting.Proofs.Engine.Isolation
import Alerting.Proofs.Tracker.Coverage

/-!
# What a match rests on

A rule on a metric whose conditions ask for a while matches only on evidence: some event that has
been handled carried a reading of which the comparison holds, and that came early enough in the
window that ends now. So all of the window but its grace passes between that reading and the match,
unless both lie in one leap second.
-/

namespace Alerting

def Event.Carries (event : Event) (metric : String) (sample : Sample) : Prop :=
  event.trigger = .metric metric ∧ event.metricValue? = some sample.value ∧
    event.timestamp = some sample.timestamp

def readingsIn (events : List Event) : List (String × Sample) :=
  events.filterMap fun event => event.timestamp.bind event.reading?

namespace Condition

/-- Whether a reading bears out that a condition holds at a later time, when so much of a window may
be missing. -/
structure BorneOut (condition : Condition) (percent : Nat) (now : Instant) (sample : Sample) :
    Prop where
  satisfied : ∃ number, Number.parse? condition.operand = some number ∧
    condition.operator.compare sample.value number
  past : sample.timestamp ≤ now
  early : ∃ first, now.sub? (.seconds condition.duration.toNat) = some first ∧
    first ≤ sample.timestamp ∧
    ∀ last, first.add? (.millis (10 * condition.duration.toNat * percent)) = some last →
      sample.timestamp ≤ last

/-- Whether all of a window but the part of it that may be missing has passed since an instant. -/
def Lasted (condition : Condition) (percent : Nat) (since now : Instant) : Prop :=
  (100 - percent : Int) * condition.duration.toNat * nanosPerSecond ≤ 100 * since.elapsed now

end Condition

/-- Whether two instants lie in the same leap second. -/
def Instant.ShareLeap (left right : Instant) : Prop :=
  left.isLeap ∧ right.isLeap ∧ left.second = right.second

/-! ## Readings and the events they come from -/

theorem readingsIn_append (events others : List Event) :
    readingsIn (events ++ others) = readingsIn events ++ readingsIn others :=
  List.filterMap_append ..

theorem readingsIn_singleton {event : Event} {now : Instant} (timely : event.timestamp = some now) :
    readingsIn [event] = (event.reading? now).toList := by
  unfold readingsIn
  rw [List.filterMap_cons, timely, Option.bind_some]
  cases event.reading? now <;> rfl

theorem exists_carries {events : List Event} {metric : String} {sample : Sample}
    (mem : sample ∈ readingsOf metric (readingsIn events)) :
    ∃ event ∈ events, event.Carries metric sample := by
  obtain ⟨⟨name, _⟩, filtered, rfl⟩ := List.mem_map.mp mem
  obtain ⟨listed, named⟩ := List.mem_filter.mp filtered
  obtain ⟨event, hevent, carried⟩ := List.mem_filterMap.mp listed
  obtain rfl := eq_of_beq named
  obtain ⟨now, timely, carried⟩ := Option.bind_eq_some_iff.mp carried
  have isMetric := Engine.metric_of_reading? carried
  rw [Engine.reading?_of_metric isMetric] at carried
  obtain ⟨value, hvalue, same⟩ := Option.map_eq_some_iff.mp carried
  cases same
  exact ⟨event, hevent, isMetric, hvalue, timely⟩

/-! ## Sustained conditions -/

theorem Settings.grace_le_of_validate {settings : Settings} (valid : settings.validate = .ok ()) :
    settings.tracker.coverageGracePercent ≤ 100 := by
  unfold validate defect? TrackerSettings.defect? at valid
  grind

theorem TrackerSettings.grace_seconds {settings : TrackerSettings}
    (valid : settings.coverageGracePercent ≤ 100) {count : Int} (nonneg : 0 ≤ count)
    (bound : count < 20000000000000) :
    settings.grace (.seconds count) =
      .millis (10 * count * settings.coverageGracePercent.toNat) := by
  have length : Span.seconds count = .millis (count * 1000) := by
    unfold Span.seconds Span.millis
    congr 1
    omega
  rw [length, grace_millis valid (by omega) (by omega)]
  congr 1
  rw [Int.mul_right_comm, Int.mul_assoc 10]
  omega

variable {condition : Condition} {now : Instant} {sample : Sample}

theorem Condition.BorneOut.lasted {percent : Nat} (valid : percent ≤ 100)
    (sustained : condition.duration ≠ 0) (borneOut : condition.BorneOut percent now sample) :
    condition.Lasted percent sample.timestamp now ∨ sample.timestamp.ShareLeap now := by
  obtain ⟨first, begins, -, soon⟩ := borneOut.early
  have positive : 0 < condition.duration.toNat := by
    rw [Nat.pos_iff_ne_zero]
    exact fun zero => sustained (UInt64.toNat_inj.mp zero)
  have bounds := percent_bounds (Int.natCast_nonneg condition.duration.toNat) valid
  rw [Int.mul_assoc] at soon
  have passed := Instant.le_elapsed_of_early (by omega) (by omega) (by omega) begins borneOut.past
    soon
  refine passed.imp_left fun passed => ?_
  unfold Lasted
  rw [Int.sub_mul, Int.mul_comm percent]
  unfold nanosPerSecond at *
  omega

theorem exists_borneOut_of_isSustained {settings : TrackerSettings}
    (valid : settings.coverageGracePercent ≤ 100) {events : List Event} {metric : String}
    (sustained : ((Tracker.start settings).recordAll (readingsIn events)).isSustained metric
      condition.operator condition.operand (.seconds condition.duration.toNat) now) :
    ∃ event ∈ events, ∃ sample, event.Carries metric sample ∧
      condition.BorneOut settings.coverageGracePercent.toNat now sample := by
  rw [Tracker.isSustained_recordAll, TrackerSettings.judges, Option.any_eq_true] at sustained
  obtain ⟨number, hnumber, sustained⟩ := sustained
  obtain ⟨first, hfirst, ⟨sample, held, late, past, early⟩, holds⟩ :=
    TrackerSettings.sustained_iff.mp sustained
  obtain ⟨event, hevent, carries⟩ := exists_carries ((settings.held_suffix _).subset held)
  have bound := Instant.count_of_sub?_seconds (by omega) hfirst
  refine ⟨event, hevent, sample, carries, ⟨number, hnumber, holds sample held late past⟩, past,
    first, hfirst, late, ?_⟩
  intro last hlast
  rw [← TrackerSettings.grace_seconds valid (by omega) bound] at hlast
  unfold TrackerSettings.deadline at early
  rw [hlast] at early
  exact early

/-! ## Matches -/

namespace Engine

variable {engine : Engine} {event : Event} {rule : Rule}

def informed (settings : Settings) (rules : List Rule) (events : List Event) : Engine :=
  { (start settings).refresh rules with
    tracker := (Tracker.start settings.tracker).recordAll (readingsIn events) }

theorem perm_decide (engine : Engine) (event : Event) (now : Instant) (handling : Handling)
    (rules : List Rule) :
    let decided := (engine.decide event now handling rules).1
    (decided.fired ++ decided.suppressed).Perm
      (handling.fired ++ handling.suppressed ++
        (rules.filter fun rule => engine.ruleMatches rule event now).map Rule.id) := by
  induction rules generalizing engine handling with
  | nil => simp [Engine.decide]
  | cons rule rules ih =>
      have same (other : Rule) : (engine.consider rule event now).2.ruleMatches other event now =
          engine.ruleMatches other event now := ruleMatches_of_tracker tracker_consider
      rw [decide_cons]
      refine (ih ..).trans ?_
      simp only [same, Handling.fired_add, Handling.suppressed_add, List.filter_cons]
      have matching (matched : engine.verdict rule event now ≠ .unmatched) :
          engine.ruleMatches rule event now = true := by
        simpa [verdict_eq_unmatched_iff] using matched
      cases decided : engine.verdict rule event now with
      | unmatched => simp [verdict_eq_unmatched_iff.mp decided]
      | suppressed =>
          simp [matching (by simp [decided])]
      | fires =>
          simpa [matching (by simp [decided])] using
            List.perm_middle.symm.append_left handling.fired

theorem exists_borneOut_of_ruleMatches {settings : Settings}
    (valid : settings.tracker.coverageGracePercent ≤ 100) {rules : List Rule} {events : List Event}
    (isMatch : (informed settings rules events).ruleMatches rule event now) {metric : String}
    (isMetric : rule.trigger = .metric metric) (mem : condition ∈ rule.conditions)
    (sustained : condition.duration ≠ 0) :
    ∃ earlier ∈ events, ∃ sample, earlier.Carries metric sample ∧
      condition.BorneOut settings.tracker.coverageGracePercent.toNat now sample := by
  rw [ruleMatches_eq, Bool.and_eq_true, List.all_eq_true] at isMatch
  have holds := isMatch.2 condition mem
  have window : condition.window = some (.seconds condition.duration.toNat) := if_neg sustained
  simp only [conditionHolds, isMetric, metricHolds, window] at holds
  exact exists_borneOut_of_isSustained valid holds

end Engine

/-! ## Whole runs -/

namespace Installation

open Activity

variable {event : Event} {engine final : Engine} {events : List Event} {handling : Handling}
  {handlings : List Handling}

theorem answer_of_chain (chain : Chain Answers engine events handlings final) {place : Nat}
    (asked : events[place]? = some event) (answered : handlings[place]? = some handling) :
    ∃ (before : Engine) (now : Instant), event.timestamp = some now ∧
      handling = (before.handle event now).1 ∧
      before.rules = engine.rules ∧
      before.tracker = engine.tracker.recordAll (readingsIn (events.take place)) := by
  induction chain generalizing place with
  | nil engine => cases asked
  | cons first rest ih =>
      obtain ⟨timely⟩ := first
      cases place with
      | zero =>
          cases asked
          cases answered
          exact ⟨_, _, timely, rfl, rfl, rfl⟩
      | succ place =>
          obtain ⟨before, now, hnow, handled, sameRules, told⟩ := ih asked answered
          refine ⟨before, now, hnow, handled, sameRules.trans Engine.rules_handle, ?_⟩
          rw [told, Engine.tracker_handle, ← readingsIn_singleton timely,
            ← Tracker.recordAll_append, ← readingsIn_append, List.singleton_append,
            List.take_succ_cons]

theorem perm_of_chain {settings : Settings} {rules : List Rule}
    (chain : Chain Answers ((Engine.start settings).refresh rules) events handlings final)
    {place : Nat} {now : Instant} (asked : events[place]? = some event)
    (answered : handlings[place]? = some handling) (timely : event.timestamp = some now) :
    (handling.fired ++ handling.suppressed).Perm
      ((rules.filter fun rule => (Engine.informed settings rules
        (events.take (place + 1))).ruleMatches rule event now).map Rule.id) := by
  obtain ⟨before, _, hnow, rfl, sameRules, told⟩ := answer_of_chain chain asked answered
  cases timely.symm.trans hnow
  have known : (before.observe event now).2.tracker =
      (Engine.informed settings rules (events.take (place + 1))).tracker := by
    rw [Engine.observe_eq, ← readingsIn_singleton timely, told, ← Tracker.recordAll_append,
      ← readingsIn_append, List.take_add_one, asked]
    rfl
  have same (rule : Rule) : (before.observe event now).2.ruleMatches rule event now =
      (Engine.informed settings rules (events.take (place + 1))).ruleMatches rule event now :=
    Engine.ruleMatches_of_tracker known
  have decided := (before.observe event now).2.perm_decide event now
    { recorded := (before.observe event now).1 } before.rules
  rw [← Engine.handle_eq_decide] at decided
  simp only [same, sameRules] at decided
  exact decided

/-- Every match of a rule on a metric rests on evidence for each of its conditions that ask for a
while. -/
theorem evidence_of_match {settings : Settings} (valid : settings.validate = .ok ())
    {rules : List Rule} (timely : ∀ event ∈ events, event.timestamp.isSome) {index : Nat}
    {first last : Installation}
    (fresh : engineAt index first = some ((Engine.start settings).refresh rules))
    (ends : Ends (engineAt index) (events.mapM (handle index)) first handlings last) :
    handlings.length = events.length ∧
      ∀ place event handling now, events[place]? = some event →
        handlings[place]? = some handling → event.timestamp = some now →
        let known := events.take (place + 1)
        let grace := settings.tracker.coverageGracePercent.toNat
        let matching := rules.filter fun rule =>
          (Engine.informed settings rules known).ruleMatches rule event now
        (handling.fired ++ handling.suppressed).Perm (matching.map Rule.id) ∧
          ∀ rule ∈ matching, ∀ metric, rule.trigger = .metric metric →
            ∀ condition ∈ rule.conditions, condition.duration ≠ 0 →
              ∃ earlier ∈ known, ∃ sample, earlier.Carries metric sample ∧
                condition.BorneOut grace now sample ∧
                (condition.Lasted grace sample.timestamp now ∨ sample.timestamp.ShareLeap now) := by
  obtain ⟨_, _, chain⟩ := chain_of_ends timely fresh ends
  refine ⟨length_of_chain chain, ?_⟩
  intro place event handling now asked answered hnow
  refine ⟨perm_of_chain chain asked answered hnow, ?_⟩
  intro rule mem metric isMetric condition hcondition sustained
  have isMatch := (List.mem_filter.mp mem).2
  have limited := Settings.grace_le_of_validate valid
  obtain ⟨earlier, hearlier, sample, carries, borneOut⟩ :=
    Engine.exists_borneOut_of_ruleMatches limited isMatch isMetric hcondition sustained
  exact ⟨earlier, hearlier, sample, carries, borneOut, borneOut.lasted limited sustained⟩

theorem evidence_of_match_of_shift :
    ∃ earlier ∈ shift.take 2, ∃ sample, earlier.Carries "cpu" sample ∧
      Condition.BorneOut ⟨"value", .greaterThan, "90", 30⟩ 20 (.clamp 25000000000) sample ∧
      (Condition.Lasted ⟨"value", .greaterThan, "90", 30⟩ 20 sample.timestamp
          (.clamp 25000000000) ∨
        sample.timestamp.ShareLeap (.clamp 25000000000)) := by
  have ends : ∃ last, Ends (engineAt 0) (shift.mapM (handle 0)) (withEngine [warm, hot] {} none)
      shared last :=
    exists_ends_of_run (fun _ _ => rfl) (by decide +kernel)
  obtain ⟨_, ends⟩ := ends
  obtain ⟨_, answers⟩ := evidence_of_match rfl (by decide) rfl ends
  obtain ⟨_, based⟩ := answers 1 (load 96 25) _ (.clamp 25000000000) rfl rfl rfl
  exact based hot (by decide +kernel) "cpu" rfl _ List.mem_cons_self (by decide)

def spike : Rule := { hot with conditions := [⟨"value", .greaterThan, "90", 1⟩] }

def leapLoad : Event :=
  { load 95 0 with
    timestamp := some ⟨1435708799, 1900000000, by decide, by decide, by decide, by decide⟩ }

/-- In a leap second the window of a second ends at a reading that it may begin with. -/
theorem not_forall_lasted_of_match :
    ¬∀ (settings : Settings) (rules : List Rule) (events : List Event) (handlings : List Handling)
      (index : Nat) (first last : Installation),
      settings.validate = .ok () → (rules.map Rule.id).Nodup →
      (∀ event ∈ events, event.timestamp.isSome) →
      engineAt index first = some ((Engine.start settings).refresh rules) →
      Ends (engineAt index) (events.mapM (handle index)) first handlings last →
      ∀ (place : Nat) (event : Event) (handling : Handling) (now : Instant),
        events[place]? = some event → handlings[place]? = some handling →
        event.timestamp = some now →
        ∀ rule ∈ rules, rule.id ∈ handling.fired ++ handling.suppressed →
          ∀ metric, rule.trigger = .metric metric →
            ∀ condition ∈ rule.conditions, condition.duration ≠ 0 →
              ∃ earlier ∈ events.take (place + 1), ∃ sample, earlier.Carries metric sample ∧
                condition.BorneOut settings.tracker.coverageGracePercent.toNat now sample ∧
                condition.Lasted settings.tracker.coverageGracePercent.toNat sample.timestamp
                  now := by
  intro lasted
  have ends : ∃ last, Ends (engineAt 0) ([leapLoad].mapM (handle 0)) (withEngine [spike] {} none)
      [{ recorded := true, evaluated := 1, matched := 1, fired := [1] }] last :=
    exists_ends_of_run (fun _ _ => rfl) (by decide +kernel)
  obtain ⟨_, ends⟩ := ends
  obtain ⟨earlier, mem, sample, ⟨_, _, taken⟩, _, lasted⟩ :=
    lasted {} [spike] _ _ 0 _ _ rfl (by decide) (by decide) rfl ends 0 leapLoad _ _ rfl rfl rfl
      spike List.mem_cons_self (by decide) "cpu" rfl _ List.mem_cons_self (by decide)
  obtain rfl := List.mem_singleton.mp mem
  unfold Condition.Lasted at lasted
  rw [← Option.some.inj taken] at lasted
  revert lasted
  decide

end Installation

end Alerting
