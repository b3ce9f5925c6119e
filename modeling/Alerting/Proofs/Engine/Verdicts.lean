import Mathlib.Data.List.Nodup
import Alerting.Proofs.Engine.Cooldown
import Alerting.Proofs.Tracker.Buffer

/-!
# What an engine decides on an event

The verdict on a rule depends on the last fire of that rule and on the readings of its metric alone.
So the verdicts on rules with different identities do not depend on one another, and an engine that
decides on one rule after another gives each of them the verdict that it has at the beginning.
-/

namespace Alerting

def Event.reading? (event : Event) (now : Instant) : Option (String × Sample) := do
  let metric ← event.trigger.metricName?
  let value ← event.metricValue?
  some (metric, ⟨value, now⟩)

namespace Handling

variable {handling : Handling} {rule : Rule} {verdict : Verdict}

theorem recorded_add : (handling.add rule verdict).recorded = handling.recorded := by
  cases verdict <;> rfl

theorem evaluated_add : (handling.add rule verdict).evaluated = handling.evaluated + 1 := by
  cases verdict <;> rfl

theorem matched_add :
    (handling.add rule verdict).matched =
      handling.matched + if verdict = .unmatched then 0 else 1 := by
  cases verdict <;> rfl

theorem fired_add :
    (handling.add rule verdict).fired =
      handling.fired ++ if verdict = .fires then [rule.id] else [] := by
  cases verdict <;> simp [add]

theorem suppressed_add :
    (handling.add rule verdict).suppressed =
      handling.suppressed ++ if verdict = .suppressed then [rule.id] else [] := by
  cases verdict <;> simp [add]

end Handling

namespace Engine

variable {engine left right : Engine} {rule other : Rule} {event : Event} {now : Instant}

def verdict (engine : Engine) (rule : Rule) (event : Event) (now : Instant) : Verdict :=
  (engine.consider rule event now).1

/-! ## Readings -/

theorem observe_eq (engine : Engine) (event : Event) (now : Instant) :
    engine.observe event now =
      ((event.reading? now).isSome,
       { engine with tracker := engine.tracker.recordAll (event.reading? now).toList }) := by
  unfold observe Event.reading?
  cases event.trigger.metricName? with
  | none => rfl
  | some metric => cases event.metricValue? <;> rfl

theorem reading?_of_metric {metric : String} (isMetric : event.trigger = .metric metric) :
    event.reading? now = event.metricValue?.map fun value => (metric, ⟨value, now⟩) := by
  unfold Event.reading?
  rw [isMetric]
  cases event.metricValue? <;> rfl

theorem metric_of_reading? {reading : String × Sample}
    (carried : event.reading? now = some reading) : event.trigger = .metric reading.1 := by
  obtain ⟨objectType, trigger, properties, timestamp⟩ := event
  cases trigger with
  | event name => cases carried
  | metric name =>
      rw [reading?_of_metric rfl] at carried
      obtain ⟨value, _, rfl⟩ := Option.map_eq_some_iff.mp carried
      rfl

/-! ## One rule -/

theorem verdict_eq :
    engine.verdict rule event now =
      if engine.ruleMatches rule event now then
        verdictAfter rule.cooldownSeconds (engine.lastFired rule.id) now
      else .unmatched := by
  unfold verdict consider
  split
  · exact verdict_claim
  · rfl

theorem verdict_eq_unmatched_iff :
    engine.verdict rule event now = .unmatched ↔ engine.ruleMatches rule event now = false := by
  rw [verdict_eq]
  unfold verdictAfter
  split
  · split <;> simp [*]
  · simp [*]

theorem ruleMatches_of_tracker (same : left.tracker = right.tracker) :
    left.ruleMatches rule event now = right.ruleMatches rule event now := by
  unfold ruleMatches metricHolds
  rw [same]

theorem tracker_consider : (engine.consider rule event now).2.tracker = engine.tracker := by
  unfold consider claim
  split
  · split <;> rfl
  · rfl

theorem rules_consider : (engine.consider rule event now).2.rules = engine.rules := by
  unfold consider
  split
  · exact rules_claim ..
  · rfl

theorem settings_consider : (engine.consider rule event now).2.settings = engine.settings := by
  unfold consider claim
  split
  · split <;> rfl
  · rfl

theorem lastFired_consider (id : UInt64) :
    (engine.consider rule event now).2.lastFired id =
      if id = rule.id ∧ engine.verdict rule event now = .fires then some now
      else engine.lastFired id := by
  unfold verdict consider
  split
  · by_cases same : id = rule.id
    · subst same
      rw [lastFired_claim_self]
      simp
    · rw [lastFired_claim_ne same, if_neg (by simp [same])]
  · simp

/-- Whether two engines know the same of what the verdict on a rule depends on. -/
structure AlikeOn (rule : Rule) (left right : Engine) : Prop where
  lastFired : left.lastFired rule.id = right.lastFired rule.id
  settings : left.tracker.settings = right.tracker.settings
  samples : ∀ metric, rule.trigger = .metric metric →
    left.tracker.samples metric = right.tracker.samples metric

theorem alikeOn_of_tracker (lastFired : left.lastFired rule.id = right.lastFired rule.id)
    (tracker : left.tracker = right.tracker) : AlikeOn rule left right where
  lastFired := lastFired
  settings := by rw [tracker]
  samples := by simp [tracker]

theorem AlikeOn.trans {middle : Engine} (first : AlikeOn rule left middle)
    (second : AlikeOn rule middle right) : AlikeOn rule left right where
  lastFired := first.lastFired.trans second.lastFired
  settings := first.settings.trans second.settings
  samples metric isMetric :=
    (first.samples metric isMetric).trans (second.samples metric isMetric)

theorem AlikeOn.conditionHolds (alike : AlikeOn rule left right) (condition : Condition) :
    left.conditionHolds rule condition event now =
      right.conditionHolds rule condition event now := by
  unfold Engine.conditionHolds
  cases trigger : rule.trigger with
  | event name => rfl
  | metric metric =>
      simp only [metricHolds, Tracker.isSustained, alike.settings, alike.samples metric trigger]

theorem AlikeOn.ruleMatches (alike : AlikeOn rule left right) :
    left.ruleMatches rule event now = right.ruleMatches rule event now := by
  simp only [ruleMatches_eq, alike.conditionHolds]

theorem AlikeOn.verdict (alike : AlikeOn rule left right) :
    left.verdict rule event now = right.verdict rule event now := by
  rw [verdict_eq, verdict_eq, alike.ruleMatches, alike.lastFired]

theorem alikeOn_consider_ne (ne : other.id ≠ rule.id) :
    AlikeOn other (engine.consider rule event now).2 engine := by
  apply alikeOn_of_tracker
  · rw [lastFired_consider, if_neg (by simp [ne])]
  · exact tracker_consider

/-! ## One rule after another -/

theorem decide_cons (handling : Handling) (rules : List Rule) :
    engine.decide event now handling (rule :: rules) =
      (engine.consider rule event now).2.decide event now
        (handling.add rule (engine.verdict rule event now)) rules := rfl

theorem tracker_decide {handling : Handling} {rules : List Rule} :
    (engine.decide event now handling rules).2.tracker = engine.tracker := by
  induction rules generalizing engine handling with
  | nil => rfl
  | cons rule rules ih => rw [decide_cons, ih, tracker_consider]

theorem rules_decide {handling : Handling} {rules : List Rule} :
    (engine.decide event now handling rules).2.rules = engine.rules := by
  induction rules generalizing engine handling with
  | nil => rfl
  | cons rule rules ih => rw [decide_cons, ih, rules_consider]

def withVerdict (engine : Engine) (verdict : Verdict) (event : Event) (now : Instant)
    (rules : List Rule) : List UInt64 :=
  (rules.filter fun rule => engine.verdict rule event now = verdict).map Rule.id

theorem withVerdict_cons {verdict : Verdict} {rules : List Rule} :
    engine.withVerdict verdict event now (rule :: rules) =
      (if engine.verdict rule event now = verdict then [rule.id] else []) ++
        engine.withVerdict verdict event now rules := by
  unfold withVerdict
  rw [List.filter_cons]
  split <;> simp_all

theorem withVerdict_consider {verdict : Verdict} {rules : List Rule}
    (apart : rule.id ∉ rules.map Rule.id) :
    (engine.consider rule event now).2.withVerdict verdict event now rules =
      engine.withVerdict verdict event now rules := by
  apply congrArg (List.map Rule.id)
  apply List.filter_congr
  intro other mem
  have ne : other.id ≠ rule.id := fun same => apart (same ▸ List.mem_map_of_mem mem)
  rw [(alikeOn_consider_ne ne).verdict]

theorem decide_of_distinct {handling : Handling} {rules : List Rule}
    (distinct : (rules.map Rule.id).Nodup) :
    (engine.decide event now handling rules).1 =
      { recorded := handling.recorded
        evaluated := handling.evaluated + rules.length
        matched := handling.matched +
          ((engine.withVerdict .fires event now rules).length +
            (engine.withVerdict .suppressed event now rules).length)
        fired := handling.fired ++ engine.withVerdict .fires event now rules
        suppressed := handling.suppressed ++
          engine.withVerdict .suppressed event now rules } := by
  induction rules generalizing engine handling with
  | nil => simp [Engine.decide, withVerdict]
  | cons rule rules ih =>
      obtain ⟨apart, distinct⟩ := List.nodup_cons.mp distinct
      rw [decide_cons, ih distinct]
      simp only [withVerdict_consider apart, withVerdict_cons, List.length_cons]
      cases engine.verdict rule event now <;> simp [Handling.add] <;> omega

theorem lastFired_decide {handling : Handling} {rules : List Rule}
    (distinct : (rules.map Rule.id).Nodup) (id : UInt64) :
    (engine.decide event now handling rules).2.lastFired id =
      if id ∈ engine.withVerdict .fires event now rules then some now
      else engine.lastFired id := by
  induction rules generalizing engine handling with
  | nil => rfl
  | cons rule rules ih =>
      obtain ⟨apart, distinct⟩ := List.nodup_cons.mp distinct
      rw [decide_cons, ih distinct, withVerdict_consider apart, withVerdict_cons,
        lastFired_consider]
      by_cases fires : engine.verdict rule event now = .fires
      · by_cases same : id = rule.id <;> simp [fires, same]
      · simp [fires]

theorem mem_withVerdict {verdict : Verdict} {rules : List Rule}
    (distinct : (rules.map Rule.id).Nodup) (mem : rule ∈ rules) :
    rule.id ∈ engine.withVerdict verdict event now rules ↔
      engine.verdict rule event now = verdict := by
  unfold withVerdict
  constructor
  · intro listed
    obtain ⟨other, hother, same⟩ := List.mem_map.mp listed
    obtain ⟨hmem, hverdict⟩ := List.mem_filter.mp hother
    rw [List.inj_on_of_nodup_map distinct hmem mem same] at hverdict
    simpa using hverdict
  · intro hverdict
    exact List.mem_map_of_mem (List.mem_filter.mpr ⟨mem, by simpa using hverdict⟩)

theorem withVerdict_sublist {verdict : Verdict} {rules : List Rule} :
    (engine.withVerdict verdict event now rules).Sublist (rules.map Rule.id) :=
  List.filter_sublist.map _

/-! ## One event -/

theorem handle_eq_decide (engine : Engine) (event : Event) (now : Instant) :
    engine.handle event now =
      (engine.observe event now).2.decide event now
        { recorded := (engine.observe event now).1 } engine.rules := by
  unfold handle
  rw [observe_eq]

theorem rules_handle : (engine.handle event now).2.rules = engine.rules := by
  rw [handle_eq_decide, rules_decide, rules_observe]

theorem tracker_handle :
    (engine.handle event now).2.tracker =
      engine.tracker.recordAll (event.reading? now).toList := by
  rw [handle_eq_decide, tracker_decide, observe_eq]

theorem handle_of_distinct (distinct : (engine.rules.map Rule.id).Nodup) :
    let seen := (engine.observe event now).2
    let fired := seen.withVerdict .fires event now engine.rules
    let suppressed := seen.withVerdict .suppressed event now engine.rules
    (engine.handle event now).1 =
      { recorded := (event.reading? now).isSome
        evaluated := engine.rules.length
        matched := fired.length + suppressed.length
        fired, suppressed } := by
  rw [handle_eq_decide, decide_of_distinct distinct]
  simp [observe_eq]

theorem lastFired_handle (distinct : (engine.rules.map Rule.id).Nodup) (id : UInt64) :
    (engine.handle event now).2.lastFired id =
      if id ∈ (engine.handle event now).1.fired then some now else engine.lastFired id := by
  rw [handle_of_distinct distinct, handle_eq_decide, lastFired_decide distinct]
  simp only [lastFired, lastFires_observe]

end Engine

end Alerting
