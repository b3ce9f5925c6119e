import Alerting.Proofs.Engine.Verdicts
import Alerting.Proofs.Tracker.Veto

/-!
# Windows and the event at hand

An event with a reading is judged in two ways: conditions that ask for a while look at the readings
that are remembered, the others at the properties of the event. The reading of the event is the
latest that is remembered and lies in every window that ends with it, so what holds for a while also
holds at once, and a window of no length tells the same as the event.
-/

namespace Alerting

/-! ## The reading at hand -/

namespace TrackerSettings

variable {settings : TrackerSettings}

theorem grace_zero : settings.grace .zero = .zero := by
  have length : Span.zero.wholeMillis = 0 := by decide
  have unsaturated : saturated 0 = 0 := by decide
  simp only [grace, length, Int.zero_mul, unsaturated]
  rfl

theorem deadline_zero (now : Instant) : settings.deadline .zero now now = now := by
  have stays : now.add? .zero = some now := now.move?_zero
  rw [deadline, grace_zero, stays, Option.getD_some]

theorem compare_of_sustained {samples : List Sample} {sample : Sample} {operator : Operator}
    {number : Number} {count : Nat} (mem : sample ∈ samples)
    (sustained : settings.sustained samples operator number (.seconds count) sample.timestamp) :
    operator.compare sample.value number := by
  obtain ⟨first, begins, -, holds⟩ := sustained_iff.mp sustained
  have late := Instant.sub?_seconds_le_self (Int.natCast_nonneg count) begins
  exact holds sample mem late (Std.le_refl _)

theorem sustained_zero {others : List Sample} {sample : Sample} {operator : Operator}
    {number : Number} (alone : ∀ other ∈ others, other.timestamp ≠ sample.timestamp) :
    settings.sustained (others ++ [sample]) operator number .zero sample.timestamp =
      operator.compare sample.value number := by
  have begins : sample.timestamp.sub? .zero = some sample.timestamp := sample.timestamp.move?_zero
  rw [Bool.eq_iff_iff, sustained_iff]
  constructor
  · rintro ⟨first, hfirst, -, holds⟩
    cases begins.symm.trans hfirst
    exact holds sample (by simp) (Std.le_refl _) (Std.le_refl _)
  · intro satisfied
    refine ⟨_, begins, ⟨sample, by simp, (Std.le_refl _), (Std.le_refl _), ?_⟩, ?_⟩
    · rw [deadline_zero]
      exact Std.le_refl _
    · intro other mem late past
      rcases List.mem_append.mp mem with old | latest
      · exact absurd (Std.le_antisymm past late) (alone other old)
      · rw [List.mem_singleton.mp latest]
        exact satisfied

end TrackerSettings

/-! ## Conditions on the reading at hand -/

structure Condition.IsNumeric (condition : Condition) : Prop where
  property : condition.property = PropertyName.value
  operator : condition.operator.isNumeric

theorem Operator.holds_of_isNumeric {operator : Operator} (numeric : operator.isNumeric)
    (property : Property) (operand : String) :
    operator.holds property operand =
      property.number?.any fun left => (Number.parse? operand).any (operator.compare left) := by
  cases operator <;> first
    | contradiction
    | (unfold holds; cases property.number? <;> cases Number.parse? operand <;> rfl)

variable {condition : Condition} {event : Event} {value : Number}

theorem Condition.IsNumeric.holds (numeric : condition.IsNumeric)
    (carries : event.metricValue? = some value) :
    condition.holds event.properties =
      (Number.parse? condition.operand).any (condition.operator.compare value) := by
  simp only [Event.metricValue?, Option.bind_eq_bind, Option.bind_eq_some_iff] at carries
  obtain ⟨_, -, property, found, hvalue⟩ := carries
  rw [Condition.holds, numeric.property, found]
  dsimp only
  rw [Operator.holds_of_isNumeric numeric.operator, hvalue, Option.any_some]

/-! ## Conditions that ask less -/

/-- Conditions of which some ask about the event at hand where others ask for a while. -/
def Relaxed (conditions relaxed : List Condition) : Prop :=
  List.Forall₂ (fun condition other => other = condition ∨ other = { condition with duration := 0 })
    conditions relaxed

theorem Relaxed.exists_mem {conditions relaxed : List Condition} (h : Relaxed conditions relaxed)
    {other : Condition} (mem : other ∈ relaxed) :
    ∃ condition ∈ conditions, other = condition ∨ other = { condition with duration := 0 } := by
  induction h with
  | nil => cases mem
  | cons asks _ ih =>
      rcases List.mem_cons.mp mem with rfl | mem
      · exact ⟨_, List.mem_cons_self, asks⟩
      · obtain ⟨condition, listed, asks⟩ := ih mem
        exact ⟨condition, List.mem_cons_of_mem _ listed, asks⟩

namespace Engine

variable {engine : Engine} {rule : Rule} {metric : String} {now : Instant}

theorem exists_samples_observe (room : engine.tracker.settings.maxSamples ≠ 0)
    (isMetric : event.trigger = .metric metric) (carries : event.metricValue? = some value) :
    ∃ others, (engine.observe event now).2.tracker.samples metric = others ++ [⟨value, now⟩] := by
  have told : (engine.observe event now).2.tracker = engine.tracker.record metric ⟨value, now⟩ := by
    rw [observe_eq, reading?_of_metric isMetric, carries]
    rfl
  rw [told, Tracker.samples_record_self]
  exact TrackerSettings.exists_remember_eq room ..

theorem holds_of_metricHolds (room : engine.tracker.settings.maxSamples ≠ 0)
    (isMetric : event.trigger = .metric metric) (carries : event.metricValue? = some value)
    (numeric : condition.IsNumeric)
    (holds : (engine.observe event now).2.metricHolds metric condition event.properties now) :
    condition.holds event.properties := by
  obtain ⟨others, latest⟩ := exists_samples_observe room isMetric carries
  by_cases atOnce : condition.duration = 0
  · have window : condition.window = none := if_pos atOnce
    rw [metricHolds, window] at holds
    exact holds
  · have window : condition.window = some (.seconds condition.duration.toNat) := if_neg atOnce
    rw [metricHolds, window] at holds
    dsimp only at holds
    rw [Tracker.isSustained_eq, latest, TrackerSettings.judges, Option.any_eq_true] at holds
    obtain ⟨number, parsed, sustained⟩ := holds
    have listed : ⟨value, now⟩ ∈ others ++ [⟨value, now⟩] := List.mem_append_right _ (by simp)
    have satisfied := TrackerSettings.compare_of_sustained listed sustained
    rw [numeric.holds carries, parsed]
    exact satisfied

/-- What a rule on readings asks for a while, the reading at hand satisfies at once, and over a
window of no length both ways of judging it agree. -/
theorem windows_agree_with_event (room : engine.tracker.settings.maxSamples ≠ 0)
    (isMetric : event.trigger = .metric metric) (carries : event.metricValue? = some value)
    (numeric : ∀ condition ∈ rule.conditions, condition.IsNumeric) (now : Instant) :
    let told := (engine.observe event now).2
    (∀ relaxed, Relaxed rule.conditions relaxed → told.ruleMatches rule event now →
        told.ruleMatches { rule with conditions := relaxed } event now) ∧
      ((∀ other ∈ (told.tracker.samples metric).dropLast, other.timestamp ≠ now) →
        ∀ condition ∈ rule.conditions,
          told.tracker.isSustained metric condition.operator condition.operand .zero now =
            condition.holds event.properties) := by
  intro told
  constructor
  · intro relaxed asked isMatch
    rw [ruleMatches_eq, Bool.and_eq_true, List.all_eq_true] at isMatch ⊢
    refine ⟨isMatch.1, fun other mem => ?_⟩
    obtain ⟨condition, listed, asks⟩ := asked.exists_mem mem
    have holds := isMatch.2 condition listed
    have sameTrigger : rule.trigger = .metric metric := by
      have same := (Bool.and_eq_true_iff.mp isMatch.1).2
      rw [eq_of_beq same, isMetric]
    simp only [conditionHolds, sameTrigger] at holds ⊢
    rcases asks with rfl | rfl
    · exact holds
    · change condition.holds event.properties = true
      exact holds_of_metricHolds room isMetric carries (numeric condition listed) holds
  · intro alone condition listed
    obtain ⟨others, latest⟩ := exists_samples_observe room isMetric carries
    rw [latest, List.dropLast_concat] at alone
    rw [(numeric condition listed).holds carries, Tracker.isSustained_eq, latest]
    unfold TrackerSettings.judges
    congr 1
    funext number
    exact TrackerSettings.sustained_zero alone

def warmedUp : Engine :=
  { start {} with
    tracker := (Tracker.start {}).recordAll
      [("cpu", ⟨.ofInt 95, .clamp 0⟩), ("cpu", ⟨.ofInt 92, .clamp 30000000000⟩)] }

def overheating : Rule :=
  { name := "overheating"
    objectType := "host"
    trigger := .metric "cpu"
    conditions :=
      [⟨"value", .greaterThan, "90", 60⟩, ⟨"value", .lessThan, "inf", 60⟩,
       ⟨"value", .greaterOrEqual, "97", 0⟩] }

def hotReading : Event := .reading "host" "cpu" (.ofInt 97)

theorem windows_agree_with_event_of_overheating :
    let told := (warmedUp.observe hotReading (.clamp 60000000000)).2
    told.ruleMatches
        { overheating with
          conditions :=
            [⟨"value", .greaterThan, "90", 0⟩, ⟨"value", .lessThan, "inf", 60⟩,
             ⟨"value", .greaterOrEqual, "97", 0⟩] }
        hotReading (.clamp 60000000000) ∧
      told.tracker.isSustained "cpu" .lessThan "inf" .zero (.clamp 60000000000) =
        Condition.holds ⟨"value", .lessThan, "inf", 60⟩ hotReading.properties := by
  have room : warmedUp.tracker.settings.maxSamples ≠ 0 := by
    decide
  have carries : hotReading.metricValue? = some (.ofInt 97) := by
    decide
  have numeric : ∀ condition ∈ overheating.conditions, condition.IsNumeric := by
    intro condition mem
    simp only [overheating, List.mem_cons, List.not_mem_nil, or_false] at mem
    rcases mem with rfl | rfl | rfl <;> exact ⟨rfl, rfl⟩
  obtain ⟨relax, agree⟩ :=
    windows_agree_with_event room rfl carries numeric (.clamp 60000000000)
  constructor
  · apply relax
    · unfold Relaxed overheating
      simp
    · decide +kernel
  · apply agree (by decide +kernel) ⟨"value", .lessThan, "inf", 60⟩
    simp [overheating]

end Engine

end Alerting
