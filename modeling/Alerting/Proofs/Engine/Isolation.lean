import Alerting.Proofs.Engine.Service
import Alerting.Proofs.Engine.Verdicts

/-!
# Rules on their own

A rule fares among other rules as it does alone: with the same readings and fires it gets the same
verdicts, and what is handled for other triggers neither fires it nor adds to the readings of its
metric.
-/

namespace Alerting

def Handling.mentions (handling : Handling) (id : UInt64) : Nat × Nat :=
  (handling.fired.count id, handling.suppressed.count id)

def Verdict.mentions : Verdict → Nat × Nat
  | .unmatched => (0, 0)
  | .suppressed => (0, 1)
  | .fires => (1, 0)

namespace Engine

variable {engine left right : Engine} {rule : Rule} {event : Event} {now : Instant}

/-! ## One event -/

theorem mentions_handle (distinct : (engine.rules.map Rule.id).Nodup) (mem : rule ∈ engine.rules) :
    (engine.handle event now).1.mentions rule.id =
      ((engine.observe event now).2.verdict rule event now).mentions := by
  have counted (verdict : Verdict) :
      ((engine.observe event now).2.withVerdict verdict event now engine.rules).count rule.id =
        if (engine.observe event now).2.verdict rule event now = verdict then 1 else 0 := by
    rw [(withVerdict_sublist.nodup distinct).count]
    simp only [mem_withVerdict distinct mem]
  unfold Handling.mentions
  rw [handle_of_distinct distinct, counted, counted]
  cases (engine.observe event now).2.verdict rule event now <;> rfl

theorem ruleMatches_of_ne (ne : event.trigger ≠ rule.trigger) :
    engine.ruleMatches rule event now = false := by
  rw [ruleMatches_eq]
  simp [Ne.symm ne]

theorem mentions_handle_of_ne (distinct : (engine.rules.map Rule.id).Nodup)
    (mem : rule ∈ engine.rules) (ne : event.trigger ≠ rule.trigger) :
    (engine.handle event now).1.mentions rule.id = (0, 0) := by
  rw [mentions_handle distinct mem, verdict_eq_unmatched_iff.mpr (ruleMatches_of_ne ne)]
  rfl

theorem AlikeOn.observe (alike : AlikeOn rule left right) :
    AlikeOn rule (left.observe event now).2 (right.observe event now).2 where
  lastFired := by
    have same := alike.lastFired
    simp only [Engine.lastFired, lastFires_observe] at same ⊢
    exact same
  settings := by simp [observe_eq, alike.settings]
  samples metric isMetric := by
    rw [observe_eq, observe_eq, Tracker.samples_recordAll_eq_foldl,
      Tracker.samples_recordAll_eq_foldl, alike.settings, alike.samples metric isMetric]

theorem alikeOn_handle_of_ne (distinct : (engine.rules.map Rule.id).Nodup)
    (mem : rule ∈ engine.rules) (ne : event.trigger ≠ rule.trigger) :
    AlikeOn rule (engine.handle event now).2 engine := by
  constructor
  · rw [lastFired_handle distinct, handle_of_distinct distinct]
    simp only [mem_withVerdict distinct mem]
    rw [verdict_eq_unmatched_iff.mpr (ruleMatches_of_ne ne), if_neg (by simp)]
  · rw [tracker_handle]
    simp
  · intro metric isMetric
    rw [tracker_handle, Tracker.samples_recordAll_eq_foldl]
    have none : readingsOf metric (event.reading? now).toList = [] := by
      unfold readingsOf
      rw [List.map_eq_nil_iff, List.filter_eq_nil_iff]
      intro reading hreading
      have carried := metric_of_reading? (Option.mem_toList.mp hreading)
      rw [isMetric, carried] at ne
      simpa using ne
    rw [none, List.foldl_nil]

/-- Whether an engine knows of a rule among others what another one knows that has no other. -/
structure Singled (rule : Rule) (among alone : Engine) : Prop where
  distinct : (among.rules.map Rule.id).Nodup
  mem : rule ∈ among.rules
  only : alone.rules = [rule]
  alike : AlikeOn rule among alone

section

variable {among alone : Engine}

theorem Singled.distinct_alone (singled : Singled rule among alone) :
    (alone.rules.map Rule.id).Nodup := by
  simp [singled.only]

theorem Singled.mem_alone (singled : Singled rule among alone) : rule ∈ alone.rules := by
  simp [singled.only]

theorem Singled.mentions (singled : Singled rule among alone) :
    (among.handle event now).1.mentions rule.id = (alone.handle event now).1.mentions rule.id := by
  rw [mentions_handle singled.distinct singled.mem,
    mentions_handle singled.distinct_alone singled.mem_alone, singled.alike.observe.verdict]

theorem Singled.handle (singled : Singled rule among alone) :
    Singled rule (among.handle event now).2 (alone.handle event now).2 where
  distinct := by
    rw [rules_handle]
    exact singled.distinct
  mem := by
    rw [rules_handle]
    exact singled.mem
  only := rules_handle.trans singled.only
  alike := by
    have observed : AlikeOn rule (among.observe event now).2 (alone.observe event now).2 :=
      singled.alike.observe
    constructor
    · rw [lastFired_handle singled.distinct, lastFired_handle singled.distinct_alone,
        handle_of_distinct singled.distinct, handle_of_distinct singled.distinct_alone]
      simp only [mem_withVerdict singled.distinct singled.mem,
        mem_withVerdict singled.distinct_alone singled.mem_alone]
      rw [observed.verdict, singled.alike.lastFired]
    · simp [tracker_handle, singled.alike.settings]
    · intro metric isMetric
      have same := observed.samples metric isMetric
      rw [observe_eq, observe_eq] at same
      rw [tracker_handle, tracker_handle]
      exact same

theorem Singled.handle_of_ne (singled : Singled rule among alone)
    (ne : event.trigger ≠ rule.trigger) : Singled rule (among.handle event now).2 alone where
  distinct := by
    rw [rules_handle]
    exact singled.distinct
  mem := by
    rw [rules_handle]
    exact singled.mem
  only := singled.only
  alike := (alikeOn_handle_of_ne singled.distinct singled.mem ne).trans singled.alike

theorem singled_of_fresh {settings others : Settings} {rules : List Rule}
    (sameTracker : settings.tracker = others.tracker) (distinct : (rules.map Rule.id).Nodup)
    (mem : rule ∈ rules) :
    Singled rule ((start settings).refresh rules) ((start others).refresh [rule]) where
  distinct := distinct
  mem := mem
  only := rfl
  alike := alikeOn_of_tracker rfl (congrArg Tracker.start sameTracker)

end

end Engine

/-! ## Whole runs -/

namespace Installation

open Activity

variable {rule : Rule} {among alone final last : Engine} {events : List Event}
  {handlings own : List Handling}

theorem length_of_chain {step : Engine → Event → Handling → Engine → Prop}
    (chain : Chain step among events handlings final) : handlings.length = events.length := by
  induction chain with
  | nil state => rfl
  | cons first rest ih => simp [ih]

theorem mentions_of_chains (singled : Engine.Singled rule among alone)
    (full : Chain Answers among events handlings final)
    (single : Chain Answers alone (events.filter fun event => event.trigger = rule.trigger) own
      last) :
    ((events.zip handlings).filter fun pair => pair.1.trigger = rule.trigger).map
        (fun pair => pair.2.mentions rule.id) = own.map (·.mentions rule.id) ∧
      ∀ pair ∈ events.zip handlings, pair.1.trigger ≠ rule.trigger →
        pair.2.mentions rule.id = (0, 0) := by
  induction events generalizing among alone handlings own with
  | nil =>
      cases full
      cases single
      simp
  | cons event events ih =>
      obtain - | ⟨⟨timely⟩, rest⟩ := full
      by_cases concerned : event.trigger = rule.trigger
      · rw [List.filter_cons_of_pos (by simpa using concerned)] at single
        obtain - | ⟨⟨ownTimely⟩, ownRest⟩ := single
        cases timely.symm.trans ownTimely
        obtain ⟨same, none⟩ := ih singled.handle rest ownRest
        constructor
        · rw [List.zip_cons_cons, List.filter_cons_of_pos (by simpa using concerned),
            List.map_cons, List.map_cons, same, singled.mentions]
        · rintro pair mem ne
          rcases List.mem_cons.mp mem with rfl | later
          · contradiction
          · exact none pair later ne
      · rw [List.filter_cons_of_neg (by simpa using concerned)] at single
        obtain ⟨same, none⟩ := ih (singled.handle_of_ne concerned) rest single
        constructor
        · rw [List.zip_cons_cons, List.filter_cons_of_neg (by simpa using concerned), same]
        · rintro pair mem ne
          rcases List.mem_cons.mp mem with rfl | later
          · exact Engine.mentions_handle_of_ne singled.distinct singled.mem concerned
          · exact none pair later ne

/-- What happens to a rule does not depend on the other rules, on events of other triggers, or on
what becomes of records and notifications: it is named as firing and as suppressed just as often by
each handling of a fresh engine as when it has an engine to itself. -/
theorem mentions_among_others {settings others : Settings}
    (sameTracker : settings.tracker = others.tracker) {rules : List Rule}
    (distinct : (rules.map Rule.id).Nodup) (mem : rule ∈ rules)
    (timely : ∀ event ∈ events, event.timestamp.isSome) {index place : Nat}
    {first second firstEnd secondEnd : Installation}
    (fresh : engineAt index first = some ((Engine.start settings).refresh rules))
    (freshAlone : engineAt place second = some ((Engine.start others).refresh [rule]))
    (ends : Ends (engineAt index) (events.mapM (handle index)) first handlings firstEnd)
    (endsAlone : Ends (engineAt place)
      ((events.filter fun event => event.trigger = rule.trigger).mapM (handle place)) second own
      secondEnd) :
    handlings.length = events.length ∧
      ((events.zip handlings).filter fun pair => pair.1.trigger = rule.trigger).map
          (fun pair => pair.2.mentions rule.id) = own.map (·.mentions rule.id) ∧
      ∀ pair ∈ events.zip handlings, pair.1.trigger ≠ rule.trigger →
        pair.2.mentions rule.id = (0, 0) := by
  obtain ⟨_, _, full⟩ := chain_of_ends timely fresh ends
  have ownTimely : ∀ event ∈ events.filter fun event => event.trigger = rule.trigger,
      event.timestamp.isSome := fun event listed => timely event (List.mem_filter.mp listed).1
  obtain ⟨_, _, single⟩ := chain_of_ends ownTimely freshAlone endsAlone
  exact ⟨length_of_chain full,
    mentions_of_chains (Engine.singled_of_fresh sameTracker distinct mem) full single⟩

def shift : List Event := [load 95 0, load 96 25, restart 26, load 97 27]

def shared : List Handling :=
  [{ recorded := true, evaluated := 2, matched := 1, fired := [2] },
   { recorded := true, evaluated := 2, matched := 2, fired := [2, 1] },
   { recorded := false, evaluated := 2 },
   { recorded := true, evaluated := 2, matched := 2, fired := [2], suppressed := [1] }]

def unshared : List Handling :=
  [{ recorded := true, evaluated := 1 },
   { recorded := true, evaluated := 1, matched := 1, fired := [1] },
   { recorded := true, evaluated := 1, matched := 1, suppressed := [1] }]

/-- The one store refuses every record; the other one and its notifier never reply. -/
theorem mentions_among_others_of_shift :
    shared.length = shift.length ∧
      ((shift.zip shared).filter fun pair => pair.1.trigger = hot.trigger).map
          (fun pair => pair.2.mentions hot.id) = unshared.map (·.mentions hot.id) ∧
      ∀ pair ∈ shift.zip shared, pair.1.trigger ≠ hot.trigger →
        pair.2.mentions hot.id = (0, 0) := by
  have ends : ∃ last, Ends (engineAt 0) (shift.mapM (handle 0))
      (withEngine [warm, hot] { saving := .refused "full" } none) shared last :=
    exists_ends_of_run (fun _ _ => rfl) (by decide +kernel)
  have endsAlone : ∃ last, Ends (engineAt 0)
      ((shift.filter fun event => event.trigger = hot.trigger).mapM (handle 0))
      (withEngine [hot] { saving := .never }
        (some (.dispatcher (some { name := "mute", reply := fun _ => .never }) 100)))
      unshared last :=
    exists_ends_of_run (fun _ _ => rfl) (by decide +kernel)
  obtain ⟨_, ends⟩ := ends
  obtain ⟨_, endsAlone⟩ := endsAlone
  exact mentions_among_others rfl (by decide) (by simp) (by decide) rfl rfl ends endsAlone

end Installation

end Alerting
