import Alerting.Proofs.Engine.Service

/-!
# How long a rule still keeps quiet

What an engine tells of the rest of a cooldown and what it decides on an event go by the same last
fire. So a rule is said to keep quiet just when an event that it matches is suppressed, and outside
leap seconds what is said to be left is the time after which such an event fires again.
-/

namespace Alerting

namespace Engine

variable {engine : Engine} {rule : Rule} {event : Event} {now : Instant}

/-! ## The rest of a cooldown -/

/-- Whether a rule has a cooldown, and an instant comes too early after its last fire for it. -/
def QuietAt (engine : Engine) (rule : Rule) (now : Instant) (last : Instant) (cooldown : Span) :
    Prop :=
  engine.lastFired rule.id = some last ∧ rule.cooldown = some cooldown ∧ now.since last < cooldown

theorem cooldownRemaining_eq_some_iff (distinct : (engine.rules.map Rule.id).Nodup)
    (mem : rule ∈ engine.rules) {left : Span} :
    engine.cooldownRemaining rule.id now = some left ↔
      ∃ last cooldown, engine.QuietAt rule now last cooldown ∧
        cooldown.sub? (now.since last) = some left := by
  unfold cooldownRemaining QuietAt
  rw [find?_of_distinct distinct mem]
  simp only [Option.bind_eq_bind, Option.bind_some]
  cases rule.cooldown with
  | none => simp
  | some cooldown =>
      cases engine.lastFired rule.id with
      | none => simp
      | some last =>
          cases rest : cooldown.sub? (now.since last) with
          | none => simp [rest]
          | some remaining =>
              have positive : Span.zero < remaining ↔ now.since last < cooldown := by
                have := Span.sub?_eq_some rest
                change 0 < remaining.nanos ↔ (now.since last).nanos < cooldown.nanos
                omega
              simp [rest, positive]

theorem coolingDown_iff_quietAt :
    ((engine.lastFired rule.id).any fun last => coolingDown rule last now) ↔
      ∃ last cooldown, engine.QuietAt rule now last cooldown := by
  unfold QuietAt coolingDown
  cases engine.lastFired rule.id <;> cases rule.cooldown <;> simp

theorem verdict_of_ruleMatches (matched : engine.ruleMatches rule event now = true) :
    engine.verdict rule event now =
      if (engine.lastFired rule.id).any fun last => coolingDown rule last now then .suppressed
      else .fires := by
  unfold verdict consider claim
  rw [if_pos matched]
  split <;> rfl

theorem mem_handle_of_ruleMatches (distinct : (engine.rules.map Rule.id).Nodup)
    (mem : rule ∈ engine.rules)
    (matched : (engine.observe event now).2.ruleMatches rule event now = true) :
    (rule.id ∈ (engine.handle event now).1.suppressed ↔
        ∃ last cooldown, engine.QuietAt rule now last cooldown) ∧
      (rule.id ∈ (engine.handle event now).1.fired ↔
        ¬∃ last cooldown, engine.QuietAt rule now last cooldown) := by
  have verdict := verdict_of_ruleMatches matched
  have lastFired : (engine.observe event now).2.lastFired rule.id = engine.lastFired rule.id := by
    rw [Engine.lastFired, lastFires_observe, Engine.lastFired]
  rw [lastFired] at verdict
  rw [handle_of_distinct distinct, ← coolingDown_iff_quietAt]
  simp only [mem_withVerdict distinct mem, verdict]
  split <;> simp [*]

end Engine

namespace Installation

open Activity

variable {index : Nat} {engine : Engine} {rule : Rule} {now : Instant}

/-- Whether an engine comes to answer an event, and answers it so, whatever else goes on. -/
structure Handled (index : Nat) (engine : Engine) (event : Event) (post : Handling → Prop) :
    Prop where
  ends : ∀ first, engineAt index first = some engine →
    ∃ handling last, (handle index event).run first = some (handling, last)
  fits : ∀ first last handling, engineAt index first = some engine →
    Ends (engineAt index) (handle index event) first handling last → post handling

theorem handled_of_timely {event : Event} {post : Handling → Prop}
    (timely : event.timestamp = some now) (holds : post (engine.handle event now).1) :
    Handled index engine event post where
  ends first _ := (quiet_handle index event).exists_run first
  fits first last handling present ends := by
    have ensures := (engineOutlook index).ensures_handle timely engine
    obtain ⟨_, _, rfl, _⟩ := ends.fits (present ▸ ensures)
    exact holds

/-- A rest of a cooldown is told of just when an event that matches is suppressed. As long as it is
told, such an event later on is suppressed while it comes too early after the last fire, and fires
otherwise; outside leap seconds that is to say before the rest is over. -/
theorem cooldownRemaining_foretells (distinct : (engine.rules.map Rule.id).Nodup)
    (mem : rule ∈ engine.rules)
    (fits : ∀ last cooldown, engine.lastFired rule.id = some last → rule.cooldown = some cooldown →
      (cooldown.sub? (now.since last)).isSome) :
    (∀ event, event.timestamp = some now →
      (engine.observe event now).2.ruleMatches rule event now = true →
      Handled index engine event fun handling =>
        (engine.cooldownRemaining rule.id now).isSome ↔ rule.id ∈ handling.suppressed) ∧
    ∀ left, engine.cooldownRemaining rule.id now = some left →
      ∃ last cooldown, engine.lastFired rule.id = some last ∧ rule.cooldown = some cooldown ∧
        ∀ wait later, now.add? wait = some later →
          (∀ event, event.timestamp = some later →
            (engine.observe event later).2.ruleMatches rule event later = true →
            Handled index engine event fun handling =>
              if later.since last < cooldown then
                rule.id ∈ handling.suppressed ∧ rule.id ∉ handling.fired
              else rule.id ∈ handling.fired ∧ rule.id ∉ handling.suppressed) ∧
          (now.isLeap = false → (last.isLeap → last.secondOfDay = secondsPerDay - 1) →
            (later.since last < cooldown ↔ wait < left)) := by
  constructor
  · intro event timely matched
    apply handled_of_timely timely
    rw [(Engine.mem_handle_of_ruleMatches distinct mem matched).1, Option.isSome_iff_exists]
    constructor
    · rintro ⟨left, told⟩
      obtain ⟨last, cooldown, quiet, -⟩ :=
        (Engine.cooldownRemaining_eq_some_iff distinct mem).mp told
      exact ⟨last, cooldown, quiet⟩
    · rintro ⟨last, cooldown, quiet⟩
      obtain ⟨left, rest⟩ := Option.isSome_iff_exists.mp (fits last cooldown quiet.1 quiet.2.1)
      exact ⟨left, (Engine.cooldownRemaining_eq_some_iff distinct mem).mpr
        ⟨last, cooldown, quiet, rest⟩⟩
  · intro left told
    obtain ⟨last, cooldown, ⟨fired, cools, early⟩, rest⟩ :=
      (Engine.cooldownRemaining_eq_some_iff distinct mem).mp told
    refine ⟨last, cooldown, fired, cools, fun wait later moved => ⟨?_, ?_⟩⟩
    · intro event timely matched
      apply handled_of_timely timely
      obtain ⟨suppressed, fires⟩ := Engine.mem_handle_of_ruleMatches distinct mem matched
      have quiet : (∃ last cooldown, engine.QuietAt rule later last cooldown) ↔
          later.since last < cooldown := by
        simp [Engine.QuietAt, fired, cools]
      rw [suppressed, fires, quiet]
      split <;> simp [*]
    · intro plain whole
      have apart := Instant.since_add?_of_not_leap plain whole moved
      have rest := Span.sub?_eq_some rest
      change (later.since last).nanos < cooldown.nanos ↔ wait.nanos < left.nanos
      omega

def sentry : Rule :=
  { id := 1, name := "sentry", objectType := "host", trigger := .event "up", cooldownSeconds := 61 }

def alerted : Engine := ((Engine.start {}).refresh [sentry]).noteFire 1 (.clamp 0)

theorem cooldownRemaining_foretells_of_sentry :
    alerted.cooldownRemaining 1 (.clamp 20000000000) = some (.seconds 41) ∧
      alerted.cooldownRemaining 1 (.clamp (-5000000000)) = some (.seconds 66) ∧
      (Handled 0 alerted (restart (-5)) fun handling =>
        (alerted.cooldownRemaining 1 (.clamp (-5000000000))).isSome ↔ 1 ∈ handling.suppressed) ∧
      (Handled 0 alerted (restart 60) fun handling =>
        1 ∈ handling.suppressed ∧ 1 ∉ handling.fired) ∧
      Handled 0 alerted (restart 61) fun handling =>
        1 ∈ handling.fired ∧ 1 ∉ handling.suppressed := by
  have fits (now : Instant) (short : ((Span.seconds 61).sub? (now.since (.clamp 0))).isSome) :
      ∀ last cooldown, alerted.lastFired 1 = some last → sentry.cooldown = some cooldown →
        (cooldown.sub? (now.since last)).isSome := by
    rintro _ _ ⟨⟩ ⟨⟩
    exact short
  have before := @cooldownRemaining_foretells 0 alerted sentry (.clamp (-5000000000))
    (by decide) (by decide) (fits _ (by decide))
  have after := @cooldownRemaining_foretells 0 alerted sentry (.clamp 20000000000)
    (by decide) (by decide) (fits _ (by decide))
  obtain ⟨_, _, ⟨⟩, ⟨⟩, later⟩ := after.2 (.seconds 41) (by decide)
  have early := (later (.seconds 40) (.clamp 60000000000) (by decide)).1
    (restart 60) rfl (by decide)
  have late := (later (.seconds 41) (.clamp 61000000000) (by decide)).1
    (restart 61) rfl (by decide)
  have soon : (Instant.clamp 60000000000).since (.clamp 0) <
      .seconds sentry.cooldownSeconds.toInt := by decide
  have passed : ¬(Instant.clamp 61000000000).since (.clamp 0) <
      .seconds sentry.cooldownSeconds.toInt := by decide
  simp only [if_pos soon] at early
  simp only [if_neg passed] at late
  exact ⟨by decide, by decide, before.1 (restart (-5)) rfl (by decide), early, late⟩

/-- Asked in a leap second, an engine tells of half a second that is left. A second later it still
keeps quiet, since no time counts from there to the end of the leap second. -/
theorem not_forall_fired_of_cooldownRemaining :
    ¬∀ (rules : List Rule) (requests : List Request) (responses : List Response) (rule : Rule)
      (event : Event) (now later : Instant) (wait left : Span) (handling : Handling)
      (first last : Installation),
      (rules.map Rule.id).Nodup → rule ∈ rules →
      (∀ request ∈ requests, request.Timely) →
      engineAt 0 first = some ((Engine.start {}).refresh rules) →
      event.timestamp = some later → Span.zero ≤ wait → now.add? wait = some later →
      Ends (engineAt 0)
        ((requests ++ [Request.cooldownRemaining rule.id now, Request.handle event]).mapM (serve 0))
        first
        (responses ++ [.cooldown (some left), .handled handling]) last →
      rule.id ∈ handling.fired ++ handling.suppressed → left ≤ wait →
      rule.id ∈ handling.fired := by
  intro fires
  -- The last minute of 2016 has a second more than others.
  have ends : ∃ last, Ends (engineAt 0)
      (([Request.handle (restart 1483228740)] ++
        [Request.cooldownRemaining 1
            ⟨1483228799, 1500000000, by decide, by decide, by decide, by decide⟩,
          Request.handle { restart 0 with timestamp := some (.clamp 1483228800500000000) }]).mapM
        (serve 0)) (withEngine [sentry] {} none)
      ([.handled { recorded := false, evaluated := 1, matched := 1, fired := [1] }] ++
        [.cooldown (some (.clamp 500000000)),
          .handled { recorded := false, evaluated := 1, matched := 1, suppressed := [1] }]) last :=
    exists_ends_of_run (fun _ _ => rfl) (by decide +kernel)
  obtain ⟨_, ends⟩ := ends
  have fired := fires [sentry] _ _ sentry _ _ _ (.seconds 1) _ _ _ _ (by decide) (by decide)
    (by simp [Request.Timely, restart]) rfl rfl (by decide) (by decide) ends (by decide) (by decide)
  exact absurd fired (by decide)

end Installation

end Alerting
