import Mathlib.Data.List.Induction
import Alerting.Proofs.Engine.Calls
import Alerting.Proofs.Entries
import Alerting.Proofs.Time

/-!
# Cooldowns

Whatever calls handle events at the same time, in whatever order the times of their events come,
and however often the rules are replaced, as long as a rule stays among them with its cooldown: the
rule fires whenever it is claimed and has not fired within its cooldown.
-/

namespace Alerting

def verdictAfter (cooldown : Int64) (last : Option Instant) (now : Instant) : Verdict :=
  if cooldown.toInt ≤ 0 ∨
      ∀ fire ∈ last, cooldown.toInt * nanosPerSecond ≤ (now.since fire).nanos then .fires
  else .suppressed

/-! ## One claim -/

namespace Engine

variable {engine : Engine} {rule : Rule} {now : Instant} {id : UInt64}

theorem coolingDown_iff {last : Instant} :
    coolingDown rule last now ↔
      ¬(rule.cooldownSeconds.toInt ≤ 0 ∨
        rule.cooldownSeconds.toInt * nanosPerSecond ≤ (now.since last).nanos) := by
  unfold coolingDown Rule.cooldown
  split
  · rename_i nonpositive
    simp [nonpositive]
  · rename_i positive
    have within : now.since last < .seconds rule.cooldownSeconds.toInt ↔ _ :=
      Instant.since_lt_seconds (by omega)
    simp only [Option.any_some, decide_eq_true_eq, within]
    omega

theorem verdict_claim :
    (engine.claim rule now).1 =
      verdictAfter rule.cooldownSeconds (engine.lastFired rule.id) now := by
  unfold claim verdictAfter
  cases engine.lastFired rule.id with
  | none => simp
  | some last =>
      by_cases quiet : coolingDown rule last now
      · have early := coolingDown_iff.mp quiet
        simp [quiet, early]
      · have late := Decidable.not_not.mp (mt coolingDown_iff.mpr quiet)
        simp [quiet, late]

theorem lastFired_noteFire_self : (engine.noteFire id now).lastFired id = some now :=
  List.lookup_cons_self

theorem lastFired_noteFire_ne {other : UInt64} (ne : other ≠ id) :
    (engine.noteFire id now).lastFired other = engine.lastFired other := by
  have apart : (other == id) = false := by simpa using ne
  unfold lastFired noteFire
  rw [List.lookup_cons, apart]
  exact lookup_filter (fun name => name != id) (by simpa using ne) engine.lastFires

theorem lastFired_claim_ne (ne : id ≠ rule.id) :
    (engine.claim rule now).2.lastFired id = engine.lastFired id := by
  unfold claim
  split
  · rfl
  · exact lastFired_noteFire_ne ne

theorem lastFired_claim_self :
    (engine.claim rule now).2.lastFired rule.id =
      if (engine.claim rule now).1 = .fires then some now else engine.lastFired rule.id := by
  unfold claim
  split
  · simp
  · simpa using lastFired_noteFire_self

theorem lastFired_forgetOthers {rules : List Rule} (kept : ∃ rule ∈ rules, rule.id = id) :
    (engine.forgetOthers rules).lastFired id = engine.lastFired id :=
  lookup_filter (fun name => rules.any fun rule => rule.id == name) (by simpa using kept)
    engine.lastFires

end Engine

/-! ## All claims on a rule -/

def firesAmong (claims : List Claim) : List Instant :=
  (claims.filter fun claim => claim.verdict = .fires).map (·.now)

/-- Whether each claim gets the verdict that the last fire before it calls for. -/
def Greedy (cooldown : Int64) (claims : List Claim) : Prop :=
  ∀ before claim after, claims = before ++ claim :: after →
    claim.verdict = verdictAfter cooldown (firesAmong before).getLast? claim.now

/-- Whether a fire comes after another one, by at least a number of seconds. -/
def Spaced (cooldown : Int64) (earlier later : Instant) : Prop :=
  earlier < later ∧ cooldown.toInt * nanosPerSecond ≤ (later.since earlier).nanos

theorem firesAmong_append_singleton (claims : List Claim) (claim : Claim) :
    firesAmong (claims ++ [claim]) =
      if claim.verdict = .fires then firesAmong claims ++ [claim.now] else firesAmong claims := by
  unfold firesAmong
  split <;> simp [*]

section

variable {cooldown : Int64} {claims : List Claim} {claim : Claim}

theorem greedy_nil : Greedy cooldown [] := by
  intro before claim after h
  simp at h

theorem Greedy.append (greedy : Greedy cooldown claims)
    (next : claim.verdict = verdictAfter cooldown (firesAmong claims).getLast? claim.now) :
    Greedy cooldown (claims ++ [claim]) := by
  intro before middle after parts
  rcases concat_eq_append_cons_iff.mp parts with ⟨rfl, rfl, -⟩ | ⟨between, -, earlier⟩
  · exact next
  · exact greedy before middle between earlier

theorem Greedy.earlier (greedy : Greedy cooldown (claims ++ [claim])) : Greedy cooldown claims := by
  intro before middle after parts
  exact greedy before middle (after ++ [claim]) (by simp [parts])

theorem Greedy.fires (greedy : Greedy cooldown claims) (nonpositive : cooldown.toInt ≤ 0)
    (mem : claim ∈ claims) : claim.verdict = .fires := by
  obtain ⟨before, after, parts⟩ := List.append_of_mem mem
  rw [greedy before claim after parts]
  simp [verdictAfter, nonpositive]

theorem Greedy.spaced_last (greedy : Greedy cooldown (claims ++ [claim]))
    (positive : 0 < cooldown.toInt) (fires : claim.verdict = .fires) {last : Instant}
    (isLast : (firesAmong claims).getLast? = some last) : Spaced cooldown last claim.now := by
  have verdict := greedy claims claim [] rfl
  rw [fires, isLast] at verdict
  have late : cooldown.toInt * nanosPerSecond ≤ (claim.now.since last).nanos := by
    unfold verdictAfter at verdict
    split at verdict
    · rename_i quiet
      simpa [Int.not_le.mpr positive] using quiet
    · contradiction
  refine ⟨Instant.lt_of_second_le_since ?_, late⟩
  unfold nanosPerSecond at *
  omega

theorem Spaced.trans {first second third : Instant} (positive : 0 < cooldown.toInt)
    (before : Spaced cooldown first second) (after : Spaced cooldown second third) :
    Spaced cooldown first third := by
  have around := Instant.since_triangle first second third
  have := before.2
  have := after.2
  constructor
  · exact Std.lt_trans before.1 after.1
  · unfold nanosPerSecond at *
    omega

theorem Greedy.pairwise_spaced (greedy : Greedy cooldown claims) (positive : 0 < cooldown.toInt) :
    (firesAmong claims).Pairwise (Spaced cooldown) := by
  induction claims using List.reverseRec with
  | nil => exact List.Pairwise.nil
  | append_singleton claims claim ih =>
      have ih := ih greedy.earlier
      rw [firesAmong_append_singleton]
      split
      · rename_i fires
        rw [List.pairwise_append]
        refine ⟨ih, List.pairwise_singleton .., fun earlier mem now hnow => ?_⟩
        rw [List.mem_singleton.mp hnow]
        -- The new fire is apart from the last one, and that one from all before it.
        obtain ⟨last, isLast⟩ := Option.isSome_iff_exists.mp
          (List.getLast?_isSome.mpr (List.ne_nil_of_mem mem))
        have after := greedy.spaced_last positive fires isLast
        obtain ⟨before, parts⟩ := List.getLast?_eq_some_iff.mp isLast
        rw [parts] at mem ih
        rcases List.mem_append.mp mem with old | same
        · have first := (List.pairwise_append.mp ih).2.2 earlier old last (by simp)
          exact first.trans positive after
        · rw [List.mem_singleton.mp same]
          exact after
      · exact ih

end

/-! ## Whole runs -/

def KeepsCooldown (id : UInt64) (cooldown : Int64) (rules : List Rule) : Prop :=
  (∃ rule ∈ rules, rule.id = id) ∧ ∀ rule ∈ rules, rule.id = id → rule.cooldownSeconds = cooldown

namespace Docket

variable {id : UInt64} {cooldown : Int64} {docket next : Docket}

def claimsOn (docket : Docket) (id : UInt64) : List Claim :=
  docket.claims.filter fun claim => claim.rule.id = id

structure Kept (docket : Docket) (id : UInt64) (cooldown : Int64) : Prop where
  rules : ∀ rule ∈ docket.engine.rules, rule.id = id → rule.cooldownSeconds = cooldown
  pending : ∀ call ∈ docket.calls, ∀ rule ∈ call.stage.rules,
    rule.id = id → rule.cooldownSeconds = cooldown

structure Cooled (docket : Docket) (id : UInt64) (cooldown : Int64) : Prop where
  greedy : Greedy cooldown (docket.claimsOn id)
  lastFired : docket.engine.lastFired id = (firesAmong (docket.claimsOn id)).getLast?

theorem Kept.proceed (kept : docket.Kept id cooldown) {index : Nat} {call : Call} {turn : Turn}
    (present : docket.calls[index]? = some call)
    (able : call.turn? docket.engine = some turn) :
    (docket.proceed index call turn).Kept id cooldown := by
  have mem := List.mem_of_getElem? present
  have step := Call.quiet_or_claims able
  constructor
  · have same : turn.engine.rules = docket.engine.rules := by
      rcases step with quiet | ⟨rule, claims⟩
      · exact quiet.rules
      · rw [claims.engine, Engine.rules_claim]
    change ∀ rule ∈ turn.engine.rules, _
    rw [same]
    exact kept.rules
  · intro other hother rule hrule
    rcases List.mem_or_eq_of_mem_set hother with old | new
    · exact kept.pending other old rule hrule
    · subst new
      rcases step with quiet | ⟨claimed, claims⟩
      · rcases quiet.pending with fewer | taken
        · exact kept.pending call mem rule (fewer hrule)
        · exact kept.rules rule (taken ▸ hrule)
      · apply kept.pending call mem rule
        rw [claims.pending]
        exact List.mem_cons_of_mem _ hrule

theorem Cooled.proceed (cooled : docket.Cooled id cooldown) (kept : docket.Kept id cooldown)
    {index : Nat} {call : Call} {turn : Turn} (present : docket.calls[index]? = some call)
    (able : call.turn? docket.engine = some turn) :
    (docket.proceed index call turn).Cooled id cooldown := by
  rcases Call.quiet_or_claims able with quiet | ⟨rule, claims⟩
  · have same : (docket.proceed index call turn).claimsOn id = docket.claimsOn id := by
      rw [claimsOn, claims_proceed_of_quiet quiet, claimsOn]
    have fires : turn.engine.lastFired id = docket.engine.lastFired id := by
      rw [Engine.lastFired, quiet.lastFires, Engine.lastFired]
    exact ⟨same ▸ cooled.greedy, by rw [same]; exact fires.trans cooled.lastFired⟩
  · have made : (docket.proceed index call turn).claimsOn id = docket.claimsOn id ++
        [(⟨index, rule, call.now, (docket.engine.claim rule call.now).1⟩ : Claim)].filter
          fun claim => claim.rule.id = id := by
      rw [claimsOn, claims_proceed_of_claims claims, List.filter_append, claimsOn]
    have engine : (docket.proceed index call turn).engine =
        (docket.engine.claim rule call.now).2 := claims.engine
    by_cases same : rule.id = id
    · subst same
      -- The rule may come from an old snapshot, but that had the same cooldown.
      have agreed : rule.cooldownSeconds = cooldown := by
        apply kept.pending call (List.mem_of_getElem? present) rule _ rfl
        rw [claims.pending]
        exact List.mem_cons_self
      have verdict : (docket.engine.claim rule call.now).1 =
          verdictAfter cooldown (firesAmong (docket.claimsOn rule.id)).getLast? call.now := by
        rw [Engine.verdict_claim, agreed, cooled.lastFired]
      rw [List.filter_cons_of_pos (by simp), List.filter_nil] at made
      constructor
      · rw [made]
        exact cooled.greedy.append verdict
      · rw [made, engine, Engine.lastFired_claim_self, firesAmong_append_singleton,
          cooled.lastFired]
        split
        · exact List.getLast?_concat.symm
        · rfl
    · rw [List.filter_cons_of_neg (by simpa using same), List.filter_nil, List.append_nil] at made
      constructor
      · rw [made]
        exact cooled.greedy
      · rw [made, engine, Engine.lastFired_claim_ne (Ne.symm same)]
        exact cooled.lastFired

theorem Step.kept (step : Step (KeepsCooldown id cooldown) docket next)
    (kept : docket.Kept id cooldown) : next.Kept id cooldown := by
  cases step with
  | arrive event clock =>
      refine ⟨kept.rules, fun call mem => ?_⟩
      rcases List.mem_append.mp mem with old | new
      · exact kept.pending call old
      · rw [List.mem_singleton.mp new]
        intro rule none
        cases none
  | proceed present able => exact kept.proceed present able
  | forget permitted => exact ⟨kept.rules, kept.pending⟩
  | adopt permitted => exact ⟨permitted.2, kept.pending⟩
  | tend sameRules sameFires => exact ⟨sameRules ▸ kept.rules, kept.pending⟩

theorem Step.cooled (step : Step (KeepsCooldown id cooldown) docket next)
    (cooled : docket.Cooled id cooldown) (kept : docket.Kept id cooldown) :
    next.Cooled id cooldown := by
  cases step with
  | arrive event clock => exact ⟨cooled.greedy, cooled.lastFired⟩
  | proceed present able => exact cooled.proceed kept present able
  | forget permitted =>
      exact ⟨cooled.greedy, (Engine.lastFired_forgetOthers permitted.1).trans cooled.lastFired⟩
  | adopt permitted => exact ⟨cooled.greedy, cooled.lastFired⟩
  | tend sameRules sameFires =>
      refine ⟨cooled.greedy, Eq.trans ?_ cooled.lastFired⟩
      rw [Engine.lastFired, sameFires, Engine.lastFired]

theorem Run.cooled {engine : Engine} (fresh : engine.lastFired id = none)
    (kept : ∀ rule ∈ engine.rules, rule.id = id → rule.cooldownSeconds = cooldown)
    (run : Run (KeepsCooldown id cooldown) { engine } docket) :
    docket.Kept id cooldown ∧ docket.Cooled id cooldown := by
  induction run with
  | refl => exact ⟨⟨kept, by simp⟩, greedy_nil, fresh⟩
  | tail _ step ih => exact ⟨step.kept ih.1, step.cooled ih.2 ih.1⟩

/-- However calls, refreshes and the times of events are interleaved, the fires of a rule are the
greedy choice among its claims: one fires if it comes at least a cooldown after the last one that
did. Then any two of them are a cooldown apart, and the calls report them so. -/
theorem greedy_of_run {engine : Engine} (fresh : engine.lastFired id = none)
    (kept : KeepsCooldown id cooldown engine.rules)
    (run : Run (KeepsCooldown id cooldown) { engine } docket) :
    Greedy cooldown (docket.claimsOn id) ∧
      (cooldown.toInt ≤ 0 → ∀ claim ∈ docket.claimsOn id, claim.verdict = .fires) ∧
      (0 < cooldown.toInt → (firesAmong (docket.claimsOn id)).Pairwise (Spaced cooldown)) ∧
      docket.engine.lastFired id = (firesAmong (docket.claimsOn id)).getLast? ∧
      docket.Faithful := by
  have cooled := (run.cooled fresh kept.2).2
  exact ⟨cooled.greedy, fun nonpositive _ mem => cooled.greedy.fires nonpositive mem,
    cooled.greedy.pairwise_spaced, cooled.lastFired, run.faithful (faithful_of_no_calls engine)⟩

def watch : Rule :=
  { id := 7, name := "watch", objectType := "host", trigger := .event "up", cooldownSeconds := 60 }

def up (nanos : Int) : Event :=
  { objectType := "host", trigger := .event "up", timestamp := some (.clamp nanos) }

def watching : Docket := { engine := (Engine.start {}).adopt [watch] }

def crossing : Docket :=
  ((watching.arrive (up 0) (.clamp 0)).arrive (up 30000000000) (.clamp 0)).advance [0, 1, 0, 1, 1]

/-- The later of the two events is the first to claim. -/
def crossed : Docket :=
  { crossing with engine := crossing.engine.refresh [watch] }.advance [1, 0, 0]

theorem greedy_of_run_of_crossed :
    (crossed.claimsOn 7).map (fun claim => (claim.call, claim.verdict)) =
        [(1, .fires), (0, .suppressed)] ∧
      Greedy 60 (crossed.claimsOn 7) ∧
      ((60 : Int64).toInt ≤ 0 → ∀ claim ∈ crossed.claimsOn 7, claim.verdict = .fires) ∧
      (0 < (60 : Int64).toInt → (firesAmong (crossed.claimsOn 7)).Pairwise (Spaced 60)) ∧
      crossed.engine.lastFired 7 = (firesAmong (crossed.claimsOn 7)).getLast? ∧
      crossed.Faithful := by
  have kept : KeepsCooldown 7 60 [watch] := by simp [KeepsCooldown, watch]
  have arrivals : Run (KeepsCooldown 7 60) watching
      ((watching.arrive (up 0) (.clamp 0)).arrive (up 30000000000) (.clamp 0)) :=
    .tail (.single (.arrive ..)) (.arrive ..)
  have refreshed : Run (KeepsCooldown 7 60) crossing
      { crossing with engine := crossing.engine.refresh [watch] } := run_refresh kept
  have run : Run (KeepsCooldown 7 60) watching crossed :=
    arrivals.trans ((run_advance ..).trans (refreshed.trans (run_advance ..)))
  exact ⟨by decide, greedy_of_run rfl kept run⟩

end Docket

end Alerting
