import Mathlib.Logic.Relation
import Alerting.Engine

/-!
# Calls to an engine at the same time

Any number of calls handle events with one engine. Each call takes its steps one by one: it
remembers the reading of its event, takes a snapshot of the rules, looks at one condition after
another, and claims the fire of a rule that matches. Between two steps other calls may take theirs,
and the rules may be replaced. What is claimed is kept in a log, in the order in which it happens.
-/

namespace Alerting

namespace Engine

def conditionHolds (engine : Engine) (rule : Rule) (condition : Condition) (event : Event)
    (now : Instant) : Bool :=
  match rule.trigger with
  | .event _ => condition.holds event.properties
  | .metric metric => engine.metricHolds metric condition event.properties now

theorem ruleMatches_eq (engine : Engine) (rule : Rule) (event : Event) (now : Instant) :
    engine.ruleMatches rule event now =
      (rule.objectType == event.objectType && rule.trigger == event.trigger &&
        rule.conditions.all fun condition => engine.conditionHolds rule condition event now) := by
  unfold ruleMatches conditionHolds allHold
  cases rule.trigger <;> rfl

def decide (engine : Engine) (event : Event) (now : Instant) (handling : Handling) :
    List Rule → Handling × Engine
  | [] => (handling, engine)
  | rule :: rest =>
      let (verdict, engine) := engine.consider rule event now
      engine.decide event now (handling.add rule verdict) rest

def handle (engine : Engine) (event : Event) (now : Instant) : Handling × Engine :=
  let (recorded, engine) := engine.observe event now
  engine.decide event now { recorded } engine.rules

end Engine

inductive Stage where
  | arrived
  | observed (recorded : Bool)
  | deciding (handling : Handling) (pending : List Rule)
  | checking (handling : Handling) (rule : Rule) (conditions : List Condition)
      (pending : List Rule)

structure Call where
  event : Event
  now : Instant
  stage : Stage := .arrived

structure Turn where
  stage : Stage
  engine : Engine
  claim : Option (Rule × Verdict) := none

structure Claim where
  call : Nat
  rule : Rule
  now : Instant
  verdict : Verdict

structure Docket where
  engine : Engine
  calls : List Call := []
  claims : List Claim := []

namespace Stage

def handling : Stage → Handling
  | arrived => { recorded := false }
  | observed recorded => { recorded }
  | deciding handling _ => handling
  | checking handling _ _ _ => handling

def rules : Stage → List Rule
  | arrived => []
  | observed _ => []
  | deciding _ pending => pending
  | checking _ rule _ pending => rule :: pending

end Stage

namespace Call

def turn? (call : Call) (engine : Engine) : Option Turn :=
  match call.stage with
  | .arrived =>
      let (recorded, engine) := engine.observe call.event call.now
      some { stage := .observed recorded, engine }
  | .observed recorded => some { stage := .deciding { recorded } engine.rules, engine }
  | .deciding _ [] => none
  | .deciding handling (rule :: pending) =>
      if rule.objectType == call.event.objectType && rule.trigger == call.event.trigger then
        some { stage := .checking handling rule rule.conditions pending, engine }
      else some { stage := .deciding (handling.add rule .unmatched) pending, engine }
  | .checking handling rule [] pending =>
      let (verdict, engine) := engine.claim rule call.now
      some
        { stage := .deciding (handling.add rule verdict) pending
          engine
          claim := some (rule, verdict) }
  | .checking handling rule (condition :: conditions) pending =>
      if engine.conditionHolds rule condition call.event call.now then
        some { stage := .checking handling rule conditions pending, engine }
      else some { stage := .deciding (handling.add rule .unmatched) pending, engine }

end Call

namespace Docket

def arrive (docket : Docket) (event : Event) (clock : Instant) : Docket :=
  { docket with calls := docket.calls ++ [⟨event, event.timestamp.getD clock, .arrived⟩] }

def proceed (docket : Docket) (index : Nat) (call : Call) (turn : Turn) : Docket :=
  { engine := turn.engine
    calls := docket.calls.set index { call with stage := turn.stage }
    claims := docket.claims ++
      (turn.claim.map fun (rule, verdict) => ⟨index, rule, call.now, verdict⟩).toList }

/-- The steps of calls and of others on one engine. Rules are replaced in two steps, by admitted
snapshots only. -/
inductive Step (admitted : List Rule → Prop) : Docket → Docket → Prop where
  | arrive (docket : Docket) (event : Event) (clock : Instant) :
      Step admitted docket (docket.arrive event clock)
  | proceed {docket : Docket} {index : Nat} {call : Call} {turn : Turn}
      (present : docket.calls[index]? = some call)
      (able : call.turn? docket.engine = some turn) :
      Step admitted docket (docket.proceed index call turn)
  | forget (docket : Docket) {rules : List Rule} (permitted : admitted rules) :
      Step admitted docket { docket with engine := docket.engine.forgetOthers rules }
  | adopt (docket : Docket) {rules : List Rule} (permitted : admitted rules) :
      Step admitted docket { docket with engine := docket.engine.adopt rules }
  | tend (docket : Docket) {engine : Engine} (sameRules : engine.rules = docket.engine.rules)
      (sameFires : engine.lastFires = docket.engine.lastFires) :
      Step admitted docket { docket with engine }

abbrev Run (admitted : List Rule → Prop) : Docket → Docket → Prop :=
  Relation.ReflTransGen (Step admitted)

end Docket

/-! ## One step of a call -/

namespace Handling

def withVerdict (handling : Handling) : Verdict → List UInt64
  | .unmatched => []
  | .suppressed => handling.suppressed
  | .fires => handling.fired

theorem withVerdict_add_unmatched (handling : Handling) (rule : Rule) (verdict : Verdict) :
    (handling.add rule .unmatched).withVerdict verdict = handling.withVerdict verdict := by
  cases verdict <;> rfl

theorem withVerdict_add_self (handling : Handling) (rule : Rule) {verdict : Verdict}
    (matching : verdict ≠ .unmatched) :
    (handling.add rule verdict).withVerdict verdict =
      handling.withVerdict verdict ++ [rule.id] := by
  cases verdict with
  | unmatched => contradiction
  | suppressed => rfl
  | fires => rfl

theorem withVerdict_add_ne (handling : Handling) (rule : Rule) {verdict other : Verdict}
    (ne : other ≠ verdict) :
    (handling.add rule verdict).withVerdict other = handling.withVerdict other := by
  cases verdict <;> cases other <;> first | rfl | contradiction

end Handling

namespace Engine

theorem rules_observe (engine : Engine) (event : Event) (now : Instant) :
    (engine.observe event now).2.rules = engine.rules := by
  unfold observe
  split <;> rfl

theorem lastFires_observe (engine : Engine) (event : Event) (now : Instant) :
    (engine.observe event now).2.lastFires = engine.lastFires := by
  unfold observe
  split <;> rfl

theorem rules_claim (engine : Engine) (rule : Rule) (now : Instant) :
    (engine.claim rule now).2.rules = engine.rules := by
  unfold claim
  split <;> rfl

theorem claim_ne_unmatched (engine : Engine) (rule : Rule) (now : Instant) :
    (engine.claim rule now).1 ≠ .unmatched := by
  unfold claim
  split <;> simp

end Engine

namespace Turn

structure Quiet (turn : Turn) (call : Call) (engine : Engine) : Prop where
  claim : turn.claim = none
  rules : turn.engine.rules = engine.rules
  lastFires : turn.engine.lastFires = engine.lastFires
  matched : turn.stage.handling.matched = call.stage.handling.matched
  verdicts : ∀ verdict,
    turn.stage.handling.withVerdict verdict = call.stage.handling.withVerdict verdict
  pending : turn.stage.rules ⊆ call.stage.rules ∨ turn.stage.rules = engine.rules

structure Claims (turn : Turn) (call : Call) (engine : Engine) (rule : Rule) : Prop where
  claim : turn.claim = some (rule, (engine.claim rule call.now).1)
  handling : turn.stage.handling =
    call.stage.handling.add rule (engine.claim rule call.now).1
  pending : call.stage.rules = rule :: turn.stage.rules
  engine : turn.engine = (engine.claim rule call.now).2

end Turn

theorem Call.quiet_or_claims {call : Call} {engine : Engine} {turn : Turn}
    (able : call.turn? engine = some turn) :
    turn.Quiet call engine ∨ ∃ rule, turn.Claims call engine rule := by
  obtain ⟨event, now, stage⟩ := call
  cases stage with
  | arrived =>
      cases able
      exact .inl ⟨rfl, engine.rules_observe event now, engine.lastFires_observe event now, rfl,
        fun _ => rfl, .inl (List.Subset.refl _)⟩
  | observed recorded =>
      cases able
      exact .inl ⟨rfl, rfl, rfl, rfl, fun _ => rfl, .inr rfl⟩
  | deciding handling pending =>
      left
      cases pending with
      | nil => cases able
      | cons rule pending =>
          simp only [turn?] at able
          split at able <;> cases able
          · exact ⟨rfl, rfl, rfl, rfl, fun _ => rfl, .inl (List.Subset.refl _)⟩
          · exact ⟨rfl, rfl, rfl, rfl, handling.withVerdict_add_unmatched rule,
              .inl (List.subset_cons_self rule pending)⟩
  | checking handling rule conditions pending =>
      cases conditions with
      | nil =>
          cases able
          exact .inr ⟨rule, rfl, rfl, rfl, rfl⟩
      | cons condition conditions =>
          left
          simp only [turn?] at able
          split at able <;> cases able
          · exact ⟨rfl, rfl, rfl, rfl, fun _ => rfl, .inl (List.Subset.refl _)⟩
          · exact ⟨rfl, rfl, rfl, rfl, handling.withVerdict_add_unmatched rule,
              .inl (List.subset_cons_self rule pending)⟩

/-! ## What the calls report -/

structure Handling.Reports (handling : Handling) (claims : List Claim) : Prop where
  matched : handling.matched = claims.length
  verdicts : ∀ verdict, handling.withVerdict verdict =
    (claims.filter fun claim => claim.verdict = verdict).map (·.rule.id)

namespace Handling

theorem reports_nil (recorded : Bool) : Reports { recorded } [] where
  matched := rfl
  verdicts verdict := by cases verdict <;> rfl

theorem Reports.add {handling : Handling} {claims : List Claim} (reports : handling.Reports claims)
    (claim : Claim) (matching : claim.verdict ≠ .unmatched) :
    (handling.add claim.rule claim.verdict).Reports (claims ++ [claim]) where
  matched := by
    have counted : (handling.add claim.rule claim.verdict).matched = handling.matched + 1 := by
      cases h : claim.verdict with
      | unmatched => contradiction
      | suppressed => rfl
      | fires => rfl
    rw [counted, reports.matched, List.length_append, List.length_singleton]
  verdicts verdict := by
    rw [List.filter_append, List.map_append, ← reports.verdicts]
    by_cases same : verdict = claim.verdict
    · subst same
      rw [withVerdict_add_self _ _ matching]
      simp
    · rw [withVerdict_add_ne _ _ same]
      simp [Ne.symm same]

end Handling

namespace Docket

variable {admitted : List Rule → Prop} {docket next : Docket}

def claimsBy (docket : Docket) (index : Nat) : List Claim :=
  docket.claims.filter fun claim => claim.call = index

/-- Calls report what they have claimed, and claim at the time of their events. -/
structure Faithful (docket : Docket) : Prop where
  timely : ∀ call ∈ docket.calls, ∀ timestamp ∈ call.event.timestamp, call.now = timestamp
  made : ∀ claim ∈ docket.claims, ∃ call, docket.calls[claim.call]? = some call ∧
    claim.now = call.now
  reports : ∀ (index : Nat) (call : Call), docket.calls[index]? = some call →
    call.stage.handling.Reports (docket.claimsBy index)

theorem faithful_of_no_calls (engine : Engine) : Faithful { engine } where
  timely := by simp
  made := by simp
  reports := by simp

theorem Faithful.claimsBy_length (faithful : docket.Faithful) :
    docket.claimsBy docket.calls.length = [] := by
  rw [claimsBy, List.filter_eq_nil_iff]
  intro claim mem same
  obtain ⟨call, hcall, _⟩ := faithful.made claim mem
  have bound := (List.getElem?_eq_some_iff.mp hcall).1
  simp only [decide_eq_true_eq] at same
  omega

theorem Faithful.arrive (faithful : docket.Faithful) (event : Event) (clock : Instant) :
    (docket.arrive event clock).Faithful := by
  constructor
  · intro call mem
    rcases List.mem_append.mp mem with old | new
    · exact faithful.timely call old
    · rw [List.mem_singleton.mp new]
      intro timestamp given
      have given : event.timestamp = some timestamp := given
      simp [given]
  · intro claim mem
    obtain ⟨call, hcall, now⟩ := faithful.made claim mem
    have old := (List.getElem?_eq_some_iff.mp hcall).1
    exact ⟨call, by rw [Docket.arrive, List.getElem?_append_left old, hcall], now⟩
  · intro index call present
    change call.stage.handling.Reports (docket.claimsBy index)
    unfold Docket.arrive at present
    rcases Nat.lt_trichotomy index docket.calls.length with old | new | beyond
    · rw [List.getElem?_append_left old] at present
      exact faithful.reports index call present
    · subst new
      rw [List.getElem?_concat_length] at present
      cases present
      rw [faithful.claimsBy_length]
      exact Handling.reports_nil false
    · rw [List.getElem?_eq_none (by simp; omega)] at present
      contradiction

theorem getElem?_proceed {index : Nat} {call : Call} {turn : Turn}
    (present : docket.calls[index]? = some call) (other : Nat) :
    (docket.proceed index call turn).calls[other]? =
      if index = other then some { call with stage := turn.stage }
      else docket.calls[other]? := by
  have bound := (List.getElem?_eq_some_iff.mp present).1
  simp [proceed, List.getElem?_set, bound]

theorem claims_proceed_of_quiet {index : Nat} {call : Call} {turn : Turn}
    (quiet : turn.Quiet call docket.engine) :
    (docket.proceed index call turn).claims = docket.claims := by
  simp [proceed, quiet.claim]

theorem claims_proceed_of_claims {index : Nat} {call : Call} {turn : Turn} {rule : Rule}
    (claims : turn.Claims call docket.engine rule) :
    (docket.proceed index call turn).claims =
      docket.claims ++ [⟨index, rule, call.now, (docket.engine.claim rule call.now).1⟩] := by
  simp [proceed, claims.claim]

theorem claimsBy_proceed_ne {index other : Nat} (ne : index ≠ other) (call : Call) (turn : Turn) :
    (docket.proceed index call turn).claimsBy other = docket.claimsBy other := by
  unfold claimsBy proceed
  cases turn.claim with
  | none => simp
  | some entry => simp [ne]

theorem Faithful.proceed (faithful : docket.Faithful) {index : Nat} {call : Call} {turn : Turn}
    (present : docket.calls[index]? = some call)
    (able : call.turn? docket.engine = some turn) : (docket.proceed index call turn).Faithful := by
  constructor
  · intro other mem
    rcases List.mem_or_eq_of_mem_set mem with old | new
    · exact faithful.timely other old
    · subst new
      exact faithful.timely call (List.mem_of_getElem? present)
  · intro claim mem
    rw [getElem?_proceed present]
    rcases List.mem_append.mp mem with old | new
    · obtain ⟨earlier, hearlier, now⟩ := faithful.made claim old
      split
      · rename_i same
        rw [← same, present] at hearlier
        cases hearlier
        exact ⟨_, rfl, now⟩
      · exact ⟨earlier, hearlier, now⟩
    · simp only [Option.mem_toList, Option.map_eq_some_iff] at new
      obtain ⟨_, _, rfl⟩ := new
      exact ⟨_, if_pos rfl, rfl⟩
  · intro other later hlater
    rw [getElem?_proceed present] at hlater
    -- Only the call that takes the step can have claimed anything more.
    by_cases same : index = other
    · subst same
      rw [if_pos rfl] at hlater
      cases hlater
      have earlier := faithful.reports index call present
      rcases Call.quiet_or_claims able with quiet | ⟨rule, claims⟩
      · rw [claimsBy, claims_proceed_of_quiet quiet]
        exact ⟨quiet.matched.trans earlier.matched,
          fun verdict => (quiet.verdicts verdict).trans (earlier.verdicts verdict)⟩
      · have reported := earlier.add
          ⟨index, rule, call.now, (docket.engine.claim rule call.now).1⟩
          (docket.engine.claim_ne_unmatched rule call.now)
        rw [claimsBy, claims_proceed_of_claims claims, List.filter_append,
          List.filter_cons_of_pos (by simp)]
        change turn.stage.handling.Reports _
        rw [claims.handling]
        exact reported
    · rw [if_neg same] at hlater
      rw [claimsBy_proceed_ne same]
      exact faithful.reports other later hlater

theorem Step.faithful (step : Step admitted docket next) (faithful : docket.Faithful) :
    next.Faithful := by
  cases step with
  | arrive event clock => exact faithful.arrive event clock
  | proceed present able => exact faithful.proceed present able
  | forget permitted => exact ⟨faithful.timely, faithful.made, faithful.reports⟩
  | adopt permitted => exact ⟨faithful.timely, faithful.made, faithful.reports⟩
  | tend sameRules sameFires => exact ⟨faithful.timely, faithful.made, faithful.reports⟩

theorem Run.faithful (run : Run admitted docket next) (faithful : docket.Faithful) :
    next.Faithful := by
  induction run with
  | refl => exact faithful
  | tail _ step ih => exact step.faithful ih

/-! ## Schedules -/

def advance (docket : Docket) : List Nat → Docket
  | [] => docket
  | index :: indices =>
      match docket.calls[index]? with
      | some call =>
          match call.turn? docket.engine with
          | some turn => (docket.proceed index call turn).advance indices
          | none => docket.advance indices
      | none => docket.advance indices

theorem run_advance (docket : Docket) (indices : List Nat) :
    Run admitted docket (docket.advance indices) := by
  induction indices generalizing docket with
  | nil => exact .refl
  | cons index indices ih =>
      unfold advance
      split
      · rename_i call present
        split
        · rename_i turn able
          exact .head (.proceed present able) (ih _)
        · exact ih docket
      · exact ih docket

/-! ## Calls that nothing interrupts -/

/-- Whether a call can get to a stage, leaving a given engine, while no other takes a step. -/
def Reaches (admitted : List Rule → Prop) (docket : Docket) (index : Nat) (call : Call)
    (engine : Engine) : Prop :=
  ∃ claims, Run admitted docket
    { engine, calls := docket.calls.set index call, claims := docket.claims ++ claims }

variable {event : Event} {now : Instant} {index : Nat}

theorem Reaches.refl {call : Call} {engine : Engine} (present : docket.calls[index]? = some call)
    (same : docket.engine = engine) : Reaches admitted docket index call engine := by
  subst same
  obtain ⟨bound, rfl⟩ := List.getElem?_eq_some_iff.mp present
  refine ⟨[], ?_⟩
  rw [List.set_getElem_self, List.append_nil]

theorem Reaches.head {call final : Call} {turn : Turn} {engine : Engine}
    (present : docket.calls[index]? = some call) (able : call.turn? docket.engine = some turn)
    (rest : ∀ next : Docket, next.calls[index]? = some { call with stage := turn.stage } →
      next.engine = turn.engine → Reaches admitted next index final engine) :
    Reaches admitted docket index final engine := by
  obtain ⟨claims, run⟩ := rest (docket.proceed index call turn)
    (by rw [getElem?_proceed present, if_pos rfl]) rfl
  simp only [proceed, List.set_set, List.append_assoc] at run
  exact ⟨_, .head (.proceed present able) run⟩

theorem Reaches.trans {middle final : Call} {between engine : Engine}
    (first : Reaches admitted docket index middle between) (bound : index < docket.calls.length)
    (rest : ∀ next : Docket, next.calls[index]? = some middle → next.engine = between →
      Reaches admitted next index final engine) :
    Reaches admitted docket index final engine := by
  obtain ⟨before, first⟩ := first
  obtain ⟨after, run⟩ := rest ⟨between, docket.calls.set index middle, docket.claims ++ before⟩
    (List.getElem?_set_self bound) rfl
  simp only [List.set_set, List.append_assoc] at run
  exact ⟨_, first.trans run⟩

theorem reaches_of_checking {handling : Handling} {rule : Rule} {conditions : List Condition}
    {pending : List Rule} {verdict : Verdict} {engine : Engine}
    (present : docket.calls[index]? =
      some ⟨event, now, .checking handling rule conditions pending⟩)
    (decided : (if conditions.all fun condition =>
        docket.engine.conditionHolds rule condition event now then docket.engine.claim rule now
      else (.unmatched, docket.engine)) = (verdict, engine)) :
    Reaches admitted docket index ⟨event, now, .deciding (handling.add rule verdict) pending⟩
      engine := by
  induction conditions generalizing docket with
  | nil =>
      have able : Call.turn? ⟨event, now, .checking handling rule [] pending⟩ docket.engine =
          some ⟨.deciding (handling.add rule verdict) pending, engine, some (rule, verdict)⟩ := by
        have decided : docket.engine.claim rule now = (verdict, engine) := decided
        simp [Call.turn?, decided]
      exact .head present able fun next hnext same => .refl hnext same
  | cons condition conditions ih =>
      rw [List.all_cons] at decided
      by_cases holds : docket.engine.conditionHolds rule condition event now
      · have able :
            Call.turn? ⟨event, now, .checking handling rule (condition :: conditions) pending⟩
              docket.engine =
                some ⟨.checking handling rule conditions pending, docket.engine, none⟩ := by
          simp [Call.turn?, holds]
        refine .head present able fun next hnext same => ih hnext ?_
        change next.engine = docket.engine at same
        rw [holds, Bool.true_and] at decided
        rw [same, decided]
      · have able :
            Call.turn? ⟨event, now, .checking handling rule (condition :: conditions) pending⟩
              docket.engine =
                some ⟨.deciding (handling.add rule .unmatched) pending, docket.engine, none⟩ := by
          simp [Call.turn?, holds]
        rw [Bool.eq_false_iff.mpr holds, Bool.false_and] at decided
        cases decided
        exact .head present able fun next hnext same => .refl hnext same

theorem reaches_of_consider {handling : Handling} {rule : Rule} {pending : List Rule}
    {verdict : Verdict} {engine : Engine}
    (present : docket.calls[index]? = some ⟨event, now, .deciding handling (rule :: pending)⟩)
    (decided : docket.engine.consider rule event now = (verdict, engine)) :
    Reaches admitted docket index ⟨event, now, .deciding (handling.add rule verdict) pending⟩
      engine := by
  rw [Engine.consider, Engine.ruleMatches_eq] at decided
  by_cases concerns : rule.objectType == event.objectType && rule.trigger == event.trigger
  · have able : Call.turn? ⟨event, now, .deciding handling (rule :: pending)⟩ docket.engine =
        some ⟨.checking handling rule rule.conditions pending, docket.engine, none⟩ := by
      simp only [Call.turn?, concerns, if_true]
    rw [concerns, Bool.true_and] at decided
    refine .head present able fun next hnext same => reaches_of_checking hnext ?_
    change next.engine = docket.engine at same
    rw [same, decided]
  · have able : Call.turn? ⟨event, now, .deciding handling (rule :: pending)⟩ docket.engine =
        some ⟨.deciding (handling.add rule .unmatched) pending, docket.engine, none⟩ := by
      simp only [Call.turn?, if_neg concerns]
    rw [Bool.eq_false_iff.mpr concerns, Bool.false_and] at decided
    cases decided
    exact .head present able fun next hnext same => .refl hnext same

theorem reaches_of_decide {handling final : Handling} {pending : List Rule} {engine : Engine}
    (present : docket.calls[index]? = some ⟨event, now, .deciding handling pending⟩)
    (decided : docket.engine.decide event now handling pending = (final, engine)) :
    Reaches admitted docket index ⟨event, now, .deciding final []⟩ engine := by
  induction pending generalizing docket handling with
  | nil =>
      cases decided
      exact .refl present rfl
  | cons rule pending ih =>
      have bound := (List.getElem?_eq_some_iff.mp present).1
      have first : Reaches admitted docket index
          ⟨event, now, .deciding (handling.add rule (docket.engine.consider rule event now).1)
            pending⟩ (docket.engine.consider rule event now).2 :=
        reaches_of_consider present rfl
      refine first.trans bound fun next hnext same => ih hnext ?_
      rw [same]
      exact decided

theorem reaches_of_observe {recorded : Bool} {engine : Engine}
    (present : docket.calls[index]? = some ⟨event, now, .arrived⟩)
    (observed : docket.engine.observe event now = (recorded, engine)) :
    Reaches admitted docket index ⟨event, now, .deciding { recorded } engine.rules⟩ engine := by
  have able : Call.turn? ⟨event, now, .arrived⟩ docket.engine =
      some ⟨.observed recorded, engine, none⟩ := by
    simp [Call.turn?, observed]
  refine .head present able fun next hnext same => ?_
  change next.engine = engine at same
  subst same
  exact .head hnext rfl fun last hlast kept => .refl hlast kept

/-- A call that nothing interrupts handles its event as an engine does that handles one event after
another. -/
theorem reaches_of_handle {handling : Handling} {engine : Engine}
    (present : docket.calls[index]? = some ⟨event, now, .arrived⟩)
    (handled : docket.engine.handle event now = (handling, engine)) :
    Reaches admitted docket index ⟨event, now, .deciding handling []⟩ engine := by
  have bound := (List.getElem?_eq_some_iff.mp present).1
  have observed : Reaches admitted docket index
      ⟨event, now, .deciding { recorded := (docket.engine.observe event now).1 }
        (docket.engine.observe event now).2.rules⟩ (docket.engine.observe event now).2 :=
    reaches_of_observe present rfl
  refine observed.trans bound fun next hnext same => reaches_of_decide hnext ?_
  rw [same]
  exact handled

theorem run_refresh {rules : List Rule} (permitted : admitted rules) :
    Run admitted docket { docket with engine := docket.engine.refresh rules } :=
  .tail (.single (.forget docket permitted)) (.adopt _ permitted)

end Docket

end Alerting
