import Alerting.Proofs.Engine.Ledger

/-!
# Test fires

A test fire counts as a fire of its rule: a rule with a cooldown keeps quiet after it. For all other
rules, and for all that does not depend on cooldowns, it might as well not have happened.
-/

namespace Alerting

/-- Whether the cooldown of a rule is what it is without the rules that have been fired for a test:
it is not one of them, or it has no cooldown. -/
def Untouched (rules : List Rule) (tested : List UInt64) (id : UInt64) : Prop :=
  id ∈ tested → ∀ rule ∈ rules, rule.id = id → rule.cooldownSeconds.toInt ≤ 0

instance (rules : List Rule) (tested : List UInt64) (id : UInt64) :
    Decidable (Untouched rules tested id) :=
  inferInstanceAs (Decidable (_ → _))

structure Handling.AgreesOn (named : UInt64 → Prop) [DecidablePred named] (left right : Handling) :
    Prop where
  recorded : left.recorded = right.recorded
  evaluated : left.evaluated = right.evaluated
  matched : left.matched = right.matched
  fired : left.fired.filter named = right.fired.filter named
  suppressed : left.suppressed.filter named = right.suppressed.filter named

section

variable {named : UInt64 → Prop} [DecidablePred named] {left right : Handling} {rule : Rule}
  {first second : Verdict}

theorem Handling.agreesOn_refl (handling : Handling) : handling.AgreesOn named handling :=
  ⟨rfl, rfl, rfl, rfl, rfl⟩

theorem filter_verdict (same : named rule.id → first = second) (verdict : Verdict) :
    (if first = verdict then [rule.id] else []).filter named =
      (if second = verdict then [rule.id] else []).filter named := by
  by_cases hnamed : named rule.id
  · rw [same hnamed]
  · split <;> split <;> simp [hnamed]

theorem Handling.AgreesOn.add (agrees : left.AgreesOn named right)
    (alike : first = .unmatched ↔ second = .unmatched) (same : named rule.id → first = second) :
    (left.add rule first).AgreesOn named (right.add rule second) where
  recorded := by
    rw [recorded_add, recorded_add]
    exact agrees.recorded
  evaluated := by
    rw [evaluated_add, evaluated_add, agrees.evaluated]
  matched := by
    rw [matched_add, matched_add, agrees.matched]
    simp only [alike]
  fired := by
    rw [fired_add, fired_add, List.filter_append, List.filter_append, agrees.fired,
      filter_verdict same]
  suppressed := by
    rw [suppressed_add, suppressed_add, List.filter_append, List.filter_append,
      agrees.suppressed, filter_verdict same]

end

namespace Engine

variable {left right : Engine} {rule : Rule} {event : Event} {now : Instant} {tested : List UInt64}

/-- Whether engines are alike but for the last fires of rules that have been fired for a test. -/
structure AlikeBut (tested : List UInt64) (left right : Engine) : Prop where
  rules : left.rules = right.rules
  tracker : left.tracker = right.tracker
  lastFired : ∀ id, id ∉ tested → left.lastFired id = right.lastFired id

theorem AlikeBut.alikeOn (alike : AlikeBut tested left right) (untested : rule.id ∉ tested) :
    AlikeOn rule left right :=
  alikeOn_of_tracker (alike.lastFired rule.id untested) alike.tracker

theorem AlikeBut.unmatched (alike : AlikeBut tested left right) :
    left.verdict rule event now = .unmatched ↔ right.verdict rule event now = .unmatched := by
  rw [verdict_eq_unmatched_iff, verdict_eq_unmatched_iff, ruleMatches_of_tracker alike.tracker]

theorem AlikeBut.verdict (alike : AlikeBut tested left right) {rules : List Rule}
    (mem : rule ∈ rules) (untouched : Untouched rules tested rule.id) :
    left.verdict rule event now = right.verdict rule event now := by
  by_cases listed : rule.id ∈ tested
  · -- The last fires may differ here, but without a cooldown they do not matter.
    have ready := untouched listed rule mem rfl
    rw [verdict_eq, verdict_eq, ruleMatches_of_tracker alike.tracker]
    simp [verdictAfter, ready]
  · exact (alike.alikeOn listed).verdict

theorem AlikeBut.consider (alike : AlikeBut tested left right) :
    AlikeBut tested (left.consider rule event now).2 (right.consider rule event now).2 where
  rules := by
    rw [rules_consider, rules_consider]
    exact alike.rules
  tracker := by
    rw [tracker_consider, tracker_consider]
    exact alike.tracker
  lastFired id untested := by
    rw [lastFired_consider, lastFired_consider, alike.lastFired id untested]
    by_cases same : id = rule.id
    · subst same
      rw [(alike.alikeOn untested).verdict]
    · simp [same]

theorem AlikeBut.observe (alike : AlikeBut tested left right) :
    AlikeBut tested (left.observe event now).2 (right.observe event now).2 where
  rules := by
    rw [rules_observe, rules_observe]
    exact alike.rules
  tracker := by simp [observe_eq, alike.tracker]
  lastFired id untested := by
    have same := alike.lastFired id untested
    simp only [Engine.lastFired, lastFires_observe] at same ⊢
    exact same

theorem AlikeBut.decide (alike : AlikeBut tested left right) {rules pending : List Rule}
    (listed : pending ⊆ rules) {told other : Handling}
    (agrees : told.AgreesOn (Untouched rules tested) other) :
    (left.decide event now told pending).1.AgreesOn (Untouched rules tested)
        (right.decide event now other pending).1 ∧
      AlikeBut tested (left.decide event now told pending).2
        (right.decide event now other pending).2 := by
  induction pending generalizing left right told other with
  | nil => exact ⟨agrees, alike⟩
  | cons rule pending ih =>
      obtain ⟨mem, listed⟩ := List.cons_subset.mp listed
      rw [decide_cons, decide_cons]
      exact ih alike.consider listed (agrees.add alike.unmatched (alike.verdict mem))

theorem AlikeBut.handle (alike : AlikeBut tested left right) :
    (left.handle event now).1.AgreesOn (Untouched left.rules tested) (right.handle event now).1 ∧
      AlikeBut tested (left.handle event now).2 (right.handle event now).2 := by
  rw [handle_eq_decide, handle_eq_decide, ← alike.rules]
  have recorded : (left.observe event now).1 = (right.observe event now).1 := by
    rw [observe_eq, observe_eq]
  rw [recorded]
  exact alike.observe.decide (List.Subset.refl _) (Handling.agreesOn_refl _)

theorem AlikeBut.noteFire (alike : AlikeBut tested left right) {id : UInt64} (mem : id ∈ tested) :
    AlikeBut tested left (right.noteFire id now) where
  rules := alike.rules
  tracker := alike.tracker
  lastFired other untested := by
    have ne : other ≠ id := fun same => untested (same ▸ mem)
    rw [lastFired_noteFire_ne ne]
    exact alike.lastFired other untested

theorem AlikeBut.cooldownRemaining (alike : AlikeBut tested left right) {id : UInt64}
    (untouched : Untouched left.rules tested id) :
    left.cooldownRemaining id now = right.cooldownRemaining id now := by
  unfold Engine.cooldownRemaining
  rw [← alike.rules]
  by_cases listed : id ∈ tested
  · cases found : left.rules.find? fun rule => rule.id == id with
    | none => rfl
    | some rule =>
        have same : rule.id = id := by simpa using List.find?_some found
        have ready := untouched listed rule (List.mem_of_find?_eq_some found) same
        have noCooldown : rule.cooldown = none := by simp [Rule.cooldown, ready]
        simp [noCooldown]
  · rw [alike.lastFired id listed]

end Engine

/-! ## Whole runs -/

namespace Installation

open Activity

def Request.tested? : Request → Option UInt64
  | .testFire rule => some rule.id
  | _ => none

/-- Whether the responses to requests agree with the answers to those of them that fire no rule for a
test, as far as some of the rules are concerned. -/
inductive Amid (named : UInt64 → Prop) [DecidablePred named] :
    List Request → List Response → List Response → Prop where
  | nil : Amid named [] [] []
  | testFire {rule : Rule} {requests : List Request} {responses answers : List Response}
      (rest : Amid named requests responses answers) :
      Amid named (.testFire rule :: requests) (.testFired :: responses) answers
  | handle {event : Event} {handling answer : Handling} {requests : List Request}
      {responses answers : List Response} (agrees : answer.AgreesOn named handling)
      (rest : Amid named requests responses answers) :
      Amid named (.handle event :: requests) (.handled handling :: responses)
        (.handled answer :: answers)
  | cooldownRemaining {id : UInt64} {now : Instant} {remaining answer : Option Span}
      {requests : List Request} {responses answers : List Response}
      (agrees : named id → answer = remaining) (rest : Amid named requests responses answers) :
      Amid named (.cooldownRemaining id now :: requests) (.cooldown remaining :: responses)
        (.cooldown answer :: answers)

variable {index place : Nat} {requests : List Request} {responses answers : List Response}

theorem amid_of_chains {W X : Type} {outlook : Outlook index W} {other : Outlook place X}
    {tested : List UInt64} (steady : ∀ request ∈ requests, request ≠ .refresh)
    (listed : ∀ request ∈ requests, ∀ id, request.tested? = some id → id ∈ tested)
    {rules : List Rule} {left last : W} {right final : X}
    (snapshot : (outlook.engine left).rules = rules)
    (alike : Engine.AlikeBut tested (outlook.engine left) (other.engine right))
    (plain : Chain (Serves outlook) left (requests.filter fun request => request.tested?.isNone)
      answers last)
    (full : Chain (Serves other) right requests responses final) :
    Amid (Untouched rules tested) requests responses answers := by
  -- The run with the test fires sets the pace: the other one stands still while a rule is tested.
  induction full generalizing left answers with
  | nil state =>
      cases plain
      exact .nil
  | @cons right between final request response requests responses first rest ih =>
      have steadyRest : ∀ request ∈ requests, request ≠ .refresh :=
        fun request mem => steady request (List.mem_cons_of_mem _ mem)
      have listedRest : ∀ request ∈ requests, ∀ id, request.tested? = some id → id ∈ tested :=
        fun request mem => listed request (List.mem_cons_of_mem _ mem)
      cases first with
      | testFire after tells =>
          have mem := listed _ List.mem_cons_self _ rfl
          refine .testFire (ih steadyRest listedRest snapshot ?_ plain)
          rw [after]
          exact alike.noteFire mem
      | handle timely after tells =>
          rw [List.filter_cons_of_pos (by rfl)] at plain
          obtain - | ⟨plainFirst, plainRest⟩ := plain
          cases plainFirst with
          | handle plainTimely plainAfter plainTells =>
              cases timely.symm.trans plainTimely
              obtain ⟨agrees, alike⟩ := alike.handle
              rw [snapshot] at agrees
              rw [← plainAfter, ← after] at alike
              refine .handle agrees (ih steadyRest listedRest ?_ alike plainRest)
              rw [plainAfter, Engine.rules_handle, snapshot]
      | refresh shows after tells => exact absurd rfl (steady _ List.mem_cons_self)
      | refuse => exact absurd rfl (steady _ List.mem_cons_self)
      | cooldownRemaining after tells =>
          rw [List.filter_cons_of_pos (by rfl)] at plain
          obtain - | ⟨plainFirst, plainRest⟩ := plain
          cases plainFirst with
          | cooldownRemaining plainAfter plainTells =>
              refine .cooldownRemaining (fun untouched => ?_)
                (ih steadyRest listedRest ?_ ?_ plainRest)
              · rw [← snapshot] at untouched
                exact alike.cooldownRemaining untouched
              · rw [plainAfter, snapshot]
              · rw [plainAfter, after]
                exact alike

/-- Test fires among requests change nothing of what is answered about rules that are not fired for
a test or have no cooldown, nor which rules match and which readings are remembered. Each of them
adds nothing but its own record and dispatch, and is noted as the last fire of its rule. -/
theorem responses_amid_testFires (timely : ∀ request ∈ requests, request.Timely)
    (steady : ∀ request ∈ requests, request ≠ .refresh)
    {first second firstEnd secondEnd : Installation} {ledger : Ledger}
    (present : engineAt index first = some ledger.engine)
    (shows : ledgerAt false place second = some ledger)
    (plain : Ends (engineAt index)
      ((requests.filter fun request => request.tested?.isNone).mapM (serve index)) first answers
      firstEnd)
    (full : Ends (ledgerAt false place) (requests.mapM (serve place)) second responses secondEnd) :
    Amid (Untouched ledger.engine.rules (requests.filterMap Request.tested?)) requests responses
        answers ∧
      ∃ final, ledgerAt false place secondEnd = some final ∧
        Chain (Serves (ledgerOutlook false place)) ledger requests responses final := by
  have plainTimely : ∀ request ∈ requests.filter fun request => request.tested?.isNone,
      request.Timely := fun request mem => timely request (List.mem_filter.mp mem).1
  obtain ⟨last, -, plainServed⟩ := (engineOutlook index).chain plainTimely present plain
  obtain ⟨final, ends, served⟩ := (ledgerOutlook false place).chain timely shows full
  have listed : ∀ request ∈ requests, ∀ id, request.tested? = some id →
      id ∈ requests.filterMap Request.tested? :=
    fun request mem id tested => List.mem_filterMap.mpr ⟨request, mem, tested⟩
  have alike : Engine.AlikeBut (requests.filterMap Request.tested?)
      ((engineOutlook index).engine ledger.engine) ((ledgerOutlook false place).engine ledger) :=
    ⟨rfl, rfl, fun _ _ => rfl⟩
  exact ⟨amid_of_chains steady listed rfl alike plainServed served, final, ends, served⟩

def trial : List Request :=
  [.handle (load 95 0), .testFire warm, .testFire hot, .handle (load 96 25),
   .cooldownRemaining 1 (.clamp 30000000000), .handle (load 97 35), .handle (load 98 61)]

def untried : List Response :=
  [.handled { recorded := true, evaluated := 2, matched := 1, fired := [2] },
   .handled { recorded := true, evaluated := 2, matched := 2, fired := [1, 2] },
   .cooldown (some (.seconds 55)),
   .handled { recorded := true, evaluated := 2, matched := 1, fired := [2] },
   .handled { recorded := true, evaluated := 2, matched := 2, fired := [2], suppressed := [1] }]

def tried : List Response :=
  [.handled { recorded := true, evaluated := 2, matched := 1, fired := [2] },
   .testFired, .testFired,
   .handled { recorded := true, evaluated := 2, matched := 2, fired := [2], suppressed := [1] },
   .cooldown (some (.clamp 30000002000)),
   .handled { recorded := true, evaluated := 2, matched := 1, fired := [2] },
   .handled { recorded := true, evaluated := 2, matched := 2, fired := [1, 2] }]

theorem responses_amid_testFires_of_trial :
    ∃ last, Amid (Untouched [hot, warm] [2, 1]) trial tried untried ∧
      ∃ final, ledgerAt false 0 last = some final ∧
        Chain (Serves (ledgerOutlook false 0))
          { engine := (Engine.start {}).refresh [hot, warm], history := [], lastRecordId := 0,
            dispatches := [] } trial tried final := by
  have plain : ∃ last, Ends (engineAt 0)
      ((trial.filter fun request => request.tested?.isNone).mapM (serve 0))
      (withEngine [hot, warm] {} none) untried last :=
    exists_ends_of_run (fun _ _ => rfl) (by decide +kernel)
  have full : ∃ last, Ends (ledgerAt false 0) (trial.mapM (serve 0))
      (withEngine [hot, warm] {} (some .observer)) tried last :=
    exists_ends_of_run (fun _ _ => rfl) (by decide +kernel)
  obtain ⟨_, plain⟩ := plain
  obtain ⟨last, full⟩ := full
  have timely : ∀ request ∈ trial, request.Timely := by
    simp [trial, Request.Timely, load]
  have steady : ∀ request ∈ trial, request ≠ .refresh := by
    simp [trial]
  exact ⟨last, responses_amid_testFires timely steady rfl rfl plain full⟩

def greeting : Rule :=
  { id := 1, name := "greeting", objectType := "host", trigger := .event "up"
    cooldownSeconds := 300 }

/-- A rule that has been fired for a test keeps quiet when it matches soon afterwards. -/
theorem not_forall_responses_amid_testFires :
    ¬∀ (index : Nat) (requests : List Request) (responses answers : List Response)
      (first second firstEnd secondEnd : Installation) (engine : Engine),
      (∀ request ∈ requests, request.Timely) → (∀ request ∈ requests, request ≠ .refresh) →
      engineAt index first = some engine → engineAt index second = some engine →
      Ends (engineAt index)
        ((requests.filter fun request => request.tested?.isNone).mapM (serve index)) first answers
        firstEnd →
      Ends (engineAt index) (requests.mapM (serve index)) second responses secondEnd →
      responses.filter (· ≠ .testFired) = answers := by
  intro unchanged
  have plain : ∃ last, Ends (engineAt 0) ([.handle (restart 10)].mapM (serve 0))
      (withEngine [greeting] {} none)
      [.handled { recorded := false, evaluated := 1, matched := 1, fired := [1] }] last :=
    exists_ends_of_run (fun _ _ => rfl) (by decide +kernel)
  have full : ∃ last, Ends (engineAt 0)
      ([.testFire greeting, .handle (restart 10)].mapM (serve 0)) (withEngine [greeting] {} none)
      [.testFired, .handled { recorded := false, evaluated := 1, matched := 1, suppressed := [1] }]
      last :=
    exists_ends_of_run (fun _ _ => rfl) (by decide +kernel)
  obtain ⟨_, plain⟩ := plain
  obtain ⟨_, full⟩ := full
  have same := unchanged 0 [.testFire greeting, .handle (restart 10)] _ _ _ _ _ _ _
    (by simp [Request.Timely, restart]) (by simp) rfl rfl plain full
  simp at same

end Installation

end Alerting
