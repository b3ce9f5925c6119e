import Alerting.Installation.Dispatch
import Alerting.Proofs.Activity

/-!
# Carrying out all actions

A rule that fires is told to the notifier by its bells alone, one after another in their order.
Whatever comes of one of them, and whatever else stands between them, the next one follows; the
report counts every action once.
-/

namespace Alerting

/-! ## Reports -/

instance : Add DispatchReport where
  add first second :=
    { delivered := first.delivered + second.delivered
      skipped := first.skipped + second.skipped
      failed := first.failed + second.failed }

def Action.isBell (action : Action) : Bool := action.target = .bell

def Action.notice (rule : Rule) (event : Event) (action : Action) : String × String :=
  (Template.render action.title rule event, Template.render action.message rule event)

def noticesOf (rule : Rule) (event : Event) (actions : List Action) : List (String × String) :=
  (actions.filter Action.isBell).map (Action.notice rule event)

namespace DispatchReport

def tally (actions : List Action) (answers : List Answer) : DispatchReport where
  delivered := answers.count .granted
  skipped := actions.countP fun action => !action.isBell
  failed := answers.countP fun answer => answer ≠ .granted

variable {report : DispatchReport} {action : Action} {actions : List Action} {answer : Answer}
  {answers : List Answer}

theorem add_eq (first second : DispatchReport) :
    first + second =
      { delivered := first.delivered + second.delivered
        skipped := first.skipped + second.skipped
        failed := first.failed + second.failed } := rfl

theorem zero_add : {} + report = report := by
  simp [add_eq]

theorem add_tally_bell (bell : action.isBell = true) :
    report.add (if answer = .granted then .delivered else .failed) + tally actions answers =
      report + tally (action :: actions) (answer :: answers) := by
  by_cases granted : answer = .granted
  · simp [add_eq, add, tally, bell, granted]
    omega
  · simp [add_eq, add, tally, bell, granted]
    omega

theorem add_tally_other (other : action.isBell = false) :
    report.add .skipped + tally actions answers = report + tally (action :: actions) answers := by
  simp [add_eq, add, tally, other]
  omega

theorem foldl_add_skipped (actions : List Action) (report : DispatchReport) :
    actions.foldl (fun report _ => report.add .skipped) report =
      report + { skipped := actions.length } := by
  induction actions generalizing report with
  | nil => rfl
  | cons action actions ih =>
      rw [List.foldl_cons, ih]
      simp [add_eq, add]
      omega

theorem tally_total (answered : answers.length = (actions.filter Action.isBell).length) :
    (tally actions answers).delivered + (tally actions answers).skipped +
      (tally actions answers).failed = actions.length := by
  have bells : actions.length = actions.countP Action.isBell +
      actions.countP (fun action => !action.isBell) := by
    simpa using List.length_eq_countP_add_countP Action.isBell (l := actions)
  have counted : answers.length = answers.count .granted +
      answers.countP (fun answer => answer ≠ .granted) := by
    simpa [List.count] using List.length_eq_countP_add_countP (· == Answer.granted) (l := answers)
  rw [← List.countP_eq_length_filter] at answered
  simp only [tally]
  omega

end DispatchReport

namespace Installation

open Activity

/-! ## What an action does -/

variable {notifier : Notifier} {limit : Nat} {rule : Rule} {event : Event} {action : Action}

def ring (notifier : Notifier) (limit : Nat) (notice : String × String) : Work Answer :=
  notify notifier notice.1 notice.2 limit

theorem carryOut_bell (enabled : notifier.enabled = true) (bell : action.isBell = true) :
    carryOut (some notifier) limit rule event action = do
      let answer ← ring notifier limit (action.notice rule event)
      return if answer = .granted then .delivered else .failed := by
  have target : action.target = .bell := of_decide_eq_true bell
  simp only [carryOut, target, enabled, if_true, ring, Action.notice]
  congr 1
  funext answer
  cases answer <;> rfl

theorem carryOut_other (notifier : Option Notifier) (other : action.isBell = false) :
    carryOut notifier limit rule event action = pure .skipped := by
  have target : action.target ≠ .bell := of_decide_eq_false other
  unfold carryOut
  split
  · contradiction
  · rfl

theorem carryOut_absent {notifier : Option Notifier}
    (absent : notifier.filter Notifier.enabled = none) (action : Action) :
    carryOut notifier limit rule event action = pure .skipped := by
  unfold carryOut
  split
  · split
    · simp_all
    · rfl
  · rfl

theorem foldlM_carryOut (enabled : notifier.enabled = true) (actions : List Action)
    (report : DispatchReport) :
    actions.foldlM (fun report action => do
        return report.add (← carryOut (some notifier) limit rule event action)) report =
      (do
        let answers ← (noticesOf rule event actions).mapM (ring notifier limit)
        return report + .tally actions answers : Work DispatchReport) := by
  induction actions generalizing report with
  | nil => rfl
  | cons action actions ih =>
      rw [List.foldlM_cons]
      cases bell : action.isBell with
      | true =>
          have notices : noticesOf rule event (action :: actions) =
              action.notice rule event :: noticesOf rule event actions := by
            simp [noticesOf, bell]
          simp only [carryOut_bell enabled bell, notices, List.mapM_cons, bind_assoc, pure_bind, ih,
            DispatchReport.add_tally_bell bell]
      | false =>
          have notices : noticesOf rule event (action :: actions) =
              noticesOf rule event actions := by
            simp [noticesOf, bell]
          simp only [carryOut_other _ bell, notices, pure_bind, ih,
            DispatchReport.add_tally_other bell]

theorem dispatch_of_enabled (enabled : notifier.enabled = true) :
    dispatch (some notifier) limit rule event = do
      let answers ← (noticesOf rule event rule.actions).mapM (ring notifier limit)
      return .tally rule.actions answers := by
  unfold dispatch
  rw [foldlM_carryOut enabled]
  simp only [DispatchReport.zero_add]

theorem dispatch_of_absent {notifier : Option Notifier}
    (absent : notifier.filter Notifier.enabled = none) :
    dispatch notifier limit rule event = pure { skipped := rule.actions.length } := by
  unfold dispatch
  simp only [carryOut_absent absent, pure_bind, List.foldlM_pure,
    DispatchReport.foldl_add_skipped, DispatchReport.zero_add]

end Installation

/-! ## One notification after another -/

namespace Notifier

def entered (notifier : Notifier) (notices before : List (String × String)) :
    List (String × String) :=
  if notifier.recorded then notices.reverse ++ before else before

def answers (notifier : Notifier) (limit : Nat) (before : List (String × String)) :
    List (String × String) → List Answer
  | [] => []
  | notice :: notices =>
      (notifier.reply before).finalAnswer limit ::
        notifier.answers limit (notifier.entered [notice] before) notices

variable {notifier : Notifier} {limit : Nat} {notice : String × String}
  {notices before : List (String × String)}

theorem entered_nil : notifier.entered [] before = before := by
  simp [entered]

theorem entered_cons :
    notifier.entered (notice :: notices) before =
      notifier.entered notices (notifier.entered [notice] before) := by
  by_cases recorded : notifier.recorded <;> simp [entered, recorded]

theorem length_answers : (notifier.answers limit before notices).length = notices.length := by
  induction notices generalizing before with
  | nil => rfl
  | cons notice notices ih => simp [answers, ih]

end Notifier

namespace Installation

open Activity

variable {notifier : Notifier} {limit : Nat} {rule : Rule} {event : Event}

def noted (installation : Installation) (time : Nat) (notices : List (String × String)) :
    Installation :=
  { installation with time, journal := { installation.journal with notices } }

theorem exists_run_answerWithin (limit : Nat) (reply : Reply) (installation : Installation) :
    ∃ time, (reply.answerWithin limit).run installation =
      some (reply.finalAnswer limit, { installation with time }) := by
  rcases reply.answerWithin_eq Installation limit with same | ⟨millis, same⟩
  · rw [same]
    exact ⟨installation.time, rfl⟩
  · rw [same]
    exact ⟨_, rfl⟩

theorem exists_run_ring (notifier : Notifier) (limit : Nat) (notice : String × String)
    (installation : Installation) :
    ∃ time, (ring notifier limit notice).run installation =
      some ((notifier.reply installation.journal.notices).finalAnswer limit,
        installation.noted time (notifier.entered [notice] installation.journal.notices)) := by
  have waits := exists_run_answerWithin limit (notifier.reply installation.journal.notices)
  by_cases recorded : notifier.recorded = true
  · obtain ⟨time, waits⟩ := waits
      (installation.noted installation.time (notice :: installation.journal.notices))
    refine ⟨time, ?_⟩
    simp only [ring, notify, recorded, if_true, Notifier.entered]
    exact waits
  · obtain ⟨time, waits⟩ := waits installation
    refine ⟨time, ?_⟩
    simp only [ring, notify, recorded, Notifier.entered]
    exact waits

theorem exists_run_rings (notifier : Notifier) (limit : Nat) (notices : List (String × String))
    (installation : Installation) :
    ∃ time, (notices.mapM (ring notifier limit)).run installation =
      some (notifier.answers limit installation.journal.notices notices,
        installation.noted time (notifier.entered notices installation.journal.notices)) := by
  induction notices generalizing installation with
  | nil =>
      refine ⟨installation.time, ?_⟩
      rw [Notifier.entered_nil]
      rfl
  | cons notice notices ih =>
      obtain ⟨time, first⟩ := exists_run_ring notifier limit notice installation
      obtain ⟨time, rest⟩ := ih
        (installation.noted time (notifier.entered [notice] installation.journal.notices))
      have entered : notifier.entered (notice :: notices) installation.journal.notices =
          notifier.entered notices (notifier.entered [notice] installation.journal.notices) :=
        Notifier.entered_cons
      refine ⟨time, ?_⟩
      rw [List.mapM_cons, run_bind, first, Option.bind_some, run_bind, rest, entered]
      rfl

theorem exists_run_dispatch (enabled : notifier.enabled = true) (limit : Nat) (rule : Rule)
    (event : Event) (installation : Installation) :
    ∃ time, (dispatch (some notifier) limit rule event).run installation =
      some (.tally rule.actions
          (notifier.answers limit installation.journal.notices
            (noticesOf rule event rule.actions)),
        installation.noted time
          (notifier.entered (noticesOf rule event rule.actions) installation.journal.notices)) := by
  obtain ⟨time, rings⟩ :=
    exists_run_rings notifier limit (noticesOf rule event rule.actions) installation
  refine ⟨time, ?_⟩
  rw [dispatch_of_enabled enabled, run_bind, rings]
  rfl

/-- Whatever the notifier replies and whenever, a dispatch comes to an end with a report that counts
each action once. An enabled notifier is sent the notifications of the bells and nothing else, in
the order of the actions, and the report tells of them by its answers; without one nobody is told. -/
theorem dispatch_counts_every_action (notifier : Option Notifier) (limit : Nat) (rule : Rule)
    (event : Event) (installation : Installation) :
    ∃ report last, (dispatch notifier limit rule event).run installation = some (report, last) ∧
      report.delivered + report.skipped + report.failed = rule.actions.length ∧
      match notifier.filter Notifier.enabled with
      | none =>
          dispatch notifier limit rule event = pure report ∧ last = installation ∧
            report = { skipped := rule.actions.length }
      | some notifier =>
          let notices := noticesOf rule event rule.actions
          let before := installation.journal.notices
          dispatch notifier limit rule event = (do
              let answers ← notices.mapM (ring notifier limit)
              return .tally rule.actions answers) ∧
            (∃ time, last = installation.noted time (notifier.entered notices before)) ∧
            report = .tally rule.actions (notifier.answers limit before notices) := by
  cases heard : notifier.filter Notifier.enabled with
  | none =>
      have absent : dispatch notifier limit rule event = pure { skipped := rule.actions.length } :=
        dispatch_of_absent heard
      refine ⟨_, installation, congrArg (·.run installation) absent, ?_, absent, rfl, rfl⟩
      simp
  | some listener =>
      obtain ⟨rfl, enabled⟩ := Option.filter_eq_some_iff.mp heard
      obtain ⟨time, ran⟩ := exists_run_dispatch enabled limit rule event installation
      refine ⟨_, _, ran, ?_, dispatch_of_enabled enabled, ⟨time, rfl⟩, rfl⟩
      apply DispatchReport.tally_total
      rw [Notifier.length_answers, noticesOf, List.length_map]

def moody : Notifier where
  name := "moody"
  reply earlier :=
    match earlier.length with
    | 0 => .refused "unavailable"
    | 1 => .never
    | _ => .prompt

example :
    ((dispatch (some moody) 100
        { name := "door", objectType := "house", trigger := .event "open"
          actions := [⟨.bell, "one", ""⟩, ⟨.other "mail", "", ""⟩, ⟨.bell, "two", ""⟩,
            ⟨.bell, "\x7b\x7brule_name\x7d\x7d", "three"⟩] }
        (.occurrence "house" "open")).run (start (.clamp 0))).map
      (fun ran => (ran.1, ran.2.time, ran.2.journal.notices)) =
    some ({ delivered := 1, skipped := 1, failed := 2 }, 100,
      [("door", "three"), ("two", "Alert: door (open)"), ("one", "Alert: door (open)")]) := by
  decide +kernel

end Installation

end Alerting
