import Alerting.Installation.Storage
import Alerting.Proofs.Course
import Alerting.Proofs.Engine.Service
import Alerting.Proofs.Store.Invariants

/-!
# Calls to a rule store in a row

Whoever calls the store, one call after another, finds the rules as the store keeps them and gets
numbers that no call before was given. A call that fails, be it that the store does not reply or
that it refuses the change, leaves everything as it was.
-/

namespace Alerting

namespace Installation

open Activity

inductive StoreCall where
  | create (rule : Rule)
  | update (rule : Rule)
  | toggle (id : UInt64) (enabled : Bool)
  | delete (id : UInt64)
  | save (record : Record)
  | deleteHistoryBefore (cutoff : Instant)
  | clearHistory

inductive StoreAnswer where
  | created (rule : Rule)
  | changed
  | deleted (rule : Rule)
  | saved (id : UInt64)
  | removed (count : Nat)
deriving DecidableEq

def callStore : StoreCall → Attempt StoreAnswer
  | .create rule => do return .created (← createRule rule)
  | .update rule => do
      changeStore fun store => ((), ·) <$> store.update rule
      return .changed
  | .toggle id enabled => do
      changeStore fun store => ((), ·) <$> store.toggle id enabled
      return .changed
  | .delete id => do return .deleted (← changeStore fun store => store.delete id)
  | .save record => do return .saved (← saveRecord record)
  | .deleteHistoryBefore cutoff => do return .removed (← deleteHistoryBefore cutoff)
  | .clearHistory => do return .removed (← changeStore fun store => .ok store.clearHistory)

inductive Performs (before : Store) : StoreCall → Except Fault StoreAnswer → Store → Prop where
  | create {rule made : Rule} {after : Store} (done : before.create rule = .ok (made, after)) :
      Performs before (.create rule) (.ok (.created made)) after
  | update {rule : Rule} {after : Store} (done : before.update rule = .ok after) :
      Performs before (.update rule) (.ok .changed) after
  | toggle {id : UInt64} {enabled : Bool} {after : Store}
      (done : before.toggle id enabled = .ok after) :
      Performs before (.toggle id enabled) (.ok .changed) after
  | delete {id : UInt64} {gone : Rule} {after : Store}
      (done : before.delete id = .ok (gone, after)) :
      Performs before (.delete id) (.ok (.deleted gone)) after
  | save (record : Record) :
      Performs before (.save record) (.ok (.saved (before.save record).1)) (before.save record).2
  | deleteHistoryBefore (cutoff : Instant) :
      Performs before (.deleteHistoryBefore cutoff)
        (.ok (.removed (before.deleteHistoryBefore cutoff).1))
        (before.deleteHistoryBefore cutoff).2
  | clearHistory :
      Performs before .clearHistory (.ok (.removed before.clearHistory.1)) before.clearHistory.2
  | fail (call : StoreCall) (fault : Fault) : Performs before call (.error fault) before

/-! ## One call -/

section

variable {A : Type} {seen : Store} {call : StoreCall}

theorem ensures_changeStore {change : Store → Except Fault (A × Store)} {answer : A → StoreAnswer}
    (succeeds : ∀ result after, change seen = .ok (result, after) →
      Performs seen call (.ok (answer result)) after) :
    (changeStore change).run.Ensures Installation.store
      (fun result after => Performs seen call (answer <$> result) after) seen := by
  apply ensures_step
  rintro installation rfl
  cases changed : change installation.store with
  | error fault => exact .fail call fault
  | ok done =>
      obtain ⟨result, after⟩ := done
      exact succeeds result after changed

theorem ensures_awaited {kind : StoreConduct → Reply} {attempt : Attempt A}
    {answer : A → StoreAnswer}
    (ensures : attempt.run.Ensures Installation.store
      (fun result after => Performs seen call (answer <$> result) after) seen) :
    (do awaitStore kind; attempt : Attempt A).run.Ensures Installation.store
      (fun result after => Performs seen call (answer <$> result) after) seen := by
  apply (ensures_awaitStore kind).run_bind
  · rintro _ _ rfl
    exact ensures
  · rintro fault _ rfl
    exact .fail call fault

theorem ensures_answer {attempt : Attempt A} {answer : A → StoreAnswer}
    (ensures : attempt.run.Ensures Installation.store
      (fun result after => Performs seen call (answer <$> result) after) seen) :
    (do return answer (← attempt) : Attempt StoreAnswer).run.Ensures Installation.store
      (Performs seen call) seen := by
  apply ensures.run_bind
  · exact fun result after performs => performs
  · exact fun fault after performs => performs

theorem ensures_callStore (call : StoreCall) (seen : Store) :
    (callStore call).run.Ensures Installation.store (Performs seen call) seen := by
  cases call with
  | create rule =>
      apply ensures_answer
      apply ensures_awaited
      exact ensures_changeStore fun made after done => .create done
  | update rule =>
      apply ensures_answer
      apply ensures_changeStore
      intro _ after done
      cases updated : seen.update rule <;> rw [updated] at done <;> cases done
      exact .update updated
  | toggle id enabled =>
      apply ensures_answer
      apply ensures_changeStore
      intro _ after done
      cases toggled : seen.toggle id enabled <;> rw [toggled] at done <;> cases done
      exact .toggle toggled
  | delete id =>
      apply ensures_answer
      exact ensures_changeStore fun gone after done => .delete done
  | save record =>
      apply ensures_answer
      apply ensures_awaited
      apply ensures_changeStore
      rintro _ _ ⟨⟩
      exact .save record
  | deleteHistoryBefore cutoff =>
      apply ensures_answer
      apply ensures_awaited
      apply ensures_changeStore
      rintro _ _ ⟨⟩
      exact .deleteHistoryBefore cutoff
  | clearHistory =>
      apply ensures_answer
      apply ensures_changeStore
      rintro _ _ ⟨⟩
      exact .clearHistory

end

/-! ## What a call leaves alone -/

def StoreCall.named? : StoreCall → Option UInt64
  | .update rule => some rule.id
  | .toggle id _ => some id
  | .delete id => some id
  | _ => none

def StoreCall.outcome : StoreCall → Option Rule → Option Rule
  | .update rule, stored => stored.map fun _ => rule
  | .toggle _ enabled, stored => stored.map fun stored => { stored with enabled }
  | .delete _, _ => none
  | _, stored => stored

structure Spared (before : Store) (call : StoreCall) (answer : Except Fault StoreAnswer)
    (after : Store) : Prop where
  atomic : ∀ fault, answer = .error fault → after = before
  others : ∀ id, call.named? = some id →
    after.entries.filter (fun entry => entry.1 != id) =
      before.entries.filter fun entry => entry.1 != id
  named : ∀ id given, call.named? = some id → answer = .ok given →
    after.rule? id = call.outcome (before.rule? id)

variable {before after : Store} {call : StoreCall} {answer : Except Fault StoreAnswer}

theorem Performs.spared (performs : Performs before call answer after) :
    Spared before call answer after := by
  cases performs with
  | update done =>
      obtain ⟨_, _, rfl⟩ := Store.update_eq_ok done
      refine ⟨nofun, ?_, ?_⟩
      · rintro _ ⟨⟩
        exact Store.filter_amend
      · rintro _ _ ⟨⟩ _
        exact Store.rule?_amend
  | toggle done =>
      obtain ⟨_, rfl⟩ := Store.toggle_eq_ok done
      refine ⟨nofun, ?_, ?_⟩
      · rintro _ ⟨⟩
        exact Store.filter_amend
      · rintro _ _ ⟨⟩ _
        exact Store.rule?_amend
  | delete done =>
      have gone := Store.rule?_delete done
      obtain ⟨_, rfl⟩ := Store.delete_eq_ok done
      refine ⟨nofun, ?_, ?_⟩
      · rintro _ ⟨⟩
        simp
      · rintro _ _ ⟨⟩ _
        exact gone
  | create | save | deleteHistoryBefore | clearHistory => exact ⟨nofun, nofun, nofun⟩
  | fail call fault => exact ⟨fun _ _ => rfl, fun _ _ => rfl, nofun⟩

/-! ## Numbers -/

def created? : Except Fault StoreAnswer → Option Rule
  | .ok (.created rule) => some rule
  | _ => none

def saved? : Except Fault StoreAnswer → Option UInt64
  | .ok (.saved id) => some id
  | _ => none

theorem Performs.wellKept (performs : Performs before call answer after) (kept : before.WellKept)
    (room : before.lastRuleId.toNat + (created? answer).toList.length < UInt64.size) :
    after.WellKept := by
  cases performs with
  | create done => exact kept.create done room
  | update done => exact kept.update done
  | toggle done => exact kept.toggle done
  | delete done => exact kept.delete done
  | save | deleteHistoryBefore | clearHistory =>
      exact ⟨kept.keyed, kept.valid, kept.ascending, kept.numbered⟩
  | fail => exact kept

theorem Performs.lastRuleId (performs : Performs before call answer after)
    (room : before.lastRuleId.toNat + (created? answer).toList.length < UInt64.size) :
    after.lastRuleId.toNat = before.lastRuleId.toNat + (created? answer).toList.length ∧
      ∀ rule ∈ created? answer, rule.id.toNat = before.lastRuleId.toNat + 1 := by
  cases performs with
  | create done =>
      obtain ⟨_, hmade, rfl⟩ := Store.create_eq_ok done
      refine ⟨toNat_add_one room, ?_⟩
      rintro _ ⟨⟩
      rw [hmade]
      exact toNat_add_one room
  | update done =>
      obtain ⟨_, _, rfl⟩ := Store.update_eq_ok done
      exact ⟨rfl, nofun⟩
  | toggle done =>
      obtain ⟨_, rfl⟩ := Store.toggle_eq_ok done
      exact ⟨rfl, nofun⟩
  | delete done =>
      obtain ⟨_, rfl⟩ := Store.delete_eq_ok done
      exact ⟨rfl, nofun⟩
  | save | deleteHistoryBefore | clearHistory | fail => exact ⟨rfl, nofun⟩

theorem Performs.filed (performs : Performs before call answer after) (filed : before.Filed)
    (room : before.lastRecordId.toNat + (saved? answer).toList.length < UInt64.size) :
    after.Filed := by
  cases performs with
  | save record => exact filed.save record room
  | create done =>
      obtain ⟨_, _, rfl⟩ := Store.create_eq_ok done
      exact ⟨filed.descending, filed.numbered⟩
  | update done =>
      obtain ⟨_, _, rfl⟩ := Store.update_eq_ok done
      exact ⟨filed.descending, filed.numbered⟩
  | toggle done =>
      obtain ⟨_, rfl⟩ := Store.toggle_eq_ok done
      exact ⟨filed.descending, filed.numbered⟩
  | delete done =>
      obtain ⟨_, rfl⟩ := Store.delete_eq_ok done
      refine ⟨filed.descending.sublist (List.filter_sublist.map _), fun record mem => ?_⟩
      exact filed.numbered record (List.mem_filter.mp mem).1
  | deleteHistoryBefore cutoff => exact filed.sublist List.filter_sublist
  | clearHistory => exact filed.sublist (List.nil_sublist _)
  | fail => exact filed

theorem Performs.lastRecordId (performs : Performs before call answer after)
    (room : before.lastRecordId.toNat + (saved? answer).toList.length < UInt64.size) :
    after.lastRecordId.toNat = before.lastRecordId.toNat + (saved? answer).toList.length ∧
      ∀ id ∈ saved? answer, id.toNat = before.lastRecordId.toNat + 1 := by
  cases performs with
  | save record =>
      refine ⟨toNat_add_one room, ?_⟩
      rintro _ ⟨⟩
      exact toNat_add_one room
  | create done =>
      obtain ⟨_, _, rfl⟩ := Store.create_eq_ok done
      exact ⟨rfl, nofun⟩
  | update done =>
      obtain ⟨_, _, rfl⟩ := Store.update_eq_ok done
      exact ⟨rfl, nofun⟩
  | toggle done =>
      obtain ⟨_, rfl⟩ := Store.toggle_eq_ok done
      exact ⟨rfl, nofun⟩
  | delete done =>
      obtain ⟨_, rfl⟩ := Store.delete_eq_ok done
      exact ⟨rfl, nofun⟩
  | deleteHistoryBefore | clearHistory | fail => exact ⟨rfl, nofun⟩

/-! ## Calls in a row -/

variable {last : Store} {calls : List StoreCall} {answers : List (Except Fault StoreAnswer)}

theorem length_filterMap_cons {A B : Type} (f : A → Option B) (first : A) (rest : List A) :
    ((first :: rest).filterMap f).length =
      (f first).toList.length + (rest.filterMap f).length := by
  rw [List.filterMap_cons]
  cases f first <;> simp [Nat.add_comm]

/-- A counter that goes up by one with each number given, and an invariant that holds while there
are numbers, over all calls in a row. -/
theorem numbered_of_chain {A : Type} {issued? : Except Fault StoreAnswer → Option A}
    {number : A → Nat} {counter : Store → UInt64} {Kept : Store → Prop}
    (step : ∀ {before after call answer}, Performs before call answer after → Kept before →
      (counter before).toNat + (issued? answer).toList.length < UInt64.size →
      Kept after ∧
        (counter after).toNat = (counter before).toNat + (issued? answer).toList.length ∧
        ∀ value ∈ issued? answer, number value = (counter before).toNat + 1)
    (chain : Chain Performs before calls answers last) (kept : Kept before)
    (room : (counter before).toNat + (answers.filterMap issued?).length < UInt64.size) :
    Kept last ∧
      (counter last).toNat = (counter before).toNat + (answers.filterMap issued?).length ∧
      (answers.filterMap issued?).map number =
        List.range' ((counter before).toNat + 1) (answers.filterMap issued?).length := by
  induction chain with
  | nil => exact ⟨kept, rfl, rfl⟩
  | cons first rest ih =>
      rename_i answer _ _
      rw [length_filterMap_cons] at room
      obtain ⟨kept, counted, numbered⟩ := step first kept (by omega)
      obtain ⟨kept, lastNumber, numbers⟩ := ih kept (by omega)
      refine ⟨kept, ?_, ?_⟩
      · rw [lastNumber, counted, length_filterMap_cons, Nat.add_assoc]
      · rw [counted] at numbers
        cases issued : issued? answer with
        | none => simpa [issued] using numbers
        | some value =>
            have here := numbered value issued
            simpa [issued, here, List.range'_succ] using numbers

theorem wellKept_of_chain (chain : Chain Performs before calls answers last)
    (kept : before.WellKept)
    (room : before.lastRuleId.toNat + (answers.filterMap created?).length < UInt64.size) :
    last.WellKept ∧
      last.lastRuleId.toNat =
        before.lastRuleId.toNat + (answers.filterMap created?).length ∧
      (answers.filterMap created?).map (fun rule => rule.id.toNat) =
        List.range' (before.lastRuleId.toNat + 1) (answers.filterMap created?).length :=
  numbered_of_chain
    (fun performs kept room => ⟨performs.wellKept kept room, performs.lastRuleId room⟩)
    chain kept room

theorem filed_of_chain (chain : Chain Performs before calls answers last) (filed : before.Filed)
    (room : before.lastRecordId.toNat + (answers.filterMap saved?).length < UInt64.size) :
    last.Filed ∧
      last.lastRecordId.toNat =
        before.lastRecordId.toNat + (answers.filterMap saved?).length ∧
      (answers.filterMap saved?).map UInt64.toNat =
        List.range' (before.lastRecordId.toNat + 1) (answers.filterMap saved?).length :=
  numbered_of_chain
    (fun performs filed room => ⟨performs.filed filed room, performs.lastRecordId room⟩)
    chain filed room

theorem number_of_range {A : Type} {values : List A} {number : A → Nat}
    (range : values.map number = List.range' (0 + 1) values.length) {place : Nat} {value : A}
    (there : values[place]? = some value) : number value = place + 1 := by
  obtain ⟨bound, rfl⟩ := List.getElem?_eq_some_iff.mp there
  have same := congrArg (·[place]?) range
  simp [bound] at same
  omega

theorem spared_of_chain (chain : Chain Performs before calls answers last) :
    Chain Spared before calls answers last := by
  induction chain with
  | nil store => exact .nil store
  | cons first rest ih => exact .cons first.spared ih

/-- However many calls are made to a store that was empty, and however they end: each rule in it is
valid and kept under its own identity, where it is found; the identities ascend and are those that
were given, one after another, to the rules created; so are the numbers of the records, while there
are numbers; and a call changes no rule but the one it names, and nothing at all when it fails. -/
theorem kept_of_calls {first final : Installation} (empty : first.store = {})
    (ends : Ends Installation.store (calls.mapM fun call => (callStore call).run) first answers
      final)
    (few : (answers.filterMap created?).length < UInt64.size) :
    (∀ rule ∈ final.store.rules, rule.validate = .ok () ∧
        final.store.getRule rule.id = .ok rule ∧
        0 < rule.id.toNat ∧ rule.id.toNat ≤ (answers.filterMap created?).length) ∧
      (∀ entry ∈ final.store.entries, entry.2.id = entry.1) ∧
      (∀ place rule, (answers.filterMap created?)[place]? = some rule →
        rule.id.toNat = place + 1) ∧
      (final.store.rules.map Rule.id).Pairwise (· < ·) ∧
      (final.store.enabledRules.Sublist final.store.rules ∧
        ∀ rule, rule ∈ final.store.enabledRules ↔ rule ∈ final.store.rules ∧ rule.enabled) ∧
      ((answers.filterMap saved?).length < UInt64.size →
        (∀ place id, (answers.filterMap saved?)[place]? = some id → id.toNat = place + 1) ∧
        (final.store.history.reverse.map Record.id).Pairwise (· < ·)) ∧
      Chain Spared {} calls answers final.store := by
  have each : ∀ call ∈ calls, ∀ seen : Store, (callStore call).run.Ensures Installation.store
      (fun answer next => ∃ after, next = id after ∧ Performs seen call answer after) (id seen) :=
    fun call _ seen => (ensures_callStore call seen).imp fun _ after performs =>
      ⟨after, rfl, performs⟩
  obtain ⟨last, rfl, chain⟩ := ends.chain each empty
  obtain ⟨kept, lastId, numbers⟩ :=
    wellKept_of_chain chain Store.wellKept_empty (by simpa using few)
  refine ⟨fun rule mem => ?_, kept.keyed, fun place rule => number_of_range numbers,
    kept.ascending_ids, ⟨List.filter_sublist, fun rule => ?_⟩, fun room => ?_,
    spared_of_chain chain⟩
  · have entry := kept.mem_entries mem
    obtain ⟨positive, bound⟩ := kept.numbered _ entry
    rw [UInt64.lt_iff_toNat_lt] at positive
    rw [UInt64.le_iff_toNat_le, lastId] at bound
    exact ⟨kept.valid _ entry, kept.getRule mem, positive, by simpa using bound⟩
  · exact List.mem_filter
  · obtain ⟨filed, -, ids⟩ := filed_of_chain chain Store.filed_empty (by simpa using room)
    refine ⟨fun place id => number_of_range ids, ?_⟩
    rw [List.map_reverse, List.pairwise_reverse]
    exact filed.descending

def session : List StoreCall :=
  [.create hot, .create { hot with name := "" }, .create warm, .toggle 1 false,
   .update { warm with id := 9 },
   .save { ruleId := 2, firedAt := .clamp 0, eventData := "", actions := "" }, .delete 1,
   .create hot]

def sessionTold : List (Except Fault StoreAnswer) :=
  [.ok (.created hot), .error (.invalidRule RuleDefect.noName.reason), .ok (.created warm),
   .ok .changed, .error (.ruleNotFound 9), .ok (.saved 1),
   .ok (.deleted { hot with enabled := false }), .ok (.created { hot with id := 3 })]

theorem kept_of_calls_of_session :
    ∃ final : Installation,
      (∀ rule ∈ final.store.rules, rule.validate = .ok () ∧
        final.store.getRule rule.id = .ok rule ∧ 0 < rule.id.toNat ∧ rule.id.toNat ≤ 3) ∧
      (∀ entry ∈ final.store.entries, entry.2.id = entry.1) ∧
      (∀ place rule, [hot, warm, { hot with id := 3 }][place]? = some rule →
        rule.id.toNat = place + 1) ∧
      (final.store.rules.map Rule.id).Pairwise (· < ·) ∧
      (final.store.history.reverse.map Record.id).Pairwise (· < ·) ∧
      Chain Spared {} session sessionTold final.store := by
  have ends : ∃ final, Ends Installation.store
      (session.mapM fun call => (callStore call).run) (Installation.start (.clamp 0)) sessionTold
      final :=
    exists_ends_of_run (fun _ _ => rfl) (by decide +kernel)
  obtain ⟨final, ends⟩ := ends
  obtain ⟨rules, keyed, identities, ascending, _, records, spared⟩ :=
    kept_of_calls rfl ends (by decide)
  exact ⟨final, rules, keyed, identities, ascending, (records (by decide)).2, spared⟩

end Installation

end Alerting
