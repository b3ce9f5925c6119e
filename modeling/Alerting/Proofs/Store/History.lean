import Alerting.Proofs.Store.Calls
import Alerting.Proofs.Time

/-!
# The history in a rule store

After calls in a row, the history lists the records that were saved and that no later call removed,
the latest first. What removes a record is the removal of its rule, that of older records, or that
of all of them; the latter two tell how many records they removed. A listing falls into pages.
-/

namespace Alerting

/-! ## Pages -/

namespace Store

theorem listHistory_all (store : Store) (ruleId : Option UInt64) :
    store.listHistory { ruleId } = store.history.filter (asks ruleId) := rfl

theorem countHistory_eq (store : Store) (ruleId : Option UInt64) :
    store.countHistory ruleId = (store.listHistory { ruleId }).length := by
  rw [countHistory, listHistory_all, List.countP_eq_length_filter]

theorem pages_eq_take (store : Store) (ruleId : Option UInt64) (size count : Nat) :
    ((List.range count).flatMap fun page =>
        store.listHistory { ruleId, limit := some size, offset := page * size }) =
      (store.listHistory { ruleId }).take (count * size) := by
  induction count with
  | zero => simp
  | succ count ih =>
      rw [List.range_succ, List.flatMap_append, ih, Nat.succ_mul, List.take_add,
        List.flatMap_singleton]
      rfl

/-! ## Removing old records -/

def isBefore (cutoff : Instant) (record : Record) : Bool := record.firedAt < cutoff

theorem deleteHistoryBefore_eq (store : Store) (cutoff : Instant) :
    store.deleteHistoryBefore cutoff =
      (store.history.countP (isBefore cutoff),
        { store with history := store.history.filter fun record => !isBefore cutoff record }) := by
  have kept : store.history.filter (fun record => cutoff ≤ record.firedAt) =
      store.history.filter fun record => !isBefore cutoff record := by
    apply List.filter_congr
    intro record _
    rw [isBefore, ← decide_not, decide_eq_decide, Std.not_lt]
  have all := List.length_eq_countP_add_countP (isBefore cutoff) (l := store.history)
  have rest : store.history.countP (fun record => decide ¬isBefore cutoff record = true) =
      (store.history.filter fun record => !isBefore cutoff record).length := by
    rw [List.countP_eq_length_filter]
    simp
  rw [deleteHistoryBefore, kept, all, rest, Nat.add_sub_cancel_right]

end Store

namespace Installation

open Activity

/-! ## What a call adds and removes -/

/-- Whether a call that was answered so removes a record. -/
def StoreCall.removes : StoreCall → Except Fault StoreAnswer → Record → Bool
  | .delete id, .ok _, record => record.ruleId == id
  | .deleteHistoryBefore cutoff, .ok _, record => Store.isBefore cutoff record
  | .clearHistory, .ok _, _ => true
  | _, _, _ => false

def StoreCall.adds : StoreCall → Except Fault StoreAnswer → Option Record
  | .save record, .ok (.saved id) => some { record with id }
  | _, _ => none

/-- Whether an answer that tells how many records of a history were removed is right. -/
def StoreCall.Counts (history : List Record) : StoreCall → Except Fault StoreAnswer → Prop
  | .deleteHistoryBefore cutoff, .ok given =>
      given = .removed (history.countP (Store.isBefore cutoff))
  | .clearHistory, .ok given => given = .removed history.length
  | _, _ => True

variable {before after last : Store} {call : StoreCall} {answer : Except Fault StoreAnswer}
  {calls : List StoreCall} {answers : List (Except Fault StoreAnswer)}

theorem Performs.history (performs : Performs before call answer after) :
    after.history = (call.adds answer).toList ++
      before.history.filter fun record => !call.removes answer record := by
  cases performs with
  | create done =>
      obtain ⟨_, _, rfl⟩ := Store.create_eq_ok done
      simp [StoreCall.adds, StoreCall.removes]
  | update done =>
      obtain ⟨_, _, rfl⟩ := Store.update_eq_ok done
      simp [StoreCall.adds, StoreCall.removes, Store.amend]
  | toggle done =>
      obtain ⟨_, rfl⟩ := Store.toggle_eq_ok done
      simp [StoreCall.adds, StoreCall.removes, Store.amend]
  | delete done =>
      obtain ⟨_, rfl⟩ := Store.delete_eq_ok done
      rfl
  | save record => simp [StoreCall.adds, StoreCall.removes, Store.save]
  | deleteHistoryBefore cutoff =>
      rw [Store.deleteHistoryBefore_eq]
      rfl
  | clearHistory => simp [StoreCall.adds, StoreCall.removes, Store.clearHistory]
  | fail call fault => simp [StoreCall.adds, StoreCall.removes]

theorem Performs.counts (performs : Performs before call answer after) :
    call.Counts before.history answer := by
  cases performs with
  | deleteHistoryBefore cutoff =>
      rw [Store.deleteHistoryBefore_eq]
      rfl
  | clearHistory => rfl
  | fail call fault => cases call <;> trivial
  | _ => trivial

/-! ## Calls in a row -/

abbrev Exchange := StoreCall × Except Fault StoreAnswer

/-- The records that were saved and that no later call removed, the latest first. -/
def remaining : List Exchange → List Record
  | [] => []
  | exchange :: later =>
      remaining later ++ (exchange.1.adds exchange.2).toList.filter fun record =>
        later.all fun other => !other.1.removes other.2 record

theorem mem_remaining_iff {calls : List Exchange} {record : Record} :
    record ∈ remaining calls ↔
      ∃ earlier exchange later, calls = earlier ++ exchange :: later ∧
        exchange.1.adds exchange.2 = some record ∧
        ∀ other ∈ later, other.1.removes other.2 record = false := by
  induction calls with
  | nil => simp [remaining]
  | cons first rest ih =>
      have here : (first.1.adds first.2 = some record ∧
          ∀ other ∈ rest, other.1.removes other.2 record = false) ↔
          record ∈ (first.1.adds first.2).toList.filter fun record =>
            rest.all fun other => !other.1.removes other.2 record := by
        simp
      rw [remaining, List.mem_append, ih, ← here]
      constructor
      · rintro (⟨earlier, exchange, later, rfl, adds, stays⟩ | ⟨adds, stays⟩)
        · exact ⟨first :: earlier, exchange, later, rfl, adds, stays⟩
        · exact ⟨[], first, rest, rfl, adds, stays⟩
      · rintro ⟨_ | ⟨other, earlier⟩, exchange, later, split, adds, stays⟩
        · cases split
          exact .inr ⟨adds, stays⟩
        · obtain ⟨rfl, rfl⟩ := List.cons.inj split
          exact .inl ⟨earlier, exchange, later, rfl, adds, stays⟩

theorem history_of_chain (chain : Chain Performs before calls answers last) :
    last.history = remaining (calls.zip answers) ++
      before.history.filter fun record =>
        (calls.zip answers).all fun other => !other.1.removes other.2 record := by
  induction chain with
  | nil store => simp [remaining]
  | cons first rest ih =>
      rw [ih, first.history, List.filter_append, List.filter_filter, List.zip_cons_cons, remaining,
        List.append_assoc]
      simp only [List.all_cons, Bool.and_comm]

theorem exists_of_chain_split (chain : Chain Performs before calls answers last)
    {earlier later : List Exchange}
    {exchange : Exchange}
    (split : calls.zip answers = earlier ++ exchange :: later) :
    ∃ firstCalls firstAnswers between after, earlier = firstCalls.zip firstAnswers ∧
      Chain Performs before firstCalls firstAnswers between ∧
      Performs between exchange.1 exchange.2 after := by
  induction chain generalizing earlier with
  | nil store => simp at split
  | cons first rest ih =>
      cases earlier with
      | nil =>
          cases split
          exact ⟨[], [], _, _, rfl, .nil _, first⟩
      | cons other earlier =>
          rw [List.zip_cons_cons, List.cons_append] at split
          obtain ⟨rfl, tail⟩ := List.cons.inj split
          obtain ⟨firstCalls, firstAnswers, between, after, rfl, chain, performs⟩ := ih tail
          exact ⟨_ :: firstCalls, _ :: firstAnswers, between, after, rfl, .cons first chain,
            performs⟩

/-- However many calls are made to a store that was empty, and however they end: its history lists,
latest first, the records that were saved and not removed since, and those of one rule alone where
they are asked for; their numbers descend, while there are numbers; whoever removed old records or
all of them was told how many; and the pages of a listing, one after another, make up the
listing. -/
theorem history_of_calls {first final : Installation} (empty : first.store = {})
    (ends : Ends Installation.store (calls.mapM fun call => (callStore call).run) first answers
      final) :
    (∀ record, record ∈ remaining (calls.zip answers) ↔
        ∃ earlier exchange later, calls.zip answers = earlier ++ exchange :: later ∧
          exchange.1.adds exchange.2 = some record ∧
          ∀ other ∈ later, other.1.removes other.2 record = false) ∧
      ((answers.filterMap saved?).length < UInt64.size →
        ((remaining (calls.zip answers)).map Record.id).Pairwise (· > ·)) ∧
      (∀ earlier exchange later, calls.zip answers = earlier ++ exchange :: later →
        exchange.1.Counts (remaining earlier) exchange.2) ∧
      ∀ ruleId : Option UInt64,
        final.store.listHistory { ruleId } =
            (remaining (calls.zip answers)).filter (Store.asks ruleId) ∧
          final.store.countHistory ruleId =
            ((remaining (calls.zip answers)).filter (Store.asks ruleId)).length ∧
          ∀ size count, (final.store.listHistory { ruleId }).length ≤ count * size →
            ((List.range count).flatMap fun page =>
                final.store.listHistory { ruleId, limit := some size, offset := page * size }) =
              final.store.listHistory { ruleId } := by
  have each : ∀ call ∈ calls, ∀ seen : Store, (callStore call).run.Ensures Installation.store
      (fun answer next => ∃ after, next = id after ∧ Performs seen call answer after) (id seen) :=
    fun call _ seen => (ensures_callStore call seen).imp fun _ after performs =>
      ⟨after, rfl, performs⟩
  obtain ⟨last, same, chain⟩ := ends.chain each empty
  have history {calls : List StoreCall} {answers : List (Except Fault StoreAnswer)} {last : Store}
      (chain : Chain Performs {} calls answers last) :
      last.history = remaining (calls.zip answers) := by
    simpa using history_of_chain chain
  have listed (ruleId : Option UInt64) : final.store.listHistory { ruleId } =
      (remaining (calls.zip answers)).filter (Store.asks ruleId) := by
    rw [Store.listHistory_all, same, id, history chain]
  refine ⟨fun _ => mem_remaining_iff, fun room => ?_, fun earlier exchange later split => ?_,
    fun ruleId => ⟨listed ruleId, ?_, fun size count fits => ?_⟩⟩
  · rw [← history chain]
    exact (filed_of_chain chain Store.filed_empty (by simpa using room)).1.descending
  · obtain ⟨firstCalls, firstAnswers, between, after, rfl, chain, performs⟩ :=
      exists_of_chain_split chain split
    rw [← history chain]
    exact performs.counts
  · rw [Store.countHistory_eq, listed]
  · rw [Store.pages_eq_take, List.take_of_length_le fits]

def filing (ruleId : UInt64) (seconds : Int) : Record :=
  { ruleId, firedAt := .clamp (seconds * 1000000000), eventData := "", actions := "" }

def filings : List StoreCall :=
  [.create hot, .create warm, .save (filing 1 0), .save (filing 2 10), .save (filing 1 20),
   .deleteHistoryBefore (.clamp 10000000000), .save (filing 2 30), .delete 1, .delete 1]

def filingsTold : List (Except Fault StoreAnswer) :=
  [.ok (.created hot), .ok (.created warm), .ok (.saved 1), .ok (.saved 2), .ok (.saved 3),
   .ok (.removed 1), .ok (.saved 4), .ok (.deleted hot), .error (.ruleNotFound 1)]

theorem history_of_calls_of_filings :
    ∃ final : Installation,
      final.store.listHistory { ruleId := none } =
          [{ filing 2 30 with id := 4 }, { filing 2 10 with id := 2 }] ∧
        final.store.countHistory (some 1) = 0 ∧
        ((List.range 2).flatMap fun page =>
            final.store.listHistory { ruleId := some 2, limit := some 1, offset := page * 1 }) =
          final.store.listHistory { ruleId := some 2 } ∧
        (StoreCall.deleteHistoryBefore (.clamp 10000000000)).Counts
          [{ filing 1 20 with id := 3 }, { filing 2 10 with id := 2 }, { filing 1 0 with id := 1 }]
          (.ok (.removed 1)) := by
  have ends : ∃ final, Ends Installation.store
      (filings.mapM fun call => (callStore call).run) (Installation.start (.clamp 0)) filingsTold
      final :=
    exists_ends_of_run (fun _ _ => rfl) (by decide +kernel)
  obtain ⟨final, ends⟩ := ends
  obtain ⟨-, -, counts, listing⟩ := history_of_calls rfl ends
  have all : remaining (filings.zip filingsTold) =
      [{ filing 2 30 with id := 4 }, { filing 2 10 with id := 2 }] := by decide +kernel
  have before : remaining ((filings.zip filingsTold).take 5) =
        [{ filing 1 20 with id := 3 }, { filing 2 10 with id := 2 },
         { filing 1 0 with id := 1 }] := by
    decide +kernel
  rw [all] at listing
  refine ⟨final, (listing none).1, (listing (some 1)).2.1, (listing (some 2)).2.2 1 2 ?_, ?_⟩
  · rw [(listing (some 2)).1]
    decide
  · rw [← before]
    exact counts ((filings.zip filingsTold).take 5) (_, _) ((filings.zip filingsTold).drop 6) rfl

end Installation

end Alerting
