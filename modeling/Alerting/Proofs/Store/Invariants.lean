import Alerting.Proofs.Entries
import Alerting.Store

/-!
# What a rule store keeps

The rules in a store are valid, and their identities ascend and have all been given by the store.
So no two rules share one, and what is done under an identity concerns one rule at most. The records
are numbered in the same way, newest first.
-/

namespace Alerting

namespace Store

variable {store next : Store} {rule made stored : Rule} {id : UInt64} {enabled : Bool}

/-! ## What succeeds, and what it leaves -/

theorem create_eq_ok (created : store.create rule = .ok (made, next)) :
    rule.validate = .ok () ∧ made = { rule with id := store.lastRuleId + 1 } ∧
      next = { store with
        entries := store.entries ++ [(store.lastRuleId + 1, made)]
        lastRuleId := store.lastRuleId + 1 } := by
  unfold create at created
  cases valid : rule.validate with
  | error fault => simp [valid, bind, Except.bind] at created
  | ok _ =>
      simp only [valid, bind, Except.bind, Except.ok.injEq, Prod.mk.injEq] at created
      obtain ⟨rfl, rfl⟩ := created
      exact ⟨rfl, rfl, rfl⟩

theorem getRule_eq_ok : store.getRule id = .ok stored ↔ store.rule? id = some stored := by
  unfold getRule
  cases store.rule? id <;> simp

theorem update_eq_ok (updated : store.update rule = .ok next) :
    rule.validate = .ok () ∧ (∃ stored, store.rule? rule.id = some stored) ∧
      next = store.amend rule.id fun _ => rule := by
  unfold update at updated
  cases valid : rule.validate with
  | error fault => simp [valid, bind, Except.bind] at updated
  | ok _ =>
      cases found : store.getRule rule.id with
      | error fault => simp [valid, found, bind, Except.bind] at updated
      | ok stored =>
          simp only [valid, found, bind, Except.bind, Except.ok.injEq] at updated
          exact ⟨rfl, ⟨stored, getRule_eq_ok.mp found⟩, updated.symm⟩

theorem toggle_eq_ok (toggled : store.toggle id enabled = .ok next) :
    (∃ stored, store.rule? id = some stored) ∧
      next = store.amend id fun stored => { stored with enabled } := by
  unfold toggle at toggled
  cases found : store.getRule id with
  | error fault => simp [found, bind, Except.bind] at toggled
  | ok stored =>
      simp only [found, bind, Except.bind, Except.ok.injEq] at toggled
      exact ⟨⟨stored, getRule_eq_ok.mp found⟩, toggled.symm⟩

theorem delete_eq_ok (deleted : store.delete id = .ok (made, next)) :
    store.rule? id = some made ∧
      next = { store with
        entries := store.entries.filter fun entry => entry.1 != id
        history := store.history.filter fun record => record.ruleId != id } := by
  unfold delete at deleted
  cases found : store.getRule id with
  | error fault => simp [found, bind, Except.bind] at deleted
  | ok stored =>
      simp only [found, bind, Except.bind, Except.ok.injEq, Prod.mk.injEq] at deleted
      obtain ⟨rfl, rfl⟩ := deleted
      exact ⟨getRule_eq_ok.mp found, rfl⟩

/-! ## Rules -/

structure WellKept (store : Store) : Prop where
  keyed : ∀ entry ∈ store.entries, entry.2.id = entry.1
  valid : ∀ entry ∈ store.entries, entry.2.validate = .ok ()
  ascending : (store.entries.map Prod.fst).Pairwise (· < ·)
  numbered : ∀ entry ∈ store.entries, 0 < entry.1 ∧ entry.1 ≤ store.lastRuleId

theorem wellKept_empty : WellKept {} :=
  ⟨by simp, by simp, .nil, by simp⟩

theorem WellKept.map_id (kept : store.WellKept) :
    store.rules.map Rule.id = store.entries.map Prod.fst := by
  rw [rules, List.map_map]
  exact List.map_congr_left kept.keyed

theorem WellKept.ascending_ids (kept : store.WellKept) :
    (store.rules.map Rule.id).Pairwise (· < ·) := by
  rw [kept.map_id]
  exact kept.ascending

theorem WellKept.mem_entries (kept : store.WellKept) (mem : rule ∈ store.rules) :
    (rule.id, rule) ∈ store.entries := by
  obtain ⟨entry, there, rfl⟩ := List.mem_map.mp mem
  rwa [kept.keyed entry there]

theorem WellKept.getRule (kept : store.WellKept) (mem : rule ∈ store.rules) :
    store.getRule rule.id = .ok rule := by
  rw [getRule_eq_ok]
  have distinct : (store.entries.map Prod.fst).Nodup := by
    apply kept.ascending.imp
    rintro id _ less rfl
    exact UInt64.lt_irrefl id less
  exact lookup_of_distinct distinct (kept.mem_entries mem)

theorem WellKept.create (kept : store.WellKept) (created : store.create rule = .ok (made, next))
    (room : store.lastRuleId.toNat + 1 < UInt64.size) : next.WellKept := by
  obtain ⟨valid, hmade, rfl⟩ := create_eq_ok created
  have above : store.lastRuleId < store.lastRuleId + 1 := lt_add_one room
  refine ⟨fun entry mem => ?_, fun entry mem => ?_, ?_, fun entry mem => ?_⟩
  · rcases List.mem_append.mp mem with old | new
    · exact kept.keyed entry old
    · rw [List.mem_singleton.mp new, hmade]
  · rcases List.mem_append.mp mem with old | new
    · exact kept.valid entry old
    · rw [List.mem_singleton.mp new, hmade]
      exact valid
  · rw [List.map_append, List.pairwise_append]
    refine ⟨kept.ascending, List.pairwise_singleton .., fun first hfirst second hsecond => ?_⟩
    obtain ⟨entry, mem, rfl⟩ := List.mem_map.mp hfirst
    rw [List.map_singleton, List.mem_singleton] at hsecond
    rw [hsecond]
    exact UInt64.lt_of_le_of_lt (kept.numbered entry mem).2 above
  · change 0 < entry.1 ∧ entry.1 ≤ store.lastRuleId + 1
    rcases List.mem_append.mp mem with old | new
    · obtain ⟨positive, bound⟩ := kept.numbered entry old
      exact ⟨positive, UInt64.le_of_lt (UInt64.lt_of_le_of_lt bound above)⟩
    · rw [List.mem_singleton.mp new]
      exact ⟨UInt64.lt_of_le_of_lt UInt64.zero_le above, UInt64.le_refl _⟩

section

variable {change : Rule → Rule}

theorem keys_amend : (store.amend id change).entries.map Prod.fst = store.entries.map Prod.fst := by
  rw [amend, List.map_map]
  rfl

theorem WellKept.amend (kept : store.WellKept)
    (sameId : ∀ stored : Rule, stored.id = id → (change stored).id = id)
    (valid : ∀ stored : Rule, stored.validate = .ok () → (change stored).validate = .ok ()) :
    (store.amend id change).WellKept := by
  refine ⟨fun entry mem => ?_, fun entry mem => ?_, ?_, fun entry mem => ?_⟩
  · obtain ⟨⟨key, stored⟩, old, rfl⟩ := List.mem_map.mp mem
    have keyed : stored.id = key := kept.keyed _ old
    by_cases same : key = id
    · simpa [same] using sameId stored (keyed.trans same)
    · simpa [same] using keyed
  · obtain ⟨⟨key, stored⟩, old, rfl⟩ := List.mem_map.mp mem
    have before : stored.validate = .ok () := kept.valid _ old
    by_cases same : key = id
    · simpa [same] using valid stored before
    · simpa [same] using before
  · rw [keys_amend]
    exact kept.ascending
  · obtain ⟨stored, old, rfl⟩ := List.mem_map.mp mem
    exact kept.numbered stored old

theorem filter_amend :
    (store.amend id change).entries.filter (fun entry => entry.1 != id) =
      store.entries.filter fun entry => entry.1 != id := by
  unfold Store.amend
  induction store.entries with
  | nil => rfl
  | cons first rest ih =>
      rw [List.map_cons, List.filter_cons, List.filter_cons, ih]
      by_cases same : first.1 = id
      · simp [same]
      · simp [same]

theorem rule?_amend : (store.amend id change).rule? id = (store.rule? id).map change := by
  unfold Store.amend rule?
  induction store.entries with
  | nil => rfl
  | cons first rest ih =>
      obtain ⟨key, stored⟩ := first
      rw [List.map_cons, List.lookup_cons, List.lookup_cons]
      by_cases same : id = key
      · simp [same]
      · have apart : (id == key) = false := by simpa using same
        rw [apart]
        exact ih

end

theorem WellKept.update (kept : store.WellKept) (updated : store.update rule = .ok next) :
    next.WellKept := by
  obtain ⟨valid, _, rfl⟩ := update_eq_ok updated
  exact kept.amend (fun _ _ => rfl) fun _ _ => valid

theorem WellKept.toggle (kept : store.WellKept) (toggled : store.toggle id enabled = .ok next) :
    next.WellKept := by
  obtain ⟨_, rfl⟩ := toggle_eq_ok toggled
  exact kept.amend (fun _ same => same) fun _ valid => valid

theorem WellKept.delete (kept : store.WellKept) (deleted : store.delete id = .ok (made, next)) :
    next.WellKept := by
  obtain ⟨_, rfl⟩ := delete_eq_ok deleted
  have old {entry : UInt64 × Rule} (mem : entry ∈ store.entries.filter fun entry => entry.1 != id) :
      entry ∈ store.entries := (List.mem_filter.mp mem).1
  exact ⟨fun entry mem => kept.keyed entry (old mem), fun entry mem => kept.valid entry (old mem),
    kept.ascending.sublist (List.filter_sublist.map _),
    fun entry mem => kept.numbered entry (old mem)⟩

theorem rule?_delete (deleted : store.delete id = .ok (made, next)) : next.rule? id = none := by
  obtain ⟨_, rfl⟩ := delete_eq_ok deleted
  rw [rule?, List.lookup_eq_none_iff]
  intro entry mem
  obtain ⟨-, other⟩ := List.mem_filter.mp mem
  rwa [bne_comm] at other

/-! ## Records -/

structure Filed (store : Store) : Prop where
  descending : (store.history.map Record.id).Pairwise (· > ·)
  numbered : ∀ record ∈ store.history, record.id ≤ store.lastRecordId

theorem filed_empty : Filed {} :=
  ⟨.nil, by simp⟩

theorem Filed.sublist (filed : store.Filed) {history : List Record}
    (sub : history.Sublist store.history) : Filed { store with history } :=
  ⟨filed.descending.sublist (sub.map _), fun record mem => filed.numbered record (sub.mem mem)⟩

theorem Filed.save (filed : store.Filed) (record : Record)
    (room : store.lastRecordId.toNat + 1 < UInt64.size) : (store.save record).2.Filed := by
  have above : store.lastRecordId < store.lastRecordId + 1 := lt_add_one room
  constructor
  · refine .cons (fun id mem => ?_) filed.descending
    obtain ⟨old, hold, rfl⟩ := List.mem_map.mp mem
    exact UInt64.lt_of_le_of_lt (filed.numbered old hold) above
  · intro other mem
    rcases List.mem_cons.mp mem with rfl | old
    · exact UInt64.le_refl _
    · exact UInt64.le_of_lt (UInt64.lt_of_le_of_lt (filed.numbered other old) above)

end Store

end Alerting
