import Alerting.Installation.Handling
import Alerting.Proofs.Burst
import Alerting.Proofs.Engine.Ledger
import Alerting.Proofs.Store.Invariants

/-!
# Filling a rule store

The rules of a list are imported, and after them the built-in rules that are still missing are
created. What is stored already goes first, then what the list says, then what is built in: of the
rules with one name the first one is there in the end, and nothing is created twice.
-/

namespace Alerting

/-! ## Rules whose names are new -/

def newRules (known : List String) : List Rule → List Rule
  | [] => []
  | rule :: rest =>
      if known.contains rule.name then newRules known rest
      else rule :: newRules (rule.name :: known) rest

def missingRules (known : List String) (rules : List Rule) : List Rule :=
  rules.filter fun rule => !known.contains rule.name

section

variable {known : List String} {rules : List Rule} {rule : Rule} {name : String}

def firstNamed (rules : List Rule) (name : String) : Option Rule :=
  rules.find? fun rule => rule.name == name

theorem firstNamed_cons (first : Rule) (rest : List Rule) :
    firstNamed (first :: rest) name =
      if first.name = name then some first else firstNamed rest name := by
  rw [firstNamed, List.find?_cons]
  by_cases same : first.name = name
  · rw [beq_iff_eq.mpr same, if_pos same]
  · rw [beq_eq_false_iff_ne.mpr same, if_neg same]
    rfl

theorem name_of_firstNamed (found : firstNamed rules name = some rule) : rule.name = name := by
  simpa using List.find?_some found

theorem exists_firstNamed (mem : name ∈ rules.map Rule.name) :
    ∃ first, firstNamed rules name = some first := by
  obtain ⟨rule, mem, same⟩ := List.mem_map.mp mem
  rw [← Option.isSome_iff_exists, firstNamed, List.find?_isSome]
  exact ⟨rule, mem, by simpa using same⟩

theorem firstNamed_of_mem (distinct : (rules.map Rule.name).Nodup) (mem : rule ∈ rules) :
    firstNamed rules rule.name = some rule :=
  find?_of_distinct distinct mem

theorem newRules_sublist : (newRules known rules).Sublist rules := by
  induction rules generalizing known with
  | nil => exact .refl []
  | cons first rest ih =>
      rw [newRules]
      split
      · exact ih.cons first
      · exact ih.cons_cons first

theorem mem_newRules_iff :
    rule ∈ newRules known rules ↔
      rule.name ∉ known ∧ firstNamed rules rule.name = some rule := by
  induction rules generalizing known with
  | nil => simp [newRules, firstNamed]
  | cons first rest ih =>
      rw [newRules, firstNamed_cons]
      by_cases old : known.contains first.name
      · have old' : first.name ∈ known := by simpa using old
        rw [if_pos old, ih]
        refine and_congr_right fun new => ?_
        have apart : first.name ≠ rule.name := fun same => new (same ▸ old')
        rw [if_neg apart]
      · have new : first.name ∉ known := by simpa using old
        rw [if_neg old, List.mem_cons, ih, List.mem_cons, not_or]
        by_cases same : first.name = rule.name
        · rw [if_pos same, ← same]
          simp [new, eq_comm]
        · rw [if_neg same]
          have apart : rule ≠ first := fun equal => same (equal ▸ rfl)
          simp [apart, Ne.symm same]

theorem name_mem_newRules_iff :
    name ∈ (newRules known rules).map Rule.name ↔
      name ∈ rules.map Rule.name ∧ name ∉ known := by
  constructor
  · intro mem
    obtain ⟨rule, new, rfl⟩ := List.mem_map.mp mem
    exact ⟨List.mem_map_of_mem (newRules_sublist.mem new), (mem_newRules_iff.mp new).1⟩
  · rintro ⟨listed, new⟩
    obtain ⟨first, found⟩ := exists_firstNamed listed
    obtain rfl := name_of_firstNamed found
    exact List.mem_map_of_mem (mem_newRules_iff.mpr ⟨new, found⟩)

theorem nodup_newRules : ((newRules known rules).map Rule.name).Nodup := by
  induction rules generalizing known with
  | nil => exact .nil
  | cons first rest ih =>
      rw [newRules]
      split
      · exact ih
      · rw [List.map_cons, List.nodup_cons]
        refine ⟨fun again => ?_, ih⟩
        exact (name_mem_newRules_iff.mp again).2 List.mem_cons_self

theorem newRules_eq_nil (all : ∀ rule ∈ rules, rule.name ∈ known) :
    newRules known rules = [] := by
  rw [List.eq_nil_iff_forall_not_mem]
  intro rule mem
  exact (mem_newRules_iff.mp mem).1 (all rule (newRules_sublist.mem mem))

theorem missingRules_eq_nil (all : ∀ rule ∈ rules, rule.name ∈ known) :
    missingRules known rules = [] := by
  rw [missingRules, List.filter_eq_nil_iff]
  intro rule mem
  simpa using all rule mem

theorem mem_missingRules_iff :
    rule ∈ missingRules known rules ↔ rule ∈ rules ∧ rule.name ∉ known := by
  simp [missingRules]

theorem missingRules_congr {other : List String} (same : ∀ name, name ∈ known ↔ name ∈ other) :
    missingRules known rules = missingRules other rules := by
  simp [missingRules, same]

end

namespace Store

open Ledger

variable {store : Store} {rules first second : List Rule} {rule : Rule} {last : UInt64}

/-! ## Rules with numbers -/

def numbered (last : UInt64) : List Rule → List Rule
  | [] => []
  | rule :: rest => { rule with id := last + 1 } :: numbered (last + 1) rest

theorem length_numbered : (numbered last rules).length = rules.length := by
  induction rules generalizing last with
  | nil => rfl
  | cons rule rest ih => rw [numbered, List.length_cons, List.length_cons, ih]

theorem names_numbered : (numbered last rules).map Rule.name = rules.map Rule.name := by
  induction rules generalizing last with
  | nil => rfl
  | cons rule rest ih => rw [numbered, List.map_cons, ih, List.map_cons]

theorem numbered_append :
    numbered last (first ++ second) =
      numbered last first ++ numbered (last + .ofNat first.length) second := by
  induction first generalizing last with
  | nil => simp [numbered]
  | cons rule rest ih =>
      rw [List.cons_append, numbered, ih, numbered, List.cons_append, List.length_cons,
        UInt64.ofNat_add, UInt64.add_assoc, UInt64.add_comm 1]
      rfl

theorem exists_numbered (room : last.toNat + rules.length < UInt64.size) (mem : rule ∈ rules) :
    ∃ id, last < id ∧ { rule with id } ∈ numbered last rules := by
  induction rules generalizing last with
  | nil => cases mem
  | cons head rest ih =>
      rw [List.length_cons] at room
      have grows : last < last + 1 := lt_add_one (by omega)
      rcases List.mem_cons.mp mem with rfl | later
      · exact ⟨last + 1, grows, List.mem_cons_self⟩
      · have next : (last + 1).toNat = last.toNat + 1 := toNat_add_one (by omega)
        obtain ⟨id, above, there⟩ := ih (by rw [next]; omega) later
        exact ⟨id, UInt64.lt_trans grows above, List.mem_cons_of_mem _ there⟩

/-! ## Adding rules -/

def add (store : Store) (rules : List Rule) : Store :=
  { store with
    entries := store.entries ++ (numbered store.lastRuleId rules).map fun rule => (rule.id, rule)
    lastRuleId := store.lastRuleId + .ofNat rules.length }

@[simp] theorem add_nil : store.add [] = store := by
  simp [add, numbered]

theorem rules_add : (store.add rules).rules = store.rules ++ numbered store.lastRuleId rules := by
  rw [Store.rules, Store.rules, add, List.map_append, List.map_map]
  exact congrArg (store.entries.map Prod.snd ++ ·) (List.map_id _)

theorem add_append : store.add (first ++ second) = (store.add first).add second := by
  rw [add, add, add, numbered_append, List.map_append, List.append_assoc, List.length_append,
    UInt64.ofNat_add, UInt64.add_assoc]

theorem create_of_valid (valid : rule.validate = .ok ()) :
    store.create rule = .ok ({ rule with id := store.lastRuleId + 1 }, store.add [rule]) := by
  rw [create, valid]
  rfl

theorem WellKept.add (kept : store.WellKept) (valid : ∀ rule ∈ rules, rule.validate = .ok ())
    (room : store.lastRuleId.toNat + rules.length < UInt64.size) : (store.add rules).WellKept := by
  induction rules generalizing store with
  | nil => rwa [add_nil]
  | cons rule rest ih =>
      rw [List.length_cons] at room
      have created : store.create rule = .ok (_, store.add [rule]) :=
        create_of_valid (valid rule List.mem_cons_self)
      have counted : (store.add [rule]).lastRuleId.toNat = store.lastRuleId.toNat + 1 :=
        toNat_add_one (by omega)
      rw [← List.singleton_append, add_append]
      apply ih (kept.create created (by omega))
      · exact fun other mem => valid other (List.mem_cons_of_mem _ mem)
      · omega

theorem names_add :
    (store.add rules).rules.map Rule.name = store.rules.map Rule.name ++ rules.map Rule.name := by
  rw [rules_add, List.map_append, names_numbered]

end Store

namespace Builtin

theorem validate_rules : ∀ rule ∈ rules, rule.validate = .ok () := by
  decide +kernel

theorem distinct_names : (rules.map Rule.name).Nodup := by
  decide +kernel

end Builtin

namespace Store

variable {before : Store} {rules : List Rule} {name : String}

def imported (store : Store) (rules : List Rule) : Store :=
  store.add (newRules (store.rules.map Rule.name) rules)

def seeded (store : Store) : Store :=
  store.add (missingRules (store.rules.map Rule.name) Builtin.rules)

theorem mem_names_imported_iff :
    name ∈ (before.imported rules).rules.map Rule.name ↔
      name ∈ (before.rules ++ rules).map Rule.name := by
  rw [imported, names_add, List.mem_append, name_mem_newRules_iff, List.map_append,
    List.mem_append]
  tauto

theorem mem_names_seeded_iff :
    name ∈ before.seeded.rules.map Rule.name ↔
      name ∈ (before.rules ++ Builtin.rules).map Rule.name := by
  rw [seeded, names_add, List.mem_append, List.map_append, List.mem_append]
  refine or_congr_right' fun new => ?_
  simp only [List.mem_map, mem_missingRules_iff]
  constructor
  · rintro ⟨rule, ⟨mem, -⟩, same⟩
    exact ⟨rule, mem, same⟩
  · rintro ⟨rule, mem, rfl⟩
    exact ⟨rule, ⟨mem, by simpa using new⟩, rfl⟩

theorem distinct_imported (distinct : (before.rules.map Rule.name).Nodup) :
    ((before.imported rules).rules.map Rule.name).Nodup := by
  rw [imported, names_add]
  refine distinct.append nodup_newRules fun name old new => ?_
  exact (name_mem_newRules_iff.mp new).2 old

theorem distinct_seeded (distinct : (before.rules.map Rule.name).Nodup) :
    (before.seeded.rules.map Rule.name).Nodup := by
  rw [seeded, names_add]
  refine distinct.append (Builtin.distinct_names.sublist (List.filter_sublist.map _))
    fun name old new => ?_
  obtain ⟨rule, mem, rfl⟩ := List.mem_map.mp new
  exact (mem_missingRules_iff.mp mem).2 old

/-! ## A list first, then the built-in rules -/

/-- What a store holds when the rules of a list, and then the built-in ones, have been created where
their names were new. -/
structure Filled (before : Store) (rules : List Rule) (after : Store) : Prop where
  kept : after.WellKept
  distinct : (after.rules.map Rule.name).Nodup
  /-- The new rules are numbered in order: rules of the list, then all the built-in ones that
  neither the store nor the list names. -/
  added : ∃ picked : List Rule, picked.Sublist rules ∧
    after.rules = before.rules ++ numbered before.lastRuleId
      (picked ++ missingRules ((before.rules ++ rules).map Rule.name) Builtin.rules)
  stored : ∀ rule ∈ before.rules, firstNamed after.rules rule.name = some rule
  listed : ∀ name ∈ rules.map Rule.name, name ∉ before.rules.map Rule.name →
    ∃ first id, firstNamed rules name = some first ∧ before.lastRuleId < id ∧
      firstNamed after.rules name = some { first with id }
  builtIn : ∀ rule ∈ Builtin.rules, rule.name ∈ after.rules.map Rule.name ∧
    (rule.name ∉ before.rules.map Rule.name → rule.name ∉ rules.map Rule.name →
      ∃ id, before.lastRuleId < id ∧ firstNamed after.rules rule.name = some { rule with id })
  history : after.history = before.history ∧ after.lastRecordId = before.lastRecordId

theorem filled_of_room (kept : before.WellKept) (distinct : (before.rules.map Rule.name).Nodup)
    (valid : ∀ rule ∈ rules, rule.validate = .ok ())
    (room : before.lastRuleId.toNat + rules.length + Builtin.rules.length < UInt64.size) :
    before.Filled rules (before.imported rules).seeded := by
  let picked := newRules (before.rules.map Rule.name) rules
  let missing := missingRules ((before.rules ++ rules).map Rule.name) Builtin.rules
  have seeded_eq : (before.imported rules).seeded = before.add (picked ++ missing) := by
    rw [add_append, seeded, missingRules_congr fun name => mem_names_imported_iff]
    rfl
  have distinctAfter : ((before.add (picked ++ missing)).rules.map Rule.name).Nodup :=
    seeded_eq ▸ distinct_seeded (distinct_imported distinct)
  have validAdded : ∀ rule ∈ picked ++ missing, rule.validate = .ok () := by
    intro rule mem
    rcases List.mem_append.mp mem with listed | builtIn
    · exact valid rule (newRules_sublist.mem listed)
    · exact Builtin.validate_rules rule (mem_missingRules_iff.mp builtIn).1
  have roomAdded : before.lastRuleId.toNat + (picked ++ missing).length < UInt64.size := by
    have few : picked.length ≤ rules.length := newRules_sublist.length_le
    have fewBuiltIn : missing.length ≤ Builtin.rules.length := List.length_filter_le ..
    rw [List.length_append]
    omega
  have found {rule : Rule} (mem : rule ∈ picked ++ missing) : ∃ id, before.lastRuleId < id ∧
      firstNamed (before.add (picked ++ missing)).rules rule.name = some { rule with id } := by
    obtain ⟨id, above, there⟩ := exists_numbered roomAdded mem
    exact ⟨id, above, firstNamed_of_mem distinctAfter (rules_add ▸ List.mem_append_right _ there)⟩
  rw [seeded_eq]
  exact
    { kept := kept.add validAdded roomAdded
      distinct := distinctAfter
      added := ⟨picked, newRules_sublist, rules_add⟩
      stored rule old :=
        firstNamed_of_mem distinctAfter (rules_add ▸ List.mem_append_left _ old)
      listed name listed new := by
        obtain ⟨first, isFirst⟩ := exists_firstNamed listed
        obtain rfl := name_of_firstNamed isFirst
        have mem : first ∈ picked := mem_newRules_iff.mpr ⟨new, isFirst⟩
        obtain ⟨id, above, there⟩ := found (List.mem_append_left _ mem)
        exact ⟨first, id, isFirst, above, there⟩
      builtIn rule builtIn := by
        constructor
        · rw [← seeded_eq, mem_names_seeded_iff, List.map_append]
          exact List.mem_append_right _ (List.mem_map_of_mem builtIn)
        · intro new unlisted
          apply found
          refine List.mem_append_right _ (mem_missingRules_iff.mpr ⟨builtIn, ?_⟩)
          rw [List.map_append, List.mem_append]
          tauto
      history := ⟨rfl, rfl⟩ }

end Store

namespace Installation

open Activity

variable {installation : Installation} {known : List String} {rules : List Rule} {rule : Rule}
  {index : Nat} {station : Station}

/-! ## Calls to a store that replies at once -/

theorem burst_listRules (prompt : installation.conduct.listing = .prompt) :
    listRules.run.burst installation = (.done (.ok installation.store.rules), installation) := by
  rw [listRules, burst_bind_of_ok (burst_awaitStore prompt)]
  rfl

theorem burst_listEnabledRules (prompt : installation.conduct.listing = .prompt) :
    listEnabledRules.run.burst installation =
      (.done (.ok installation.store.enabledRules), installation) := by
  rw [listEnabledRules, burst_bind_of_ok (burst_awaitStore prompt)]
  rfl

def addRules (installation : Installation) (rules : List Rule) : Installation :=
  { installation with store := installation.store.add rules }

theorem burst_createRule (prompt : installation.conduct.creation = .prompt)
    (valid : rule.validate = .ok ()) :
    (createRule rule).run.burst installation =
      (.done (.ok { rule with id := installation.store.lastRuleId + 1 }),
        installation.addRules [rule]) := by
  rw [createRule, burst_bind_of_ok (burst_awaitStore prompt)]
  exact burst_changeStore (Store.create_of_valid valid)

theorem burst_createRule_bind {others : List Rule} {createOthers : Attempt Nat}
    {outcome : Except Fault Nat} (prompt : installation.conduct.creation = .prompt)
    (valid : rule.validate = .ok ())
    (created : createOthers.run.burst (installation.addRules [rule]) =
      (.done outcome, (installation.addRules [rule]).addRules others)) :
    (do
      let _ ← createRule rule
      return (← createOthers) + 1 : Attempt Nat).run.burst installation =
      (.done ((· + 1) <$> outcome), installation.addRules (rule :: others)) := by
  rw [burst_bind_of_ok (burst_createRule prompt valid)]
  have added : (installation.addRules [rule]).addRules others =
      installation.addRules (rule :: others) := by
    rw [addRules, addRules, addRules, ← Store.add_append]
    rfl
  rw [added] at created
  cases outcome with
  | error fault => exact burst_bind_of_error created
  | ok count => exact burst_bind_of_ok created

theorem burst_createNew (prompt : installation.conduct.creation = .prompt)
    (valid : ∀ rule ∈ newRules known rules, rule.validate = .ok ()) :
    (createNew known rules).run.burst installation =
      (.done (.ok (newRules known rules).length),
        installation.addRules (newRules known rules)) := by
  induction rules generalizing known installation with
  | nil =>
      rw [newRules, addRules, Store.add_nil]
      rfl
  | cons rule rest ih =>
      rw [newRules] at valid
      rw [createNew, newRules]
      split at valid
      · rename_i old
        rw [if_pos old, if_pos old]
        exact ih prompt valid
      · rename_i new
        obtain ⟨validRule, validRest⟩ := List.forall_mem_cons.mp valid
        rw [if_neg new, if_neg new]
        exact burst_createRule_bind prompt validRule (ih prompt validRest)

theorem burst_createMissing (prompt : installation.conduct.creation = .prompt)
    (valid : ∀ rule ∈ rules, rule.validate = .ok ()) :
    (createMissing known rules).run.burst installation =
      (.done (.ok (missingRules known rules).length),
        installation.addRules (missingRules known rules)) := by
  induction rules generalizing installation with
  | nil =>
      rw [missingRules, List.filter_nil, addRules, Store.add_nil]
      rfl
  | cons rule rest ih =>
      obtain ⟨validRule, validRest⟩ := List.forall_mem_cons.mp valid
      rw [createMissing, missingRules, List.filter_cons]
      by_cases old : known.contains rule.name
      · rw [if_pos old, if_neg (by simpa using old)]
        exact ih prompt validRest
      · rw [if_neg old, if_pos (by simpa using old)]
        exact burst_createRule_bind prompt validRule (ih prompt validRest)

theorem burst_importRules (prompt : installation.conduct = {})
    (valid : ∀ rule ∈ newRules (installation.store.rules.map Rule.name) rules,
      rule.validate = .ok ()) :
    (importRules rules).run.burst installation =
      (.done (.ok (newRules (installation.store.rules.map Rule.name) rules).length),
        { installation with store := installation.store.imported rules }) := by
  rw [importRules, burst_bind_of_ok (burst_listRules (by rw [prompt]))]
  exact burst_createNew (by rw [prompt]) valid

theorem burst_seedBuiltins (prompt : installation.conduct = {}) :
    seedBuiltins.run.burst installation =
      (.done (.ok (missingRules (installation.store.rules.map Rule.name) Builtin.rules).length),
        { installation with store := installation.store.seeded }) := by
  rw [seedBuiltins, burst_bind_of_ok (burst_listRules (by rw [prompt]))]
  exact burst_createMissing (by rw [prompt]) Builtin.validate_rules

theorem burst_importRules_again (prompt : installation.conduct = {})
    (named : ∀ rule ∈ rules, rule.name ∈ installation.store.rules.map Rule.name) :
    (importRules rules).run.burst installation = (.done (.ok 0), installation) := by
  have none := newRules_eq_nil named
  rw [burst_importRules prompt (by simp [none]), Store.imported, none, Store.add_nil]
  rfl

theorem burst_seedBuiltins_again (prompt : installation.conduct = {})
    (named : ∀ rule ∈ Builtin.rules, rule.name ∈ installation.store.rules.map Rule.name) :
    seedBuiltins.run.burst installation = (.done (.ok 0), installation) := by
  rw [burst_seedBuiltins prompt, Store.seeded, missingRules_eq_nil named, Store.add_nil]
  rfl

theorem burst_refresh_of_prompt (prompt : installation.conduct = {})
    (present : installation.stations[index]? = some station) :
    (refresh index).run.burst installation =
      (.done (.ok installation.store.enabledRules.length),
        installation.place index
          { station with engine := station.engine.refresh installation.store.enabledRules }) := by
  rw [refresh, burst_bind_of_ok (burst_listEnabledRules (by rw [prompt])),
    burst_bind_of_ok (burst_lift (burst_modifyEngine present))]
  rfl

/-- Importing the rules of a list and then seeding comes to an end and fills the store. Doing
either again creates nothing, and an engine that takes over the rules has the enabled ones in the
order of their identities. -/
theorem filled_of_importRules_seedBuiltins (prompt : installation.conduct = {})
    (kept : installation.store.WellKept)
    (distinct : (installation.store.rules.map Rule.name).Nodup)
    (valid : ∀ rule ∈ rules, rule.validate = .ok ())
    (room : installation.store.lastRuleId.toNat + rules.length + Builtin.rules.length <
      UInt64.size) :
    ∃ imported seeded final,
      (do
        let imported ← importRules rules
        let seeded ← seedBuiltins
        return (imported, seeded) : Attempt (Nat × Nat)).run.run installation =
        some (.ok (imported, seeded), final) ∧
      final = { installation with store := final.store } ∧
      final.store.rules.length = installation.store.rules.length + imported + seeded ∧
      installation.store.Filled rules final.store ∧
      (importRules rules).run.run final = some (.ok 0, final) ∧
      seedBuiltins.run.run final = some (.ok 0, final) ∧
      ∀ index station, final.stations[index]? = some station → ∃ engine,
        (refresh index).run.run final =
          some (.ok engine.rules.length,
            { final with stations := final.stations.set index { station with engine } }) ∧
        engine.rules = final.store.rules.filter Rule.enabled ∧
        (engine.rules.map Rule.id).Pairwise (· < ·) := by
  let before := installation.store
  let after := (before.imported rules).seeded
  have filled : before.Filled rules after := Store.filled_of_room kept distinct valid room
  have named : ∀ rule ∈ rules, rule.name ∈ after.rules.map Rule.name := by
    intro rule mem
    rw [Store.mem_names_seeded_iff, List.map_append, List.mem_append,
      Store.mem_names_imported_iff]
    exact .inl (List.mem_map_of_mem (List.mem_append_right _ mem))
  refine ⟨(newRules (before.rules.map Rule.name) rules).length,
    (missingRules ((before.imported rules).rules.map Rule.name) Builtin.rules).length,
    { installation with store := after }, ?_, rfl, ?_, filled, ?_, ?_,
    fun index station present => ⟨station.engine.refresh after.enabledRules, ?_, rfl, ?_⟩⟩
  · have promptNext : Installation.conduct { installation with store := before.imported rules } =
        {} := prompt
    apply run_of_burst
    have validNew : ∀ rule ∈ newRules (before.rules.map Rule.name) rules, rule.validate = .ok () :=
      fun rule mem => valid rule (newRules_sublist.mem mem)
    rw [burst_bind_of_ok (burst_importRules prompt validNew),
      burst_bind_of_ok (burst_seedBuiltins promptNext)]
    rfl
  · simp only [after, Store.seeded, Store.imported, Store.rules_add, List.length_append,
      Store.length_numbered, Nat.add_assoc]
    rfl
  · exact run_of_burst (burst_importRules_again prompt named)
  · exact run_of_burst (burst_seedBuiltins_again prompt fun rule mem => (filled.builtIn rule mem).1)
  · exact run_of_burst (burst_refresh_of_prompt prompt present)
  · exact filled.kept.ascending_ids.sublist (List.filter_sublist.map _)

def halfFilled : Installation :=
  { Installation.start (.clamp 0) with
    store :=
      { entries :=
          [(1, hot), (4, { warm with id := 4, name := "Low disk space", enabled := false })]
        lastRuleId := 6 } }

def clashingRules : List Rule :=
  [{ hot with name := "cold" }, hot, { warm with name := "MQTT disconnected" },
   { warm with name := "cold" }]

theorem filled_of_importRules_seedBuiltins_of_clash :
    ∃ imported seeded final,
      (do
        let imported ← importRules clashingRules
        let seeded ← seedBuiltins
        return (imported, seeded) : Attempt (Nat × Nat)).run.run halfFilled =
        some (.ok (imported, seeded), final) ∧
      halfFilled.store.Filled clashingRules final.store ∧
      (importRules clashingRules).run.run final = some (.ok 0, final) ∧
      seedBuiltins.run.run final = some (.ok 0, final) := by
  have kept : halfFilled.store.WellKept :=
    ⟨by decide, by decide, by decide, by decide⟩
  obtain ⟨imported, seeded, final, run, -, -, filled, importedAgain, seededAgain, -⟩ :=
    filled_of_importRules_seedBuiltins rfl kept (by decide) (by decide : ∀ rule ∈ clashingRules, _)
      (by decide)
  exact ⟨imported, seeded, final, run, filled, importedAgain, seededAgain⟩

end Installation

end Alerting
