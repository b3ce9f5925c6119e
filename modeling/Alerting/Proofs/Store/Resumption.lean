import Alerting.Proofs.Store.Import

/-!
# Imports broken off and resumed

An import goes through its list and passes over rules whose names are taken. It stops at the first
of the others that is not valid, and leaves those before it in the store. So whoever mends that rule
and imports the list once more gets what was missing, under the numbers that it would have had.
-/

namespace Alerting

/-! ## Lists in pieces -/

section

variable {known others : List String} {rules front back : List Rule} {rule mended : Rule}
  {fault : Fault}

theorem newRules_congr (same : ∀ name, name ∈ known ↔ name ∈ others) :
    newRules known rules = newRules others rules := by
  induction rules generalizing known others with
  | nil => rfl
  | cons first rest ih =>
      have old : known.contains first.name = others.contains first.name := by
        rw [Bool.eq_iff_iff, List.contains_iff_mem, List.contains_iff_mem, same]
      have more : ∀ name, name ∈ first.name :: known ↔ name ∈ first.name :: others := by
        simp [same]
      rw [newRules, newRules, old, ih same, ih more]

theorem newRules_append :
    newRules known (front ++ back) =
      newRules known front ++ newRules (front.map Rule.name ++ known) back := by
  induction front generalizing known with
  | nil => rfl
  | cons first rest ih =>
      rw [List.cons_append, newRules, newRules, List.map_cons]
      by_cases old : known.contains first.name
      · have taken : first.name ∈ known := List.contains_iff_mem.mp old
        have same : ∀ name, name ∈ rest.map Rule.name ++ known ↔
            name ∈ first.name :: rest.map Rule.name ++ known := by
          intro name
          rw [List.cons_append, List.mem_cons, iff_or_self]
          rintro rfl
          exact List.mem_append_right _ taken
        rw [if_pos old, if_pos old, ih, newRules_congr same]
      · have same : ∀ name, name ∈ rest.map Rule.name ++ first.name :: known ↔
            name ∈ first.name :: rest.map Rule.name ++ known := by
          intro name
          simp only [List.mem_append, List.mem_cons]
          tauto
        rw [if_neg old, if_neg old, ih, newRules_congr same]
        rfl

structure IsNew (known : List String) (front : List Rule) (rule : Rule) : Prop where
  unknown : rule.name ∉ known
  unlisted : rule.name ∉ front.map Rule.name

def newBehind (known : List String) (front : List Rule) (rule : Rule) (back : List Rule) :
    List Rule :=
  newRules (rule.name :: (front.map Rule.name ++ known)) back

theorem IsNew.newRules_eq (new : IsNew known front rule) :
    newRules known (front ++ rule :: back) =
      newRules known front ++ rule :: newBehind known front rule back := by
  have untaken : ¬(front.map Rule.name ++ known).contains rule.name := by
    rw [List.contains_iff_mem, List.mem_append]
    exact fun taken => taken.elim new.unlisted new.unknown
  rw [newRules_append, newRules, if_neg untaken]
  rfl

/-- Whether an import of a list stops at a rule in the midst of it. -/
structure StopsAt (known : List String) (front : List Rule) (rule : Rule) (fault : Fault) :
    Prop where
  new : IsNew known front rule
  sound : ∀ earlier ∈ newRules known front, earlier.validate = .ok ()
  broken : rule.validate = .error fault

theorem stopsAt_cons_of_old {first : Rule} (old : first.name ∈ known) :
    StopsAt known (first :: front) rule fault ↔ StopsAt known front rule fault := by
  have passedOver : newRules known (first :: front) = newRules known front := by
    rw [newRules, if_pos (List.contains_iff_mem.mpr old)]
  constructor
  · rintro ⟨⟨unknown, unlisted⟩, sound, broken⟩
    exact ⟨⟨unknown, fun listed => unlisted (List.mem_cons_of_mem _ listed)⟩,
      passedOver ▸ sound, broken⟩
  · rintro ⟨⟨unknown, unlisted⟩, sound, broken⟩
    refine ⟨⟨unknown, fun listed => ?_⟩, passedOver ▸ sound, broken⟩
    rcases List.mem_cons.mp listed with same | listed
    · exact unknown (same ▸ old)
    · exact unlisted listed

theorem stopsAt_cons_of_new {first : Rule} (new : first.name ∉ known) :
    StopsAt known (first :: front) rule fault ↔
      first.validate = .ok () ∧ StopsAt (first.name :: known) front rule fault := by
  have created : newRules known (first :: front) = first :: newRules (first.name :: known) front := by
    rw [newRules, if_neg (mt List.contains_iff_mem.mp new)]
  have apart : IsNew known (first :: front) rule ↔ IsNew (first.name :: known) front rule := by
    constructor
    · rintro ⟨unknown, unlisted⟩
      rw [List.map_cons, List.mem_cons, not_or] at unlisted
      exact ⟨fun named => (List.mem_cons.mp named).elim unlisted.1 unknown, unlisted.2⟩
    · rintro ⟨unknown, unlisted⟩
      rw [List.mem_cons, not_or] at unknown
      exact ⟨unknown.2, fun listed => (List.mem_cons.mp listed).elim unknown.1 unlisted⟩
  constructor
  · rintro ⟨new, sound, broken⟩
    rw [created, List.forall_mem_cons] at sound
    exact ⟨sound.1, apart.mp new, sound.2, broken⟩
  · rintro ⟨valid, new, sound, broken⟩
    refine ⟨apart.mpr new, ?_, broken⟩
    rw [created, List.forall_mem_cons]
    exact ⟨valid, sound⟩

theorem sound_or_stopsAt (known : List String) (rules : List Rule) :
    (∀ rule ∈ newRules known rules, rule.validate = .ok ()) ∨
      ∃ front rule back fault, rules = front ++ rule :: back ∧ StopsAt known front rule fault := by
  induction rules generalizing known with
  | nil => exact .inl (by simp [newRules])
  | cons first rest ih =>
      by_cases old : first.name ∈ known
      · rw [newRules, if_pos (List.contains_iff_mem.mpr old)]
        rcases ih known with sound | ⟨front, rule, back, fault, rfl, stops⟩
        · exact .inl sound
        · exact .inr ⟨first :: front, rule, back, fault, rfl, (stopsAt_cons_of_old old).mpr stops⟩
      · rw [newRules, if_neg (mt List.contains_iff_mem.mp old), List.forall_mem_cons]
        cases valid : first.validate with
        | error fault =>
            have new : IsNew known [] first := ⟨old, by simp⟩
            exact .inr ⟨[], first, rest, fault, rfl, new, by simp [newRules], valid⟩
        | ok _ =>
            rcases ih (first.name :: known) with sound | ⟨front, rule, back, fault, rfl, stops⟩
            · exact .inl ⟨rfl, sound⟩
            · exact .inr ⟨first :: front, rule, back, fault, rfl,
                (stopsAt_cons_of_new old).mpr ⟨valid, stops⟩⟩

theorem IsNew.newRules_resumed (new : IsNew known front rule)
    (mended : Rule) (same : mended.name = rule.name)
    (there : ∀ name, name ∈ others ↔ name ∈ known ∨ name ∈ front.map Rule.name) :
    newRules others (front ++ mended :: back) = mended :: newBehind known front rule back := by
  have newAgain : IsNew others front mended := by
    refine ⟨fun taken => ?_, same ▸ new.unlisted⟩
    rw [there, same] at taken
    exact taken.elim new.unknown new.unlisted
  have named : ∀ earlier ∈ front, earlier.name ∈ others := fun earlier mem =>
    (there earlier.name).mpr (.inr (List.mem_map_of_mem mem))
  have behind : newBehind others front mended back = newBehind known front rule back := by
    refine newRules_congr fun name => ?_
    rw [same]
    simp only [List.mem_cons, List.mem_append, there]
    tauto
  rw [newAgain.newRules_eq, newRules_eq_nil named, behind]
  rfl

end

namespace Installation

open Activity

variable {installation : Installation} {known : List String} {front back : List Rule}
  {rule : Rule} {fault : Fault}

/-! ## Imports that stop -/

theorem burst_createRule_of_broken (prompt : installation.conduct.creation = .prompt)
    (broken : rule.validate = .error fault) :
    (createRule rule).run.burst installation = (.done (.error fault), installation) := by
  have refused : installation.store.create rule = .error fault := by
    rw [Store.create, broken]
    rfl
  rw [createRule, burst_bind_of_ok (burst_awaitStore prompt)]
  exact burst_changeStore_of_refused refused

theorem burst_createNew_of_stopsAt (prompt : installation.conduct.creation = .prompt)
    (stops : StopsAt known front rule fault) :
    (createNew known (front ++ rule :: back)).run.burst installation =
      (.done (.error fault), installation.addRules (newRules known front)) := by
  induction front generalizing known installation with
  | nil =>
      have untaken := mt List.contains_iff_mem.mp stops.new.unknown
      rw [List.nil_append, createNew, if_neg untaken, newRules, addRules, Store.add_nil]
      exact burst_bind_of_error (burst_createRule_of_broken prompt stops.broken)
  | cons first front ih =>
      rw [List.cons_append, createNew, newRules]
      by_cases old : first.name ∈ known
      · rw [if_pos (List.contains_iff_mem.mpr old), if_pos (List.contains_iff_mem.mpr old)]
        exact ih prompt ((stopsAt_cons_of_old old).mp stops)
      · obtain ⟨valid, stops⟩ := (stopsAt_cons_of_new old).mp stops
        have untaken := mt List.contains_iff_mem.mp old
        rw [if_neg untaken, if_neg untaken]
        exact burst_createRule_bind prompt valid (ih prompt stops)

theorem burst_importRules_of_stopsAt (prompt : installation.conduct = {})
    (stops : StopsAt (installation.store.rules.map Rule.name) front rule fault) :
    (importRules (front ++ rule :: back)).run.burst installation =
      (.done (.error fault), installation.addRules
        (newRules (installation.store.rules.map Rule.name) front)) := by
  rw [importRules, burst_bind_of_ok (burst_listRules (by rw [prompt]))]
  exact burst_createNew_of_stopsAt (by rw [prompt]) stops

/-- Whether an import ends with an outcome when it has created some rules and changed nothing else.
The new rules are numbered one after another, with numbers that no other rule has. -/
structure Imports (before : Installation) (rules : List Rule) (outcome : Except Fault Nat)
    (created : List Rule) (after : Installation) : Prop where
  run : (importRules rules).run.run before = some (outcome, after)
  frame : after = { before with store := after.store }
  rules : after.store.rules = before.store.rules ++
    Store.numbered before.store.lastRuleId created
  lastRuleId : after.store.lastRuleId = before.store.lastRuleId + .ofNat created.length
  history : after.store.history = before.store.history ∧
    after.store.lastRecordId = before.store.lastRecordId
  fresh : before.store.WellKept →
    before.store.lastRuleId.toNat + created.length < UInt64.size → after.store.WellKept

theorem imports_addRules {rules created : List Rule} {outcome : Except Fault Nat}
    (valid : ∀ rule ∈ created, rule.validate = .ok ())
    (ran : (importRules rules).run.burst installation =
      (.done outcome, installation.addRules created)) :
    installation.Imports rules outcome created (installation.addRules created) where
  run := run_of_burst ran
  frame := rfl
  rules := Store.rules_add
  lastRuleId := rfl
  history := ⟨rfl, rfl⟩
  fresh kept room := kept.add valid room

theorem imports_of_sound {rules : List Rule} (prompt : installation.conduct = {})
    (sound : ∀ rule ∈ newRules (installation.store.rules.map Rule.name) rules,
      rule.validate = .ok ()) :
    installation.Imports rules
      (.ok (newRules (installation.store.rules.map Rule.name) rules).length)
      (newRules (installation.store.rules.map Rule.name) rules)
      (installation.addRules (newRules (installation.store.rules.map Rule.name) rules)) :=
  imports_addRules sound (burst_importRules prompt sound)

/-- An import creates all rules that it does not pass over, unless one of them is not valid. Then it
ends with the fault of the first such rule and has created those before it. Once that rule is
mended, with no other that is not valid behind it, a second import creates what is missing, and
the store is the same as if the mended list had been imported in the first place. -/
theorem importRules_resumable (prompt : installation.conduct = {}) (rules : List Rule) :
    let known := installation.store.rules.map Rule.name
    ((∀ rule ∈ newRules known rules, rule.validate = .ok ()) ∨
      ∃ front rule back fault, rules = front ++ rule :: back ∧ StopsAt known front rule fault) ∧
    ((∀ rule ∈ newRules known rules, rule.validate = .ok ()) → ∃ after,
      installation.Imports rules (.ok (newRules known rules).length) (newRules known rules) after) ∧
    ∀ front rule back fault, rules = front ++ rule :: back → StopsAt known front rule fault →
      ∃ after, installation.Imports rules (.error fault) (newRules known front) after ∧
        ∀ mended : Rule, mended.name = rule.name → mended.validate = .ok () →
          (∀ later ∈ newBehind known front rule back, later.validate = .ok ()) →
          let missing := mended :: newBehind known front rule back
          ∃ final, after.Imports (front ++ mended :: back) (.ok missing.length) missing final ∧
            installation.Imports (front ++ mended :: back)
              (.ok (newRules known front ++ missing).length) (newRules known front ++ missing)
              final := by
  intro known
  refine ⟨sound_or_stopsAt known rules, fun sound => ⟨_, imports_of_sound prompt sound⟩, ?_⟩
  rintro front rule back fault rfl stops
  refine ⟨_, imports_addRules stops.sound (burst_importRules_of_stopsAt prompt stops), ?_⟩
  intro mended same valid validBehind missing
  let after := installation.addRules (newRules known front)
  have validMissing : ∀ rule ∈ missing, rule.validate = .ok () :=
    List.forall_mem_cons.mpr ⟨valid, validBehind⟩
  have resumed : newRules (after.store.rules.map Rule.name) (front ++ mended :: back) = missing := by
    refine stops.new.newRules_resumed mended same fun name => ?_
    have names : after.store.rules.map Rule.name =
        known ++ (newRules known front).map Rule.name := Store.names_add
    rw [names, List.mem_append, name_mem_newRules_iff]
    tauto
  have afresh : newRules known (front ++ mended :: back) = newRules known front ++ missing := by
    have new : IsNew known front mended :=
      ⟨same ▸ stops.new.unknown, same ▸ stops.new.unlisted⟩
    rw [new.newRules_eq, newBehind, same]
    rfl
  have twice : after.addRules missing = installation.addRules (newRules known front ++ missing) := by
    simp only [after, addRules, Store.add_append]
  refine ⟨after.addRules missing, ?_, ?_⟩
  · have imports := @imports_of_sound after _ prompt (resumed ▸ validMissing)
    rwa [resumed] at imports
  · have validAll : ∀ rule ∈ newRules known (front ++ mended :: back),
        rule.validate = .ok () := by
      rw [afresh]
      exact List.forall_mem_append.mpr ⟨stops.sound, validMissing⟩
    have imports := imports_of_sound prompt validAll
    rw [afresh] at imports
    rwa [twice]

def soundRules : List Rule :=
  [hot, { warm with name := "cold" }, { hot with name := "cold" }]

def mendedRule : Rule := { warm with name := "idle" }

def brokenRule : Rule := { mendedRule with objectType := "" }

theorem importRules_resumable_of_brokenRule :
    StopsAt (halfFilled.store.rules.map Rule.name) soundRules brokenRule
      (.invalidRule "object type cannot be empty") ∧
    ∃ after, halfFilled.Imports (soundRules ++ [brokenRule, brokenRule, hot])
        (.error (.invalidRule "object type cannot be empty")) [{ warm with name := "cold" }] after ∧
      ∃ final, after.Imports (soundRules ++ [mendedRule, brokenRule, hot]) (.ok 1) [mendedRule]
          final ∧
        halfFilled.Imports (soundRules ++ [mendedRule, brokenRule, hot]) (.ok 2)
          [{ warm with name := "cold" }, mendedRule] final := by
  have stops : StopsAt (halfFilled.store.rules.map Rule.name) soundRules brokenRule
      (.invalidRule "object type cannot be empty") :=
    ⟨⟨by decide, by decide⟩, by decide, by decide⟩
  obtain ⟨after, stopped, resume⟩ :=
    (@importRules_resumable halfFilled rfl _).2.2 soundRules brokenRule
      [brokenRule, hot] _ rfl stops
  exact ⟨stops, after, stopped, resume mendedRule rfl (by decide) (by decide)⟩

end Installation

end Alerting
