import Alerting.Proofs.Store.Invariants

/-!
# Which rules are accepted

Whoever takes in a rule asks for the same: a name, a kind of object and a name of what it reacts to.
The name of a rule may have up to 256 bytes. How many characters that are depends on how long each
of them is; only where all take a single byte is the limit one of 256 characters.
-/

namespace Alerting

/-! ## Lengths in bytes and in characters -/

def byteCount : List Char → Nat
  | [] => 0
  | char :: rest => char.utf8Size + byteCount rest

theorem utf8ByteSize_eq_byteCount (text : String) :
    text.utf8ByteSize = byteCount text.toList := by
  have each (chars : List Char) : (String.ofList chars).utf8ByteSize = byteCount chars := by
    induction chars with
    | nil => rfl
    | cons char rest ih =>
        rw [String.ofList_cons, String.utf8ByteSize_append, String.utf8ByteSize_singleton, ih]
        rfl
  rw [← each, String.ofList_toList]

theorem length_le_byteCount (chars : List Char) : chars.length ≤ byteCount chars := by
  induction chars with
  | nil => exact Nat.le_refl 0
  | cons char rest ih =>
      rw [List.length_cons, byteCount]
      have := char.utf8Size_pos
      omega

theorem byteCount_of_single {chars : List Char} (single : ∀ char ∈ chars, char.utf8Size = 1) :
    byteCount chars = chars.length := by
  induction chars with
  | nil => rfl
  | cons char rest ih =>
      obtain ⟨here, single⟩ := List.forall_mem_cons.mp single
      rw [byteCount, here, ih single, List.length_cons, Nat.add_comm]

/-! ## What is asked of a rule -/

namespace Rule

structure IsAdmissible (rule : Rule) : Prop where
  named : rule.name ≠ ""
  short : byteCount rule.name.toList ≤ maxNameLength
  typed : rule.objectType ≠ ""
  triggered : rule.trigger.name ≠ ""

variable {rule stored : Rule} {store : Store}

theorem defect?_eq_none_iff : rule.defect? = none ↔ rule.IsAdmissible := by
  constructor
  · intro sound
    unfold defect? at sound
    split_ifs at sound with unnamed long untyped untriggered
    rw [String.isEmpty_iff] at unnamed untyped untriggered
    rw [Nat.not_lt, utf8ByteSize_eq_byteCount] at long
    exact ⟨unnamed, long, untyped, untriggered⟩
  · rintro ⟨named, short, typed, triggered⟩
    rw [← utf8ByteSize_eq_byteCount, ← Nat.not_lt] at short
    simp [defect?, String.isEmpty_iff, named, short, typed, triggered]

theorem validate_eq_ok_iff : rule.validate = .ok () ↔ rule.IsAdmissible := by
  rw [← defect?_eq_none_iff]
  unfold validate
  cases rule.defect? <;> simp

/-! ## Whoever takes in a rule -/

theorem build_eq : rule.build = (fun _ => rule) <$> rule.validate := by
  unfold build
  cases rule.validate <;> rfl

theorem create_eq :
    store.create rule =
      (fun _ =>
        let made : Rule := { rule with id := store.lastRuleId + 1 }
        (made, { store with
          entries := store.entries ++ [(made.id, made)]
          lastRuleId := store.lastRuleId + 1 })) <$> rule.validate := by
  unfold Store.create
  cases rule.validate <;> rfl

theorem update_eq (found : store.rule? rule.id = some stored) :
    store.update rule = (fun _ => store.amend rule.id fun _ => rule) <$> rule.validate := by
  unfold Store.update
  rw [Store.getRule_eq_ok.mpr found]
  cases rule.validate <;> rfl

theorem exists_map_validate_iff {A : Type} (result : Unit → A) :
    (∃ taken, result <$> rule.validate = .ok taken) ↔ rule.IsAdmissible := by
  rw [← validate_eq_ok_iff]
  cases rule.validate <;> simp

/-- Building a rule, creating it in a store and changing a stored one to it succeed exactly where the
check of the rule does, and that is where it is admissible. The name then has at most 256
characters; where each of them is a single byte, nothing else is asked of its length. -/
theorem accepted_iff_isAdmissible (rule : Rule) :
    (rule.validate = .ok () ↔ rule.IsAdmissible) ∧
    (rule.build = .ok rule ↔ rule.IsAdmissible) ∧
    (∀ store : Store, (∃ taken, store.create rule = .ok taken) ↔ rule.IsAdmissible) ∧
    (∀ (store : Store) (stored : Rule), store.rule? rule.id = some stored →
      ((∃ after, store.update rule = .ok after) ↔ rule.IsAdmissible)) ∧
    (rule.IsAdmissible → 1 ≤ rule.name.length ∧ rule.name.length ≤ 256) ∧
    ((∀ char ∈ rule.name.toList, char.utf8Size = 1) →
      (rule.IsAdmissible ↔ (1 ≤ rule.name.length ∧ rule.name.length ≤ 256) ∧
        rule.objectType ≠ "" ∧ rule.trigger.name ≠ "")) := by
  have built : rule.build = .ok rule ↔ rule.IsAdmissible := by
    rw [build_eq, ← validate_eq_ok_iff]
    cases rule.validate <;> simp
  have nonempty : 1 ≤ rule.name.length ↔ rule.name ≠ "" := by
    rw [Nat.one_le_iff_ne_zero, ne_eq, String.length_eq_zero_iff]
  refine ⟨validate_eq_ok_iff, built, fun store => ?_, fun store stored found => ?_, ?_, ?_⟩
  · rw [create_eq]
    exact exists_map_validate_iff _
  · rw [update_eq found]
    exact exists_map_validate_iff _
  · intro admissible
    refine ⟨nonempty.mpr admissible.named, ?_⟩
    rw [← String.length_toList]
    exact Nat.le_trans (length_le_byteCount _) admissible.short
  · intro single
    have size : byteCount rule.name.toList = rule.name.length := by
      rw [byteCount_of_single single, String.length_toList]
    constructor
    · rintro ⟨named, short, typed, triggered⟩
      exact ⟨⟨nonempty.mpr named, size ▸ short⟩, typed, triggered⟩
    · rintro ⟨⟨named, short⟩, typed, triggered⟩
      exact ⟨nonempty.mp named, size ▸ short, typed, triggered⟩

def accented (length : Nat) : Rule :=
  { name := String.ofList (List.replicate length 'é'), objectType := "host", trigger := .event "up" }

theorem byteCount_accented (length : Nat) :
    byteCount (accented length).name.toList = 2 * length := by
  change byteCount (String.ofList (List.replicate length 'é')).toList = 2 * length
  rw [String.toList_ofList]
  induction length with
  | zero => rfl
  | succ length ih =>
      rw [List.replicate_succ, byteCount, ih, Nat.mul_succ, Nat.add_comm]
      rfl

theorem length_accented (length : Nat) : (accented length).name.length = length := by
  simp [accented]

theorem isAdmissible_accented_iff {length : Nat} (positive : 0 < length) :
    (accented length).IsAdmissible ↔ length ≤ 128 := by
  have limit : byteCount (accented length).name.toList ≤ maxNameLength ↔ length ≤ 128 := by
    rw [byteCount_accented, maxNameLength]
    omega
  refine ⟨fun admissible => limit.mp admissible.short, fun short => ⟨?_, limit.mpr short, ?_, ?_⟩⟩
  · intro unnamed
    have none := length_accented length
    rw [unnamed] at none
    exact Nat.ne_of_lt positive none
  · exact (by decide : "host" ≠ "")
  · exact (by decide : "up" ≠ "")

theorem accepted_iff_isAdmissible_of_accented :
    (accented 128).IsAdmissible ∧ (accented 128).validate = .ok () ∧
    (Store.rule? { entries := [(0, accented 1)] } 0 = some (accented 1) ∧
      ∃ after, Store.update { entries := [(0, accented 1)] } (accented 128) = .ok after) ∧
    ¬∃ taken, Store.create {} (accented 129) = .ok taken := by
  have fits : (accented 128).IsAdmissible := (isAdmissible_accented_iff (by decide)).mpr (by decide)
  have long : ¬(accented 129).IsAdmissible := by
    rw [isAdmissible_accented_iff (by decide)]
    decide
  obtain ⟨valid, -, -, updated, -⟩ := accepted_iff_isAdmissible (accented 128)
  obtain ⟨-, -, created, -⟩ := accepted_iff_isAdmissible (accented 129)
  have found : Store.rule? { entries := [(0, accented 1)] } 0 = some (accented 1) := rfl
  exact ⟨fits, valid.mpr fits, ⟨found, (updated _ _ found).mpr fits⟩,
    fun taken => long ((created {}).mp taken)⟩

/-- Not every name of up to 256 characters is accepted. -/
theorem not_forall_validate_iff :
    ¬∀ rule : Rule, rule.validate = .ok () ↔
      (1 ≤ rule.name.length ∧ rule.name.length ≤ 256) ∧
        rule.objectType ≠ "" ∧ rule.trigger.name ≠ "" := by
  intro all
  have valid : (accented 129).validate = .ok () := by
    refine (all (accented 129)).mpr ⟨?_, by decide, by decide⟩
    rw [length_accented]
    decide
  have admissible := validate_eq_ok_iff.mp valid
  rw [isAdmissible_accented_iff (by decide)] at admissible
  exact absurd admissible (by decide)

end Rule

end Alerting
