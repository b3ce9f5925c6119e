import Alerting.Proofs.Fragments

/-!
# Operators and their opposites

Of an operator and its opposite exactly one holds of a property that is there, except that the
numeric ones do not hold where a side is no number or NaN. Whether all conditions of a list hold
depends neither on their order nor on how often they occur, nor on properties that they do not name.
-/

namespace Alerting

/-! ## Numbers that can be compared -/

namespace Number

variable {left right : Number}

theorem exists_place (number : left ≠ .nan) : ∃ place, left.place? = some place := by
  match left with
  | .nan => exact absurd rfl number
  | .signed false magnitude => exact ⟨_, rfl⟩
  | .signed true magnitude => exact ⟨_, rfl⟩

theorem lt_iff_of_place {a b : Int} (first : left.place? = some a)
    (second : right.place? = some b) : left < right ↔ a < b := by
  change Number.Lt left right ↔ a < b
  rw [Number.Lt, first, second]

theorem le_iff_of_place {a b : Int} (first : left.place? = some a)
    (second : right.place? = some b) : left ≤ right ↔ a ≤ b := by
  change Number.Le left right ↔ a ≤ b
  rw [Number.Le, first, second]

theorem le_iff_not_lt (first : left ≠ .nan) (second : right ≠ .nan) :
    left ≤ right ↔ ¬right < left := by
  obtain ⟨a, first⟩ := exists_place first
  obtain ⟨b, second⟩ := exists_place second
  rw [le_iff_of_place first second, lt_iff_of_place second first, Int.not_lt]

theorem not_lt_of_nan (unordered : left = .nan ∨ right = .nan) : ¬left < right := by
  change ¬Number.Lt left right
  unfold Number.Lt
  rcases unordered with rfl | rfl
  · exact id
  · cases left.place? <;> exact id

theorem not_le_of_nan (unordered : left = .nan ∨ right = .nan) : ¬left ≤ right := by
  change ¬Number.Le left right
  unfold Number.Le
  rcases unordered with rfl | rfl
  · exact id
  · cases left.place? <;> exact id

end Number

/-! ## One property and one operand -/

namespace Operator

variable {operator : Operator} {left right : Number} {property : Property} {operand : String}

/-- Whether both a property and an operand are numbers other than NaN. -/
def Comparable (property : Property) (operand : String) : Prop :=
  ∃ left right, property.number? = some left ∧ left ≠ .nan ∧
    Number.parse? operand = some right ∧ right ≠ .nan

theorem compare_of_nan (unordered : left = .nan ∨ right = .nan) :
    operator.compare left right = false := by
  cases operator <;>
    simp [compare, Number.not_lt_of_nan unordered, Number.not_lt_of_nan unordered.symm,
      Number.not_le_of_nan unordered, Number.not_le_of_nan unordered.symm]

theorem holds_of_numbers (numeric : operator.isNumeric) (first : property.number? = some left)
    (second : Number.parse? operand = some right) :
    operator.holds property operand = operator.compare left right := by
  cases operator <;> first | contradiction | simp [holds, first, second]

theorem holds_of_not_comparable (numeric : operator.isNumeric)
    (incomparable : ¬Comparable property operand) :
    operator.holds property operand = false := by
  cases first : property.number? with
  | none => cases operator <;> first | contradiction | simp [holds, first]
  | some left =>
      cases second : Number.parse? operand with
      | none => cases operator <;> first | contradiction | simp [holds, first, second]
      | some right =>
          rw [holds_of_numbers numeric first second]
          apply compare_of_nan
          by_contra ordered
          obtain ⟨left_ne, right_ne⟩ := not_or.mp ordered
          exact incomparable ⟨left, right, first, left_ne, second, right_ne⟩

theorem holds_contains_of_holds_is (same : is.holds property operand = true) :
    contains.holds property operand = true := by
  have equal : lowerCase property.shown = lowerCase operand := eq_of_beq same
  exact occursIn_iff.mpr (equal ▸ List.infix_refl _)

/-- Whether operators and their opposites hold as they should; of numbers, if both sides are such
that they can be compared. -/
structure Opposed (holds : Operator → Bool) (comparable : Prop) : Prop where
  same : holds .isNot = !holds .is
  inside : holds .notContains = !holds .contains
  whole : holds .is = true → holds .contains = true
  above : comparable → holds .lessOrEqual = !holds .greaterThan
  below : comparable → holds .greaterOrEqual = !holds .lessThan
  level : comparable → ((holds .greaterOrEqual = true ∧ holds .lessOrEqual = true) ↔
    (holds .greaterThan = false ∧ holds .lessThan = false))
  incomparable : ¬comparable → ∀ operator : Operator, operator.isNumeric → holds operator = false
  unknown : ∀ name, holds (.unknown name) = false

theorem lessOrEqual_of_comparable (comparable : Comparable property operand) :
    lessOrEqual.holds property operand = !greaterThan.holds property operand := by
  obtain ⟨left, right, first, left_ne, second, right_ne⟩ := comparable
  rw [holds_of_numbers rfl first second, holds_of_numbers rfl first second]
  simp [compare, Number.le_iff_not_lt left_ne right_ne]

theorem greaterOrEqual_of_comparable (comparable : Comparable property operand) :
    greaterOrEqual.holds property operand = !lessThan.holds property operand := by
  obtain ⟨left, right, first, left_ne, second, right_ne⟩ := comparable
  rw [holds_of_numbers rfl first second, holds_of_numbers rfl first second]
  simp [compare, Number.le_iff_not_lt right_ne left_ne]

theorem holds_unknown (name : String) : (unknown name).holds property operand = false := by
  simp only [holds, compare]
  cases property.number? <;> cases Number.parse? operand <;> rfl

theorem opposed_holds (property : Property) (operand : String) :
    Opposed (fun operator => operator.holds property operand) (Comparable property operand) where
  same := rfl
  inside := rfl
  whole := holds_contains_of_holds_is
  above := lessOrEqual_of_comparable
  below := greaterOrEqual_of_comparable
  level comparable := by
    rw [greaterOrEqual_of_comparable comparable, lessOrEqual_of_comparable comparable,
      Bool.not_eq_true', Bool.not_eq_true', and_comm]
  incomparable apart _ numeric := holds_of_not_comparable numeric apart
  unknown := holds_unknown

end Operator

/-! ## Many properties and conditions -/

namespace Properties

theorem lookup_insertEntry {name other : String} (apart : other ≠ name) (value : Property)
    (entries : List (String × Property)) :
    (insertEntry name value entries).lookup other = entries.lookup other := by
  have passed : (other == name) = false := beq_eq_false_iff_ne.mpr apart
  induction entries with
  | nil => rw [insertEntry, List.lookup_cons, passed]
  | cons entry rest ih =>
      rw [insertEntry]
      split
      · rw [List.lookup_cons, passed]
      · split
        · rename_i same
          rw [List.lookup_cons, List.lookup_cons, ← same, passed]
        · rw [List.lookup_cons, List.lookup_cons, ih]

theorem get?_insert {name other : String} (apart : other ≠ name) (value : Property)
    (properties : Properties) : (properties.insert name value).get? other = properties.get? other :=
  lookup_insertEntry apart value properties.entries

end Properties

theorem holds_of_absent {condition : Condition} {properties : Properties}
    (absent : properties.get? condition.property = none) : condition.holds properties = false := by
  rw [Condition.holds, absent]

theorem allHold_congr {conditions others : List Condition} {properties changed : Properties}
    (same : ∀ condition, condition ∈ others ↔ condition ∈ conditions)
    (agree : ∀ condition ∈ conditions,
      changed.get? condition.property = properties.get? condition.property) :
    allHold others changed = allHold conditions properties := by
  have each : ∀ condition ∈ conditions, condition.holds changed = condition.holds properties :=
    fun condition mem => by rw [Condition.holds, Condition.holds, agree condition mem]
  rw [Bool.eq_iff_iff, allHold, allHold, List.all_eq_true, List.all_eq_true]
  constructor
  · intro all condition mem
    rw [← each condition mem]
    exact all condition ((same condition).mpr mem)
  · intro all condition mem
    have listed := (same condition).mp mem
    rw [each condition listed]
    exact all condition listed

/-- Conditions with each operator on one property, and lists of conditions. -/
theorem conditions_opposed (properties : Properties) (name operand : String) (duration : UInt64) :
    (∀ property, properties.get? name = some property →
      Operator.Opposed
        (fun operator => Condition.holds ⟨name, operator, operand, duration⟩ properties)
        (Operator.Comparable property operand)) ∧
      (properties.get? name = none →
        ∀ operator, Condition.holds ⟨name, operator, operand, duration⟩ properties = false) ∧
      (∀ (conditions others : List Condition) (changed : Properties),
        (∀ condition, condition ∈ others ↔ condition ∈ conditions) →
        (∀ condition ∈ conditions,
          changed.get? condition.property = properties.get? condition.property) →
        allHold others changed = allHold conditions properties) ∧
      (∀ (conditions : List Condition) (other : String) (value : Property),
        (∀ condition ∈ conditions, condition.property ≠ other) →
        allHold conditions (properties.insert other value) = allHold conditions properties) := by
  refine ⟨fun property present => ?_, fun absent operator => holds_of_absent absent,
    fun conditions others changed => allHold_congr, fun conditions other value apart => ?_⟩
  · simp only [Condition.holds, present]
    exact Operator.opposed_holds property operand
  · apply allHold_congr fun _ => Iff.rfl
    exact fun condition mem => Properties.get?_insert (apart condition mem) value properties

def sighting : Properties :=
  .ofList [("species", .text "Robin"), ("confidence", .number (.ofInt 85)), ("online", .bool true)]

theorem conditions_opposed_of_sighting :
    Operator.Comparable (.number (.ofInt 85)) "8.5e1" ∧
      Operator.Opposed
        (fun operator => Condition.holds ⟨"confidence", operator, "8.5e1", 0⟩ sighting)
        (Operator.Comparable (.number (.ofInt 85)) "8.5e1") ∧
      Condition.holds ⟨"location", .isNot, "garden", 0⟩ sighting = false ∧
      allHold
          [⟨"confidence", .greaterThan, "80", 0⟩, ⟨"species", .is, "ROBIN", 0⟩,
           ⟨"confidence", .greaterThan, "80", 0⟩]
          (sighting.insert "online" (.text "no")) =
        allHold [⟨"species", .is, "ROBIN", 0⟩, ⟨"confidence", .greaterThan, "80", 0⟩] sighting := by
  have comparable : Operator.Comparable (.number (.ofInt 85)) "8.5e1" :=
    ⟨.ofInt 85, .ofInt 85, rfl, by decide +kernel, by decide +kernel, by decide +kernel⟩
  have present : sighting.get? "confidence" = some (.number (.ofInt 85)) := by decide +kernel
  have absent : sighting.get? "location" = none := by decide +kernel
  have offline : ∀ name ∈ ["species", "confidence"],
      (sighting.insert "online" (.text "no")).get? name = sighting.get? name := by decide +kernel
  obtain ⟨opposed, -, -, -⟩ := conditions_opposed sighting "confidence" "8.5e1" 0
  obtain ⟨-, missing, among, -⟩ := conditions_opposed sighting "location" "garden" 0
  refine ⟨comparable, opposed _ present, missing absent .isNot,
    among _ _ _ (fun condition => ?_) ?_⟩
  · simp only [List.mem_cons, List.not_mem_nil, or_false]
    tauto
  · simpa using offline

end Alerting
