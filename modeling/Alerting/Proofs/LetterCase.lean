import Mathlib
import Alerting.Matching

/-!
# The case of letters

Whether a condition holds does not depend on the case of the ASCII letters in a text and an operand.
Lowering these letters first makes no difference, neither to the lower-case form of a text, which
tells a final sigma by the letters around it, nor to the number that it writes.
-/

namespace Alerting

variable {char : Char}

/-! ## Letters -/

theorem of_capitals {motive : Char → Char → Prop} (same : ∀ char, motive char char)
    (capital : ∀ place : Fin 26,
      motive (Char.ofNat (65 + place)) (Char.ofNat (65 + place)).toLower)
    (char : Char) : motive char char.toLower := by
  by_cases upper : char.isUpper
  · have bounds : 65 ≤ char.toNat ∧ char.toNat ≤ 90 := by
      simpa [Char.isUpper, UInt32.le_iff_toNat_le] using upper
    have written : Char.ofNat (65 + (char.toNat - 65)) = char := by
      rw [Nat.add_sub_cancel' bounds.1, Char.ofNat_toNat]
    exact written ▸ capital ⟨char.toNat - 65, by omega⟩
  · rw [Char.toLower_eq_of_not_isUpper upper]
    exact same char

theorem isDigit_toLower (char : Char) : char.toLower.isDigit = char.isDigit :=
  of_capitals (motive := fun char lower => lower.isDigit = char.isDigit) (fun _ => rfl)
    (by decide) char

theorem toLower_of_isDigit (digit : char.isDigit = true) : char.toLower = char :=
  of_capitals (motive := fun char lower => char.isDigit = true → lower = char) (fun _ _ => rfl)
    (by decide) char digit

theorem toLower_toNat_lt_iff : char.toLower.toNat < 0x80 ↔ char.toNat < 0x80 :=
  of_capitals (motive := fun char lower => lower.toNat < 0x80 ↔ char.toNat < 0x80)
    (fun _ => Iff.rfl) (by decide) char

theorem toLower_of_le (beyond : ¬char.toNat < 0x80) : char.toLower = char :=
  of_capitals (motive := fun char lower => ¬char.toNat < 0x80 → lower = char) (fun _ _ => rfl)
    (by decide) char beyond

theorem toLower_of_not_isAlpha (noLetter : char.isAlpha = false) : char.toLower = char :=
  of_capitals (motive := fun char lower => char.isAlpha = false → lower = char) (fun _ _ => rfl)
    (by decide) char noLetter

theorem toLower_eq_iff {mark : Char} (noLetter : mark.isAlpha = false) :
    char.toLower = mark ↔ char = mark := by
  constructor
  · rintro rfl
    rw [Char.isAlpha_toLower_eq_isAlpha] at noLetter
    exact (toLower_of_not_isAlpha noLetter).symm
  · rintro rfl
    exact toLower_of_not_isAlpha noLetter

/-! ## Lower-case forms -/

namespace LowerCase

theorem isCased_toLower (char : Char) : isCased char.toLower = isCased char :=
  of_capitals (motive := fun char lower => isCased lower = isCased char) (fun _ => rfl)
    (by decide +kernel) char

theorem isCaseIgnorable_toLower (char : Char) :
    isCaseIgnorable char.toLower = isCaseIgnorable char :=
  of_capitals (motive := fun char lower => isCaseIgnorable lower = isCaseIgnorable char)
    (fun _ => rfl) (by decide +kernel) char

theorem startsCased_map_toLower (text : List Char) :
    startsCased (text.map Char.toLower) = startsCased text := by
  have ignored : ((fun char => !isCaseIgnorable char) ∘ Char.toLower) =
      fun char => !isCaseIgnorable char :=
    funext fun char => congrArg not (isCaseIgnorable_toLower char)
  unfold startsCased
  rw [List.find?_map, ignored]
  cases text.find? fun char => !isCaseIgnorable char with
  | none => rfl
  | some char => exact isCased_toLower char

theorem lowered_map_toLower (before : List Char) (char : Char) (after : List Char) :
    lowered (before.map Char.toLower) char.toLower (after.map Char.toLower) =
      lowered before char after := by
  have sigma_iff : char.toLower = capitalSigma ↔ char = capitalSigma := toLower_eq_iff (by decide)
  have dotted_iff : char.toLower = 'İ' ↔ char = 'İ' := toLower_eq_iff (by decide)
  simp only [lowered, sigma, sigma_iff, dotted_iff, startsCased_map_toLower, toLower_toNat_lt_iff,
    Char.toLower_toLower_eq_toLower]
  -- Beyond ASCII a character is looked up in the tables, but then it has not been changed.
  by_cases ascii : char.toNat < 0x80
  · simp only [ascii, if_true]
  · simp only [ascii, if_false, toLower_of_le ascii]

theorem lowerFrom_map_toLower (before text : List Char) :
    lowerFrom (before.map Char.toLower) (text.map Char.toLower) = lowerFrom before text := by
  induction text generalizing before with
  | nil => rfl
  | cons char rest ih =>
      rw [List.map_cons, lowerFrom, lowerFrom, lowered_map_toLower, ← ih (char :: before),
        List.map_cons]

end LowerCase

/-! ## Numerals -/

namespace Numeral

theorem splitSign_cons_of_ne (minus : char ≠ '-') (plus : char ≠ '+') (rest : List Char) :
    splitSign (char :: rest) = (false, char :: rest) := by
  unfold splitSign
  split <;> simp_all

theorem splitSign_map_toLower (text : List Char) :
    splitSign (text.map Char.toLower) =
      ((splitSign text).1, (splitSign text).2.map Char.toLower) := by
  cases text with
  | nil => rfl
  | cons char rest =>
      by_cases minus : char = '-'
      · subst minus
        rfl
      by_cases plus : char = '+'
      · subst plus
        rfl
      have lowerMinus : char.toLower ≠ '-' := mt (toLower_eq_iff (by decide)).mp minus
      have lowerPlus : char.toLower ≠ '+' := mt (toLower_eq_iff (by decide)).mp plus
      rw [List.map_cons, splitSign_cons_of_ne lowerMinus lowerPlus, splitSign_cons_of_ne minus plus]
      rfl

theorem map_toLower_of_digits {digits : List Char} (each : ∀ char ∈ digits, char.isDigit = true) :
    digits.map Char.toLower = digits :=
  (List.map_congr_left fun char mem => toLower_of_isDigit (each char mem)).trans (List.map_id _)

theorem isDigit_comp_toLower : Char.isDigit ∘ Char.toLower = Char.isDigit :=
  funext isDigit_toLower

theorem splitDigits_map_toLower (text : List Char) :
    splitDigits (text.map Char.toLower) =
      ((splitDigits text).1, (splitDigits text).2.map Char.toLower) := by
  have digits : (text.takeWhile Char.isDigit).map Char.toLower = text.takeWhile Char.isDigit :=
    map_toLower_of_digits fun _ => List.mem_takeWhile_imp
  unfold splitDigits
  rw [List.takeWhile_map, List.dropWhile_map, isDigit_comp_toLower, digits]

theorem splitFraction_cons_of_ne (point : char ≠ '.') (rest : List Char) :
    splitFraction (char :: rest) = ([], char :: rest) := by
  unfold splitFraction
  split <;> simp_all

theorem splitFraction_map_toLower (text : List Char) :
    splitFraction (text.map Char.toLower) =
      ((splitFraction text).1, (splitFraction text).2.map Char.toLower) := by
  cases text with
  | nil => rfl
  | cons char rest =>
      by_cases point : char = '.'
      · subst point
        exact splitDigits_map_toLower rest
      have lowerPoint : char.toLower ≠ '.' := mt (toLower_eq_iff (by decide)).mp point
      rw [List.map_cons, splitFraction_cons_of_ne lowerPoint, splitFraction_cons_of_ne point]
      rfl

theorem mark_toLower_iff (mark : Char) :
    (mark.toLower = 'e' ∨ mark.toLower = 'E') ↔ (mark = 'e' ∨ mark = 'E') :=
  of_capitals (motive := fun mark lower => (lower = 'e' ∨ lower = 'E') ↔ (mark = 'e' ∨ mark = 'E'))
    (fun _ => Iff.rfl) (by decide) mark

theorem exponent?_map_toLower (text : List Char) :
    exponent? (text.map Char.toLower) = exponent? text := by
  cases text with
  | nil => rfl
  | cons mark rest =>
      simp only [List.map_cons, exponent?, mark_toLower_iff, splitSign_map_toLower, List.all_map,
        isDigit_comp_toLower, ne_eq, List.map_eq_nil_iff]
      by_cases each : (splitSign rest).2.all Char.isDigit
      · rw [map_toLower_of_digits (List.all_eq_true.mp each)]
      · simp [each]

theorem decimal?_map_toLower (text : List Char) :
    decimal? (text.map Char.toLower) = decimal? text := by
  simp only [decimal?, splitDigits_map_toLower, splitFraction_map_toLower, exponent?_map_toLower]

theorem word?_map_toLower (text : List Char) : word? (text.map Char.toLower) = word? text := by
  have again : Char.toLower ∘ Char.toLower = Char.toLower :=
    funext Char.toLower_toLower_eq_toLower
  simp only [word?, List.map_map, again]

theorem read_map_toLower (round : Bool → Decimal → Number) (text : String) :
    read round (String.ofList (text.toList.map Char.toLower)) = read round text := by
  simp only [read, String.toList_ofList, splitSign_map_toLower, word?_map_toLower,
    decimal?_map_toLower]

end Numeral

/-! ## Conditions on texts -/

/-- Whether a text becomes another one when the case of some of its ASCII letters is changed. -/
def Recased (text other : String) : Prop :=
  List.Forall₂
    (fun char changed => changed = char ∨ changed = char.toLower ∨ changed = char.toUpper)
    text.toList other.toList

theorem Recased.map_toLower {text other : String} (recased : Recased text other) :
    other.toList.map Char.toLower = text.toList.map Char.toLower := by
  unfold Recased at recased
  generalize text.toList = before, other.toList = after at recased ⊢
  induction recased with
  | nil => rfl
  | cons changed rest ih =>
      rw [List.map_cons, List.map_cons, ih]
      rcases changed with rfl | rfl | rfl
      · rfl
      · rw [Char.toLower_toLower_eq_toLower]
      · rw [Char.toLower_toUpper_eq_toLower]

theorem Recased.lowerCase_eq {text other : String} (recased : Recased text other) :
    lowerCase other = lowerCase text := by
  unfold lowerCase
  rw [← LowerCase.lowerFrom_map_toLower, recased.map_toLower, LowerCase.lowerFrom_map_toLower]

theorem Recased.parse?_eq {text other : String} (recased : Recased text other) :
    Number.parse? other = Number.parse? text := by
  unfold Number.parse?
  rw [← Numeral.read_map_toLower, recased.map_toLower, Numeral.read_map_toLower]

/-- No operator takes notice of the case of ASCII letters, whatever stands around them. -/
theorem Operator.holds_recased (operator : Operator) {text otherText operand otherOperand : String}
    (texts : Recased text otherText) (operands : Recased operand otherOperand) :
    operator.holds (.text otherText) otherOperand = operator.holds (.text text) operand := by
  simp only [holds, sameUpToCase, containsUpToCase, Property.shown, Property.number?,
    texts.lowerCase_eq, operands.lowerCase_eq, texts.parse?_eq, operands.parse?_eq]

theorem Operator.holds_recased_of_sigma_and_exponent :
    Operator.contains.holds (.text "boΣ") "Oς" = true ∧
      Operator.contains.holds (.text "BOΣ") "oς" = true ∧
      Operator.lessThan.holds (.text "1e3") "INF" = true ∧
      Operator.lessThan.holds (.text "1E3") "iNf" = true := by
  have contains : Operator.contains.holds (.text "boΣ") "Oς" = true := by decide +kernel
  have less : Operator.lessThan.holds (.text "1e3") "INF" = true := by decide +kernel
  have texts : Recased "boΣ" "BOΣ" := by simp [Recased]
  have parts : Recased "Oς" "oς" := by simp [Recased]
  have exponents : Recased "1e3" "1E3" := by simp [Recased]
  have words : Recased "INF" "iNf" := by simp [Recased]
  exact ⟨contains, (holds_recased .contains texts parts).trans contains, less,
    (holds_recased .lessThan exponents words).trans less⟩

end Alerting
