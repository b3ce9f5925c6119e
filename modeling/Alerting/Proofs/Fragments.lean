import Mathlib.Data.List.Infix
import Alerting.Matching

/-!
# Fragments of texts

Texts and operands are lowered apart from each other. A fragment that is cut out of a text is
lowered as it is inside the text exactly if its capital sigmas end words in the fragment where they
end words in the text, and then the text contains it.
-/

namespace Alerting

theorem occursIn_iff {needle text : List Char} :
    occursIn needle text = true ↔ needle <:+: text := by
  induction text with
  | nil => rw [occursIn, List.isEmpty_iff, List.infix_nil]
  | cons char rest ih =>
      rw [occursIn, Bool.or_eq_true, List.isPrefixOf_iff_prefix, ih, List.infix_cons_iff]

theorem forall_split_cons {A : Type} {first mark : A} {rest : List A}
    {motive : List A → List A → Prop} :
    (∀ front back, first :: rest = front ++ mark :: back → motive front back) ↔
      (first = mark → motive [] rest) ∧
        ∀ front back, rest = front ++ mark :: back → motive (first :: front) back := by
  constructor
  · intro all
    refine ⟨?_, fun front back split => all (first :: front) back (congrArg (first :: ·) split)⟩
    rintro rfl
    exact all [] rest rfl
  · rintro ⟨head, tail⟩ (_ | ⟨other, front⟩) back split
    · obtain ⟨here, rfl⟩ := List.cons.inj split
      exact head here
    · obtain ⟨rfl, later⟩ := List.cons.inj split
      exact tail front back later

namespace LowerCase

variable {before text after : List Char} {char : Char}

def lowerBetween (before : List Char) : List Char → List Char → List Char
  | [], _ => []
  | char :: rest, after =>
      lowered before char (rest ++ after) ++ lowerBetween (char :: before) rest after

theorem lowerFrom_append :
    lowerFrom before (text ++ after) =
      lowerBetween before text after ++ lowerFrom (text.reverse ++ before) after := by
  induction text generalizing before with
  | nil => rfl
  | cons char rest ih =>
      rw [List.cons_append, lowerFrom, lowerBetween, ih, List.append_assoc, List.reverse_cons,
        List.append_assoc, List.singleton_append]

/-- Whether the capital sigmas of a fragment, which follows the reverse of `before` and precedes
`after`, end words of the fragment where they end words of the whole text. -/
def SigmasStay (before fragment after : List Char) : Prop :=
  ∀ front back, fragment = front ++ capitalSigma :: back →
    sigma (front.reverse ++ before) (back ++ after) = sigma front.reverse back

theorem lowered_of_ne (other : char ≠ capitalSigma) (before after inside rest : List Char) :
    lowered before char after = lowered inside char rest := by
  rw [lowered, if_neg other, lowered, if_neg other]

theorem lowered_capitalSigma : lowered before capitalSigma after = [sigma before after] :=
  if_pos rfl

theorem lowerBetween_append_eq_iff (before inside rest after : List Char) :
    lowerBetween (inside ++ before) rest after = lowerFrom inside rest ↔
      ∀ front back, rest = front ++ capitalSigma :: back →
        sigma (front.reverse ++ (inside ++ before)) (back ++ after) =
          sigma (front.reverse ++ inside) back := by
  induction rest generalizing inside with
  | nil => exact iff_of_true rfl fun front back split => by simp at split
  | cons char rest ih =>
      have later := ih (char :: inside)
      rw [List.cons_append] at later
      simp only [lowerBetween, lowerFrom, forall_split_cons, List.reverse_cons, List.append_assoc,
        List.singleton_append, List.reverse_nil, List.nil_append, ← later]
      by_cases same : char = capitalSigma
      · simp [same, lowered_capitalSigma]
      · simp [same, lowered_of_ne same (inside ++ before) (rest ++ after) inside rest]

theorem lowerBetween_eq_iff {fragment : List Char} :
    lowerBetween before fragment after = lowerFrom [] fragment ↔
      SigmasStay before fragment after := by
  have whole := lowerBetween_append_eq_iff before [] fragment after
  simpa [SigmasStay] using whole

end LowerCase

open LowerCase

theorem lowerCase_append (front part back : String) :
    lowerCase (front ++ part ++ back) =
      lowerBetween [] front.toList (part.toList ++ back.toList) ++
        lowerBetween front.toList.reverse part.toList back.toList ++
          lowerFrom (part.toList.reverse ++ front.toList.reverse) back.toList := by
  rw [lowerCase, String.toList_append, String.toList_append, List.append_assoc, lowerFrom_append,
    List.append_nil, lowerFrom_append, List.append_assoc]

/-- A fragment cut out of a text, with the same characters in the same case, is contained in the
text if its sigmas stay as they are, whatever else it is made of. -/
theorem Operator.holds_fragment {front part back : String}
    (stay : SigmasStay front.toList.reverse part.toList back.toList) :
    contains.holds (.text (front ++ part ++ back)) part = true ∧
      notContains.holds (.text (front ++ part ++ back)) part = false := by
  have inside : lowerCase part <:+: lowerCase (front ++ part ++ back) := by
    rw [lowerCase_append, lowerBetween_eq_iff.mpr stay]
    exact List.infix_append ..
  have contained : containsUpToCase (front ++ part ++ back) part = true := occursIn_iff.mpr inside
  exact ⟨contained, congrArg not contained⟩

theorem Operator.holds_fragment_of_street :
    SigmasStay "Η ".toList.reverse "ΣΑΣ ΟΔΟΣ".toList "?".toList ∧
      contains.holds (.text ("Η " ++ "ΣΑΣ ΟΔΟΣ" ++ "?")) "ΣΑΣ ΟΔΟΣ" = true ∧
      notContains.holds (.text ("Η " ++ "ΣΑΣ ΟΔΟΣ" ++ "?")) "ΣΑΣ ΟΔΟΣ" = false := by
  have stay : SigmasStay "Η ".toList.reverse "ΣΑΣ ΟΔΟΣ".toList "?".toList :=
    lowerBetween_eq_iff.mp (by decide +kernel)
  exact ⟨stay, holds_fragment stay⟩

/-- The sigma at the end of the fragment is followed by a letter in the text. -/
theorem not_forall_holds_contains :
    ¬ ∀ front part back : String,
      Operator.contains.holds (.text (front ++ part ++ back)) part = true ∧
        Operator.notContains.holds (.text (front ++ part ++ back)) part = false := by
  intro all
  exact absurd (all "" "ΠΡΟΣ" "ΩΠΟ").1 (by decide +kernel)

end Alerting
