import Alerting.Proofs.Json.Reading

/-!
# Numbers inside texts

The text of a finite number begins with a digit or a minus and goes on with characters that a
scanner takes for parts of a number, whatever the digits are. So a number that is read back when it
stands alone is read back wherever it stands.
-/

namespace Alerting

namespace Notation

open Scanner

/-- Whether a text begins with a digit, and a scanner takes all of it for one number. -/
structure IsFigure (text : List Char) : Prop where
  begins : ∃ first ∈ text.head?, first.isDigit
  each : ∀ char ∈ text, isNumberChar char

variable {text more digits : List Char}

theorem IsFigure.append (figure : IsFigure text) (each : ∀ char ∈ more, isNumberChar char) :
    IsFigure (text ++ more) where
  begins := by
    obtain ⟨first, isFirst, digit⟩ := figure.begins
    exact ⟨first, by simp [Option.mem_def.mp isFirst], digit⟩
  each := List.forall_mem_append.mpr ⟨figure.each, each⟩

theorem isFigure_of_digits (filled : digits ≠ []) (each : ∀ char ∈ digits, char.isDigit) :
    IsFigure digits where
  begins := ⟨_, List.head?_eq_some_head filled, each _ (List.head_mem filled)⟩
  each char mem := isNumberChar_of_isDigit (each char mem)

theorem isNumberChar_of_mem_zeros {count : Nat} {char : Char}
    (mem : char ∈ List.replicate count '0') : isNumberChar char := by
  rw [List.eq_of_mem_replicate mem]
  rfl

theorem isFigure_positional (style : Notation) (filled : digits ≠ [])
    (each : ∀ char ∈ digits, char.isDigit) (point : Int) :
    IsFigure (style.positional digits point) := by
  have figure := isFigure_of_digits filled each
  unfold positional
  split
  · have front : IsFigure ('0' :: '.' :: List.replicate (-point).toNat '0') :=
      ⟨⟨'0', rfl, rfl⟩, by simp [isNumberChar]⟩
    exact front.append figure.each
  · rename_i positive
    dsimp only
    split
    · refine (figure.append fun _ => isNumberChar_of_mem_zeros).append ?_
      split <;> simp [isNumberChar]
    · rename_i inside
      have front : digits.take point.toNat ≠ [] := by
        simp [filled]
        omega
      have whole : IsFigure (digits.take point.toNat) :=
        isFigure_of_digits front fun char mem => each char (List.mem_of_mem_take mem)
      have fraction : ∀ char ∈ '.' :: digits.drop point.toNat, isNumberChar char :=
        List.forall_mem_cons.mpr ⟨rfl, fun char mem =>
          isNumberChar_of_isDigit (each char (List.mem_of_mem_drop mem))⟩
      exact whole.append fraction

theorem isFigure_scientific (filled : digits ≠ []) (each : ∀ char ∈ digits, char.isDigit)
    (exponent : Int) : IsFigure (scientific digits exponent) := by
  have exponentDigits : ∀ char ∈ Nat.toDigits 10 exponent.natAbs, isNumberChar char :=
    fun _ mem => isNumberChar_of_isDigit (Json.Figure.isDigit_of_mem mem)
  have power : ∀ char ∈ 'e' :: (if exponent < 0 then '-' else '+') ::
      Nat.toDigits 10 exponent.natAbs, isNumberChar char := by
    refine List.forall_mem_cons.mpr ⟨rfl, List.forall_mem_cons.mpr ⟨?_, exponentDigits⟩⟩
    split <;> rfl
  obtain ⟨digit, rest, rfl⟩ := List.exists_cons_of_ne_nil filled
  have figure := isFigure_of_digits filled each
  cases rest with
  | nil => exact figure.append power
  | cons next rest =>
      obtain ⟨first, others⟩ := List.forall_mem_cons.mp figure.each
      have mantissa : IsFigure (digit :: '.' :: next :: rest) :=
        ⟨⟨digit, rfl, each digit List.mem_cons_self⟩,
          List.forall_mem_cons.mpr ⟨first, List.forall_mem_cons.mpr ⟨rfl, others⟩⟩⟩
      exact mantissa.append power

theorem isFigure_magnitude (style : Notation) (magnitude : Magnitude) :
    IsFigure (style.magnitude magnitude) := by
  have digits (n : Nat) : ∀ char ∈ Nat.toDigits 10 n, char.isDigit := fun _ =>
    Json.Figure.isDigit_of_mem
  unfold Notation.magnitude
  split
  · split <;> exact ⟨⟨'0', rfl, rfl⟩, by simp [isNumberChar]⟩
  · dsimp only
    split
    · exact isFigure_positional style Nat.toDigits_ne_nil (digits _) _
    · exact isFigure_scientific Nat.toDigits_ne_nil (digits _) _

end Notation

namespace Json

open Scanner

variable {number : Number} {room : Nat}

theorem text_float (finite : number.isFinite) :
    ∃ first rest, (Token.scalar (.float number)).text = first :: rest ∧
      (first = '-' ∨ first.isDigit) ∧ ∀ char ∈ rest, isNumberChar char := by
  obtain - | ⟨negative, magnitude⟩ := number
  · contradiction
  have figure := Notation.isFigure_magnitude numberStyle magnitude
  have written : (Token.scalar (.float (.signed negative magnitude))).text =
      if negative then '-' :: numberStyle.magnitude magnitude
      else numberStyle.magnitude magnitude := if_pos finite
  rw [written]
  cases negative with
  | true => exact ⟨_, _, rfl, .inl rfl, figure.each⟩
  | false =>
      obtain ⟨first, isFirst, digit⟩ := figure.begins
      obtain ⟨rest, spelled⟩ := List.head?_eq_some_iff.mp isFirst
      have each := figure.each
      rw [spelled] at each
      exact ⟨first, rest, spelled, .inr digit, (List.forall_mem_cons.mp each).2⟩

theorem scan?_number {first : Char} {rest : List Char} (begins : first = '-' ∨ first.isDigit)
    (each : ∀ char ∈ rest, isNumberChar char) :
    scan? (first :: rest) = (numberToken? (first :: rest)).map ([·]) := by
  have gathered : (first :: rest).foldlM step start =
      some ⟨.number (rest.reverse ++ [first]), []⟩ := by
    have opens : between [] first = some ⟨.number [first], []⟩ := by
      rcases begins with rfl | digit
      · rfl
      · exact between_digit digit
    change (between [] first).bind (·.scanFrom rest) = _
    rw [opens, Option.bind_some, scanFrom_number each]
  rw [scan?, gathered]
  cases reads : numberToken? (first :: rest) <;> simp [settle, reads]

/-- Whether a number that stands alone is read back from its text. -/
def ReadsBack (number : Number) : Prop :=
  parse? (float number).compact = some (float number)

theorem ReadsBack.isFinite (reads : ReadsBack number) : number.isFinite := by
  by_contra infinite
  have written : (Token.scalar (.float number)).text = (Token.scalar .null).text := by
    obtain - | ⟨negative, magnitude⟩ := number
    · rfl
    · exact if_neg infinite
  have compact : (float number).compact = null.compact := by
    simp [Json.compact, float, null, tokens, Token.compact, written]
  rw [ReadsBack, compact] at reads
  cases reads

theorem ofTokens?_singleton_eq_some_iff {token : Token} {value : Scalar} :
    ofTokens? [token] = some (.scalar value) ↔ token = .scalar value := by
  cases token <;> simp [ofTokens?, Assembly.step, Assembly.begin, Assembly.result?]

theorem readsBack_iff (finite : number.isFinite) :
    ReadsBack number ↔
      numberToken? (Token.scalar (.float number)).text = some (.scalar (.float number)) := by
  obtain ⟨first, rest, written, begins, each⟩ := text_float finite
  have compact : (float number).compact = String.ofList (first :: rest) := by
    simp [Json.compact, float, tokens, Token.compact, written]
  rw [ReadsBack, compact, parse?, String.toList_ofList, scan?_number begins each, written,
    Option.bind_map]
  simp only [Option.bind_eq_some_iff, Function.comp_apply, float, ofTokens?_singleton_eq_some_iff]
  constructor
  · rintro ⟨token, reads, rfl⟩
    exact reads
  · exact fun reads => ⟨_, reads, rfl⟩

instance (number : Number) : Decidable (ReadsBack number) :=
  decidable_of_iff (∃ _ : number.isFinite,
      numberToken? (Token.scalar (.float number)).text = some (.scalar (.float number)))
    ⟨fun ⟨finite, reads⟩ => (readsBack_iff finite).mpr reads,
      fun reads => ⟨reads.isFinite, (readsBack_iff reads.isFinite).mp reads⟩⟩

theorem legible_float (reads : ReadsBack number) : (float number).Legible room := by
  have token := (readsBack_iff reads.isFinite).mp reads
  obtain ⟨first, rest, written, begins, each⟩ := text_float reads.isFinite
  exact .scalar (Token.legible_of_number written rfl begins each token)

end Json

end Alerting
