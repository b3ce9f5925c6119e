import Mathlib.Data.List.Chain
import Mathlib.Data.List.TakeWhile
import Alerting.Json.Scan

/-!
# Scanning what is written

Whatever blanks stand between the texts of tokens, a scanner gives the tokens back. Marks and
strings end by themselves; numbers and words go on for as long as characters can belong to them, so
two of them must not stand side by side.
-/

namespace Alerting

def Token.isBare : Token → Bool
  | .scalar (.string _) => false
  | .scalar _ => true
  | .vastNumber => true
  | _ => false

namespace Scanner

def scanFrom (scanner : Scanner) (text : List Char) : Option Scanner := text.foldlM step scanner

def breaks (char : Char) : Bool := !isNumberChar char && !char.isLower

/-- Whether a scanner stands behind tokens, and goes on from there with the next character; behind a
bare token, if that character cannot belong to it. -/
structure Past (scanner : Scanner) (tokens : List Token) (bare : Bool) : Prop where
  settles : scanner.settle = some tokens
  goesOn : ∀ char, (bare → breaks char) → scanner.step char = between tokens char

end Scanner

open Scanner

/-- Whether a scanner gives a token back for its text, wherever the token begins. -/
def Token.Legible (token : Token) : Prop :=
  ∀ tokens, ∃ scanner, scanFrom ⟨.blank, tokens⟩ token.text = some scanner ∧
    scanner.Past (token :: tokens) token.isBare

namespace Scanner

variable {tokens : List Token} {chars : List Char}

@[simp] theorem scanFrom_nil (scanner : Scanner) : scanner.scanFrom [] = some scanner := rfl

theorem scanFrom_cons (scanner : Scanner) (char : Char) (text : List Char) :
    scanner.scanFrom (char :: text) = (scanner.step char).bind (·.scanFrom text) := rfl

theorem scanFrom_append (scanner : Scanner) (text more : List Char) :
    scanner.scanFrom (text ++ more) = (scanner.scanFrom text).bind (·.scanFrom more) :=
  List.foldlM_append

theorem past_blank (tokens : List Token) : Past ⟨.blank, tokens⟩ tokens false :=
  ⟨rfl, fun _ _ => rfl⟩

theorem breaks_of_isBlank {char : Char} (blank : isBlank char) : breaks char := by
  simp only [isBlank, Bool.or_eq_true, beq_iff_eq] at blank
  rcases blank with ((rfl | rfl) | rfl) | rfl <;> rfl

/-! ## Numbers and words -/

theorem past_number {token : Token} (reads : numberToken? chars.reverse = some token) :
    Past ⟨.number chars, tokens⟩ (token :: tokens) true where
  settles := by simp [settle, reads]
  goesOn char ends := by
    have ends := ends rfl
    simp only [breaks, Bool.and_eq_true, Bool.not_eq_true'] at ends
    simp [step, settle, reads, ends.1]

theorem past_word {scalar : Scalar} (reads : Json.wordScalar? chars.reverse = some scalar) :
    Past ⟨.word chars, tokens⟩ (.scalar scalar :: tokens) true where
  settles := by simp [settle, reads]
  goesOn char ends := by
    have ends := ends rfl
    simp only [breaks, Bool.and_eq_true, Bool.not_eq_true'] at ends
    simp [step, settle, reads, ends.2]

theorem scanFrom_number {text : List Char} (each : ∀ char ∈ text, isNumberChar char) :
    scanFrom ⟨.number chars, tokens⟩ text = some ⟨.number (text.reverse ++ chars), tokens⟩ := by
  induction text generalizing chars with
  | nil => rfl
  | cons char text ih =>
      have here : step ⟨.number chars, tokens⟩ char = some ⟨.number (char :: chars), tokens⟩ := by
        simp [step, each char List.mem_cons_self]
      rw [scanFrom_cons, here, Option.bind_some,
        ih fun other mem => each other (List.mem_cons_of_mem _ mem)]
      simp

theorem between_digit {char : Char} (digit : char.isDigit) :
    between tokens char = some ⟨.number [char], tokens⟩ := by
  have apart (other : Char) (out : other.isDigit = false) : char ≠ other := by
    rintro rfl
    simp [out] at digit
  have filled : isBlank char = false := by
    simp [isBlank, apart ' ' rfl, apart '\t' rfl, apart '\n' rfl, apart '\r' rfl]
  simp [between, filled, apart '"' rfl, digit]

theorem isNumberChar_of_isDigit {char : Char} (digit : char.isDigit) : isNumberChar char := by
  simp [isNumberChar, digit]

/-! ## Strings -/

theorem hexValue?_digitChar {digit : Nat} (bound : digit < 16) :
    hexValue? digit.digitChar = some digit := by
  have all : ∀ digit : Fin 16, hexValue? digit.val.digitChar = some digit.val := by decide
  exact all ⟨digit, bound⟩

section

variable {chars : Option (List Char)} {value digit : Nat} {half : Option Nat} {char : Char}

theorem step_code (reads : hexValue? char = some digit) (missing : Nat) :
    step ⟨.code chars value (missing + 2) half, tokens⟩ char =
      some ⟨.code chars (16 * value + digit) (missing + 1) half, tokens⟩ := by
  simp [step, reads]

theorem step_code_last (reads : hexValue? char = some digit) :
    step ⟨.code chars value 1 half, tokens⟩ char =
      some ⟨afterUnit chars (16 * value + digit) half, tokens⟩ := by
  simp [step, reads]

end

theorem afterUnit_of_control {char : Char} (control : char.toNat < 0x20) :
    afterUnit (some chars) char.toNat none = .quoted (some (char :: chars)) := by
  have : ¬0xD800 ≤ char.toNat := by omega
  have : ¬0xDC00 ≤ char.toNat := by omega
  simp [afterUnit, isHigh, isLow, *]

theorem scanFrom_escape (char : Char) (rest : List Char) :
    scanFrom ⟨.quoted (some chars), tokens⟩ (Json.escape char ++ rest) =
      scanFrom ⟨.quoted (some (char :: chars)), tokens⟩ rest := by
  unfold Json.escape
  split
  case h_8 quote backslash _ _ _ _ _ =>
    have quote : char ≠ '"' := quote
    have backslash : char ≠ '\\' := backslash
    split
    · rename_i control
      have zeros (text : List Char) :
          scanFrom ⟨.quoted (some chars), tokens⟩ ('\\' :: 'u' :: '0' :: '0' :: text) =
            scanFrom ⟨.code (some chars) 0 2 none, tokens⟩ text := rfl
      have high := hexValue?_digitChar (show char.toNat / 16 < 16 by omega)
      have low := hexValue?_digitChar (show char.toNat % 16 < 16 by omega)
      have code : 16 * (16 * 0 + char.toNat / 16) + char.toNat % 16 = char.toNat := by omega
      simp only [List.cons_append, List.nil_append, zeros, scanFrom_cons, step_code high 0,
        step_code_last low, Option.bind_some]
      rw [code, afterUnit_of_control control]
    · rename_i printable
      simp [scanFrom_cons, step, insideQuotes, quote, backslash, printable]
  all_goals rfl

theorem scanFrom_escaped (value : List Char) :
    scanFrom ⟨.quoted (some chars), tokens⟩ (value.flatMap Json.escape) =
      some ⟨.quoted (some (value.reverse ++ chars)), tokens⟩ := by
  induction value generalizing chars with
  | nil => rfl
  | cons char value ih =>
      rw [List.flatMap_cons, scanFrom_escape, ih]
      simp

end Scanner

/-! ## Whole numbers -/

namespace Json.Figure

theorem digitsValue_toDigits (n : Nat) : Numeral.digitsValue (Nat.toDigits 10 n) = n :=
  Nat.ofDigitChars_ten_toDigits

theorem isDigit_of_mem {n : Nat} {char : Char} (mem : char ∈ Nat.toDigits 10 n) : char.isDigit :=
  Nat.isDigit_of_mem_toDigits (by decide) (by decide) mem

theorem splitDigits_toDigits (n : Nat) :
    Numeral.splitDigits (Nat.toDigits 10 n) = (Nat.toDigits 10 n, []) := by
  have each : ∀ char ∈ Nat.toDigits 10 n, char.isDigit := fun _ => isDigit_of_mem
  unfold Numeral.splitDigits
  rw [List.takeWhile_eq_self_iff.mpr each, List.dropWhile_eq_nil_iff.mpr each]

theorem eq_zero_of_head? {n : Nat} (zero : (Nat.toDigits 10 n).head? = some '0') : n = 0 := by
  induction n using Nat.strongRecOn with
  | ind n ih =>
      by_cases small : n < 10
      · rw [Nat.toDigits_of_lt_base small] at zero
        simpa using zero
      · have front : (Nat.toDigits 10 (n / 10)).head? = some '0' := by
          rw [Nat.toDigits_of_base_le (by decide) (by omega), List.head?_append,
            List.head?_eq_some_head Nat.toDigits_ne_nil] at zero
          rw [List.head?_eq_some_head Nat.toDigits_ne_nil]
          simpa using zero
        have := ih (n / 10) (by omega) front
        omega

theorem head?_toDigits (n : Nat) :
    ¬((Nat.toDigits 10 n).head? = some '0' ∧ 1 < (Nat.toDigits 10 n).length) := by
  rintro ⟨zero, long⟩
  rw [eq_zero_of_head? zero] at long
  exact absurd long (by decide)

theorem parse?_toDigits (n : Nat) :
    parse? (Nat.toDigits 10 n) = some ⟨false, Nat.toDigits 10 n, [], 0, true⟩ := by
  unfold parse?
  split
  rename_i _ negative unsigned parts
  have taken : (false, Nat.toDigits 10 n) = (negative, unsigned) := by
    split at parts
    · rename_i signed
      have := isDigit_of_mem (signed ▸ List.mem_cons_self : '-' ∈ Nat.toDigits 10 n)
      contradiction
    · exact parts
  cases taken
  simp [splitDigits_toDigits, head?_toDigits, Numeral.exponent?]

theorem parse?_neg_toDigits (n : Nat) :
    parse? ('-' :: Nat.toDigits 10 n) = some ⟨true, Nat.toDigits 10 n, [], 0, true⟩ := by
  simp [parse?, splitDigits_toDigits, head?_toDigits, Numeral.exponent?]

theorem whole?_toDigits {n : Nat} (bound : n < UInt64.size) :
    whole? ⟨false, Nat.toDigits 10 n, [], 0, true⟩ = some n := by
  unfold whole?
  rw [digitsValue_toDigits]
  exact if_pos bound

theorem whole?_neg_toDigits {n : Nat} (positive : 0 < n)
    (bound : Int64.minValue.toInt ≤ -(n : Int)) :
    whole? ⟨true, Nat.toDigits 10 n, [], 0, true⟩ = some (-n : Int) := by
  have fits : 0 < n ∧ Int64.minValue.toInt ≤ -(n : Int) := ⟨positive, bound⟩
  unfold whole?
  rw [digitsValue_toDigits]
  exact if_pos fits

end Json.Figure

theorem Scanner.numberToken?_int {value : Int} (least : Int64.minValue.toInt ≤ value)
    (most : value < UInt64.size) :
    numberToken? (Scalar.int value).text = some (.scalar (.int value)) := by
  unfold numberToken?
  cases value with
  | ofNat n =>
      have whole := Json.Figure.whole?_toDigits (Int.ofNat_lt.mp most)
      rw [Scalar.text, Json.Figure.parse?_toDigits, Option.map_some, Json.Figure.scalar?, whole]
      rfl
  | negSucc n =>
      have whole := Json.Figure.whole?_neg_toDigits (Nat.succ_pos n) least
      rw [Scalar.text, Json.Figure.parse?_neg_toDigits, Option.map_some, Json.Figure.scalar?, whole]
      rfl

/-! ## Tokens -/

namespace Token

def isMark : Token → Bool
  | .scalar _ | .vastNumber | .brokenString => false
  | _ => true

theorem legible_of_isMark {token : Token} (mark : token.isMark) : token.Legible := by
  intro tokens
  cases token <;> first | contradiction | exact ⟨_, rfl, past_blank _⟩

theorem legible_string (value : String) : Legible (.scalar (.string value)) := by
  intro tokens
  refine ⟨⟨.blank, .scalar (.string value) :: tokens⟩, ?_, past_blank _⟩
  have opens (text : List Char) : scanFrom ⟨.blank, tokens⟩ ('"' :: text) =
      scanFrom ⟨.quoted (some []), tokens⟩ text := rfl
  have closes (chars : List Char) : scanFrom ⟨.quoted (some chars), tokens⟩ ['"'] =
      some ⟨.blank, stringToken (some chars) :: tokens⟩ := rfl
  simp only [text, Scalar.text, List.cons_append, opens, scanFrom_append, scanFrom_escaped,
    Option.bind_some, closes]
  simp [stringToken]

theorem legible_null : Legible (.scalar .null) :=
  fun _ => ⟨_, rfl, past_word rfl⟩

theorem legible_bool (value : Bool) : Legible (.scalar (.bool value)) := by
  intro tokens
  cases value <;> exact ⟨_, rfl, past_word rfl⟩

theorem legible_of_number {token : Token} {first : Char} {rest : List Char}
    (written : token.text = first :: rest) (bare : token.isBare)
    (begins : first = '-' ∨ first.isDigit) (each : ∀ char ∈ rest, isNumberChar char)
    (reads : numberToken? token.text = some token) : token.Legible := by
  intro tokens
  have opens : between tokens first = some ⟨.number [first], tokens⟩ := by
    rcases begins with rfl | digit
    · rfl
    · exact between_digit digit
  have back : (rest.reverse ++ [first]).reverse = token.text := by
    simp [written]
  rw [← back] at reads
  refine ⟨⟨.number (rest.reverse ++ [first]), tokens⟩, ?_, bare ▸ past_number reads⟩
  rw [written, scanFrom_cons]
  change (between tokens first).bind _ = _
  rw [opens, Option.bind_some, scanFrom_number each]

theorem legible_int {value : Int} (least : Int64.minValue.toInt ≤ value)
    (most : value < UInt64.size) :
    Legible (.scalar (.int value)) := by
  have reads := numberToken?_int least most
  have each {n : Nat} {char : Char} (mem : char ∈ Nat.toDigits 10 n) : isNumberChar char :=
    isNumberChar_of_isDigit (Json.Figure.isDigit_of_mem mem)
  cases value with
  | ofNat n =>
      obtain ⟨first, rest, written⟩ :=
        List.exists_cons_of_ne_nil (Nat.toDigits_ne_nil (b := 10) (n := n))
      have begins : first.isDigit := Json.Figure.isDigit_of_mem (written ▸ List.mem_cons_self)
      refine legible_of_number written rfl (.inr begins) ?_ reads
      intro char mem
      exact each (written ▸ List.mem_cons_of_mem first mem)
  | negSucc n =>
      exact legible_of_number rfl rfl (.inl rfl) (fun _ => each) reads

/-! ## Texts of many tokens -/

inductive Spells : List Char → List Token → Prop where
  | nil : Spells [] []
  | blank {char : Char} {text : List Char} {tokens : List Token} (filled : isBlank char)
      (rest : Spells text tokens) : Spells (char :: text) tokens
  | token {token : Token} {text : List Char} {tokens : List Token} (legible : token.Legible)
      (apart : token.isBare → ∀ next ∈ tokens.head?, next.isBare = false)
      (rest : Spells text tokens) : Spells (token.text ++ text) (token :: tokens)

theorem breaks_of_not_bare {token : Token} (ends : token.isBare = false) :
    ∃ first rest, token.text = first :: rest ∧ breaks first := by
  cases token with
  | scalar value => cases value <;> first | contradiction | exact ⟨_, _, rfl, rfl⟩
  | _ => first | contradiction | exact ⟨_, _, rfl, rfl⟩

theorem scanFrom_past {scanner : Scanner} {before : List Token} {bare : Bool} {token : Token}
    (past : scanner.Past before bare) (apart : bare → token.isBare = false)
    (filled : token.text ≠ []) :
    scanner.scanFrom token.text = scanFrom ⟨.blank, before⟩ token.text := by
  obtain ⟨first, rest, written⟩ := List.exists_cons_of_ne_nil filled
  have ends : bare → breaks first := by
    intro isBare
    obtain ⟨_, _, same, ends⟩ := breaks_of_not_bare (apart isBare)
    rw [written] at same
    cases same
    exact ends
  rw [written, scanFrom_cons, past.goesOn first ends]
  rfl

theorem Legible.text_ne_nil {token : Token} (legible : token.Legible) : token.text ≠ [] := by
  intro empty
  obtain ⟨scanner, same, past⟩ := legible []
  rw [empty] at same
  cases same
  cases past.settles

theorem Spells.exists_scanFrom {text : List Char} {tokens : List Token}
    (spells : Spells text tokens) {scanner : Scanner} {before : List Token} {bare : Bool}
    (past : scanner.Past before bare)
    (apart : bare → ∀ next ∈ tokens.head?, next.isBare = false) :
    ∃ last, scanner.scanFrom text = some last ∧ last.settle = some (tokens.reverse ++ before) := by
  induction spells generalizing scanner before bare with
  | nil => exact ⟨scanner, rfl, past.settles⟩
  | blank filled rest ih =>
      rename_i char _ _
      have onward : scanner.step char = some ⟨.blank, before⟩ := by
        rw [past.goesOn char fun _ => breaks_of_isBlank filled, between, if_pos filled]
      rw [scanFrom_cons, onward]
      exact ih (past_blank before) (fun isBare => by contradiction)
  | token legible next rest ih =>
      rename_i token _ tokens
      obtain ⟨between, reads, follows⟩ := legible before
      rw [scanFrom_append, scanFrom_past past (fun isBare => apart isBare token rfl)
        legible.text_ne_nil, reads, Option.bind_some]
      obtain ⟨last, reads, settles⟩ := ih follows next
      exact ⟨last, reads, by simpa using settles⟩

theorem Spells.scan? {text : List Char} {tokens : List Token} (spells : Spells text tokens) :
    Scanner.scan? text = some tokens := by
  obtain ⟨last, reads, settles⟩ := spells.exists_scanFrom (past_blank []) (by simp)
  have reads : text.foldlM step start = some last := reads
  simp [Scanner.scan?, reads, settles]

/-- Whether a scanner can tell each of some tokens from the next one. -/
structure Apart (tokens : List Token) : Prop where
  legible : ∀ token ∈ tokens, token.Legible
  chain : tokens.IsChain fun left right => left.isBare → right.isBare = false

theorem Apart.tail {token : Token} {tokens : List Token} (apart : Apart (token :: tokens)) :
    Apart tokens where
  legible other mem := apart.legible other (List.mem_cons_of_mem token mem)
  chain := (List.isChain_cons.mp apart.chain).2

theorem Apart.spells_cons {token : Token} {tokens : List Token} (apart : Apart (token :: tokens))
    {text : List Char} (rest : Spells text tokens) :
    Spells (token.text ++ text) (token :: tokens) :=
  .token (apart.legible token List.mem_cons_self)
    (fun isBare next mem => (List.isChain_cons.mp apart.chain).1 next mem isBare) rest

theorem Apart.spells_compact {tokens : List Token} (apart : Apart tokens) :
    Spells (compact tokens) tokens := by
  induction tokens with
  | nil => exact .nil
  | cons token tokens ih => exact apart.spells_cons (ih apart.tail)

theorem Spells.append_blanks {blanks text : List Char} {tokens : List Token}
    (filled : ∀ char ∈ blanks, isBlank char) (rest : Spells text tokens) :
    Spells (blanks ++ text) tokens := by
  induction blanks with
  | nil => exact rest
  | cons char blanks ih =>
      exact .blank (filled char List.mem_cons_self)
        (ih fun other mem => filled other (List.mem_cons_of_mem char mem))

theorem isBlank_of_mem_gap {depth : Nat} {left right : Token} {char : Char}
    (mem : char ∈ gap depth left right) : isBlank char := by
  have lines : ∀ char ∈ newLine depth, isBlank char := by
    intro char mem
    rcases List.mem_cons.mp mem with rfl | mem
    · rfl
    · rw [List.eq_of_mem_replicate mem]
      rfl
  unfold gap at mem
  split at mem
  · contradiction
  · split at mem
    · exact lines char mem
    · split at mem
      · rw [List.mem_singleton.mp mem]
        rfl
      · contradiction

theorem Apart.spells_prettyAfter {tokens : List Token} (apart : Apart tokens) (depth : Nat)
    (left : Token) : Spells (prettyAfter depth left tokens) tokens := by
  induction tokens generalizing depth left with
  | nil => exact .nil
  | cons token tokens ih =>
      unfold prettyAfter
      rw [List.append_assoc]
      exact (apart.spells_cons (ih apart.tail _ token)).append_blanks
        fun _ => isBlank_of_mem_gap

theorem Apart.spells_pretty {tokens : List Token} (apart : Apart tokens) :
    Spells (pretty tokens) tokens := by
  cases tokens with
  | nil => exact .nil
  | cons token tokens => exact apart.spells_cons (apart.tail.spells_prettyAfter 0 token)

end Token

end Alerting
