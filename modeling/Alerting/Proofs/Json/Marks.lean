import Alerting.Proofs.Json.Scanning

/-!
# Texts in pieces

Outside quotes, a brace, a bracket, a colon or a comma is a token of its own, and nothing before it
has a bearing on what comes after it. So a text falls apart at each of these tokens, and texts with
a mark between them have the tokens of the one, the mark, and the tokens of the other.
-/

namespace Alerting

namespace Scanner

variable {scanner next last : Scanner} {text front back : List Char} {char : Char}
  {token : Token} {tokens before after : List Token}

/-! ## What stands before does not matter -/

def behind (scanner : Scanner) (before : List Token) : Scanner :=
  { scanner with tokens := scanner.tokens ++ before }

theorem settle_behind (scanner : Scanner) (before : List Token) :
    (scanner.behind before).settle = scanner.settle.map (· ++ before) := by
  obtain ⟨scanning, tokens⟩ := scanner
  cases scanning with
  | number chars => cases reads : numberToken? chars.reverse <;> simp [behind, settle, reads]
  | word chars => cases reads : Json.wordScalar? chars.reverse <;> simp [behind, settle, reads]
  | _ => rfl

theorem between_behind (tokens before : List Token) (char : Char) :
    between (tokens ++ before) char = (between tokens char).map (·.behind before) := by
  simp only [between]
  split_ifs
  · rfl
  · rfl
  · rfl
  · rfl
  · rw [Option.map_map]
    rfl

theorem settle_bind_behind (scanner : Scanner) (before : List Token) (char : Char) :
    (scanner.behind before).settle.bind (between · char) =
      (scanner.settle.bind (between · char)).map (·.behind before) := by
  rw [settle_behind]
  cases scanner.settle with
  | none => rfl
  | some tokens => exact between_behind tokens before char

theorem step_behind (scanner : Scanner) (before : List Token) (char : Char) :
    (scanner.behind before).step char = (scanner.step char).map (·.behind before) := by
  obtain ⟨scanning, tokens⟩ := scanner
  cases scanning with
  | blank => exact between_behind tokens before char
  | number chars =>
      have settles := settle_bind_behind ⟨.number chars, tokens⟩ before char
      simp only [behind, step] at settles ⊢
      split
      · rfl
      · exact settles
  | word chars =>
      have settles := settle_bind_behind ⟨.word chars, tokens⟩ before char
      simp only [behind, step] at settles ⊢
      split
      · rfl
      · exact settles
  | quoted chars =>
      simp only [behind, step]
      split
      · rfl
      · cases insideQuotes chars char <;> rfl
  | escape chars =>
      simp only [behind, step]
      cases afterBackslash chars char <;> rfl
  | code chars value missing high =>
      simp only [behind, step]
      cases hexValue? char with
      | none => rfl
      | some digit =>
          simp only [bind, Option.bind]
          split <;> rfl
  | half chars high =>
      simp only [behind, step]
      split
      · rfl
      · split
        · rfl
        · cases insideQuotes none char <;> rfl
  | halfEscape chars high =>
      simp only [behind, step]
      split
      · rfl
      · cases afterBackslash none char <;> rfl

theorem scanFrom_behind (scanner : Scanner) (before : List Token) (text : List Char) :
    (scanner.behind before).scanFrom text = (scanner.scanFrom text).map (·.behind before) := by
  induction text generalizing scanner with
  | nil => rfl
  | cons char text ih =>
      rw [scanFrom_cons, scanFrom_cons, step_behind]
      cases scanner.step char with
      | none => rfl
      | some next => exact ih next

theorem scan?_eq_some_iff :
    scan? text = some tokens ↔
      ∃ last, start.scanFrom text = some last ∧ last.settle = some tokens.reverse := by
  change (start.scanFrom text).bind
    (fun last => last.settle.bind fun found => some found.reverse) = some tokens ↔ _
  simp only [Option.bind_eq_some_iff, Option.some.injEq, List.reverse_eq_iff, exists_eq_right]

/-! ## Marks -/

def isQuoting (scanner : Scanner) : Bool :=
  match scanner.scanning with
  | .blank | .number _ | .word _ => false
  | _ => true

def marks : List (Char × Token) :=
  [(Token.openBrace, .objectStart), (Token.closeBrace, .objectEnd), ('[', .arrayStart),
   (']', .arrayEnd), (':', .colon), (',', .comma)]

theorem mem_marks (mark : markToken? char = some token) : (char, token) ∈ marks := by
  unfold markToken? at mark
  split_ifs at mark <;> (subst_vars; cases mark; decide)

theorem isMark_of_markToken? (mark : markToken? char = some token) : token.isMark := by
  have each : ∀ mark ∈ marks, mark.2.isMark := by
    decide
  exact each (char, token) (mem_marks mark)

theorem text_of_markToken? (mark : markToken? char = some token) : token.text = [char] := by
  have each : ∀ mark ∈ marks, mark.2.text = [mark.1] := by
    decide
  exact each (char, token) (mem_marks mark)

theorem breaks_of_mark (mark : markToken? char = some token) : breaks char := by
  have each : ∀ mark ∈ marks, breaks mark.1 := by
    decide
  exact each (char, token) (mem_marks mark)

theorem not_isBlank_of_mark (mark : markToken? char = some token) : ¬isBlank char := by
  have each : ∀ mark ∈ marks, ¬isBlank mark.1 := by
    decide
  exact each (char, token) (mem_marks mark)

theorem between_mark (mark : markToken? char = some token) (tokens : List Token) :
    between tokens char = some ⟨.blank, token :: tokens⟩ := by
  have each : ∀ mark ∈ marks, between tokens mark.1 = some ⟨.blank, mark.2 :: tokens⟩ := by
    simp only [marks, List.forall_mem_cons]
    exact ⟨rfl, rfl, rfl, rfl, rfl, rfl, nofun⟩
  exact each (char, token) (mem_marks mark)

theorem step_mark (mark : markToken? char = some token) (outside : scanner.isQuoting = false) :
    scanner.step char = scanner.settle.map fun tokens => ⟨.blank, token :: tokens⟩ := by
  have ends := breaks_of_mark mark
  simp only [breaks, Bool.and_eq_true, Bool.not_eq_true'] at ends
  obtain ⟨scanning, tokens⟩ := scanner
  cases scanning with
  | blank => exact between_mark mark tokens
  | number chars =>
      simp only [step, ends.1, Bool.false_eq_true, if_false, between_mark mark]
      exact (Option.map_eq_bind ..).symm
  | word chars =>
      simp only [step, ends.2, Bool.false_eq_true, if_false, between_mark mark]
      exact (Option.map_eq_bind ..).symm
  | _ => contradiction

theorem isQuoting_of_settle (settles : scanner.settle = some tokens) :
    scanner.isQuoting = false := by
  obtain ⟨scanning, _⟩ := scanner
  cases scanning <;> first | rfl | contradiction

theorem scan?_join (mark : markToken? char = some token) (first : scan? front = some before)
    (second : scan? back = some after) :
    scan? (front ++ char :: back) = some (before ++ token :: after) := by
  obtain ⟨middle, reads, settles⟩ := scan?_eq_some_iff.mp first
  obtain ⟨last, goesOn, ends⟩ := scan?_eq_some_iff.mp second
  have onward : middle.step char = some (start.behind (token :: before.reverse)) := by
    rw [step_mark mark (isQuoting_of_settle settles), settles]
    rfl
  rw [scan?_eq_some_iff]
  refine ⟨last.behind (token :: before.reverse), ?_, ?_⟩
  · rw [scanFrom_append, reads, Option.bind_some, scanFrom_cons, onward, Option.bind_some,
      scanFrom_behind, goesOn]
    rfl
  · rw [settle_behind, ends]
    simp

/-! ## What a step adds -/

theorem isMark_stringToken (chars : Option (List Char)) : (stringToken chars).isMark = false := by
  cases chars <;> rfl

theorem isMark_of_numberToken? (reads : numberToken? text = some token) : token.isMark = false := by
  obtain ⟨figure, -, rfl⟩ := Option.map_eq_some_iff.mp reads
  cases figure.scalar? <;> rfl

theorem settle_cases (settles : scanner.settle = some tokens) :
    scanner.scanning = .blank ∧ tokens = scanner.tokens ∨
      ∃ token : Token, token.isMark = false ∧ tokens = token :: scanner.tokens := by
  obtain ⟨scanning, found⟩ := scanner
  cases scanning with
  | blank =>
      cases settles
      exact .inl ⟨rfl, rfl⟩
  | number chars =>
      obtain ⟨token, reads, rfl⟩ := Option.map_eq_some_iff.mp settles
      exact .inr ⟨token, isMark_of_numberToken? reads, rfl⟩
  | word chars =>
      obtain ⟨scalar, -, rfl⟩ := Option.map_eq_some_iff.mp settles
      exact .inr ⟨.scalar scalar, rfl, rfl⟩
  | _ => contradiction

/-- What a step adds to the tokens: nothing, a token that is not a mark, or a mark after everything
is settled. A scanner that is in the midst of something remains so unless it adds something. -/
inductive Adds (scanner next : Scanner) (char : Char) : Prop where
  | nothing (same : next.tokens = scanner.tokens)
      (still : next.scanning = .blank → scanner.scanning = .blank)
  | plain {token : Token} (plain : token.isMark = false)
      (found : next.tokens = token :: scanner.tokens)
  | mark {token : Token} {tokens : List Token} (settles : scanner.settle = some tokens)
      (mark : markToken? char = some token) (found : next = ⟨.blank, token :: tokens⟩)

theorem between_cases (stepped : between tokens char = some next) :
    next.tokens = tokens ∨
      ∃ token, markToken? char = some token ∧ next = ⟨.blank, token :: tokens⟩ := by
  unfold between at stepped
  split_ifs at stepped
  · cases stepped
    exact .inl rfl
  · cases stepped
    exact .inl rfl
  · cases stepped
    exact .inl rfl
  · cases stepped
    exact .inl rfl
  · obtain ⟨token, mark, rfl⟩ := Option.map_eq_some_iff.mp stepped
    exact .inr ⟨token, mark, rfl⟩

theorem adds_of_settle_bind (busy : scanner.scanning ≠ .blank)
    (stepped : scanner.settle.bind (between · char) = some next) : Adds scanner next char := by
  obtain ⟨tokens, settles, stepped⟩ := Option.bind_eq_some_iff.mp stepped
  rcases between_cases stepped with same | ⟨token, mark, found⟩
  · rcases settle_cases settles with ⟨idle, -⟩ | ⟨token, plain, rfl⟩
    · exact absurd idle busy
    · exact .plain plain same
  · exact .mark settles mark found

theorem insideQuotes_ne_blank {chars : Option (List Char)} {scanning : Scanning}
    (goesOn : insideQuotes chars char = some scanning) : scanning ≠ .blank := by
  unfold insideQuotes at goesOn
  split_ifs at goesOn <;> cases goesOn <;> simp

theorem afterBackslash_ne_blank {chars : Option (List Char)} {scanning : Scanning}
    (goesOn : afterBackslash chars char = some scanning) : scanning ≠ .blank := by
  unfold afterBackslash at goesOn
  split_ifs at goesOn
  · cases goesOn
    simp
  · obtain ⟨plain, -, rfl⟩ := Option.map_eq_some_iff.mp goesOn
    simp

theorem afterUnit_ne_blank (chars : Option (List Char)) (unit : Nat) (high : Option Nat) :
    afterUnit chars unit high ≠ .blank := by
  unfold afterUnit
  split
  · simp
  · split_ifs <;> simp
  · split_ifs <;> simp

theorem adds_of_ne_blank {scanning : Scanning} (found : next = ⟨scanning, scanner.tokens⟩)
    (busy : scanning ≠ .blank) : Adds scanner next char := by
  subst found
  exact .nothing rfl fun idle => absurd idle busy

theorem adds_of_insideQuotes {chars : Option (List Char)}
    (stepped : (if char = '"' then some ⟨.blank, stringToken chars :: scanner.tokens⟩
      else (insideQuotes chars char).map (⟨·, scanner.tokens⟩)) = some next) :
    Adds scanner next char := by
  split_ifs at stepped
  · cases stepped
    exact .plain (isMark_stringToken chars) rfl
  · obtain ⟨scanning, goesOn, rfl⟩ := Option.map_eq_some_iff.mp stepped
    exact adds_of_ne_blank rfl (insideQuotes_ne_blank goesOn)

theorem adds_of_afterBackslash {chars : Option (List Char)}
    (stepped : (afterBackslash chars char).map (⟨·, scanner.tokens⟩) = some next) :
    Adds scanner next char := by
  obtain ⟨scanning, goesOn, rfl⟩ := Option.map_eq_some_iff.mp stepped
  exact adds_of_ne_blank rfl (afterBackslash_ne_blank goesOn)

theorem adds_of_step (stepped : scanner.step char = some next) : Adds scanner next char := by
  obtain ⟨scanning, tokens⟩ := scanner
  cases scanning with
  | blank =>
      rcases between_cases stepped with same | ⟨token, mark, found⟩
      · exact .nothing same fun _ => rfl
      · exact .mark rfl mark found
  | number chars =>
      simp only [step] at stepped
      split_ifs at stepped
      · cases stepped
        exact adds_of_ne_blank rfl (by simp)
      · exact adds_of_settle_bind (by simp) stepped
  | word chars =>
      simp only [step] at stepped
      split_ifs at stepped
      · cases stepped
        exact adds_of_ne_blank rfl (by simp)
      · exact adds_of_settle_bind (by simp) stepped
  | quoted chars => exact adds_of_insideQuotes stepped
  | escape chars => exact adds_of_afterBackslash stepped
  | code chars value missing high =>
      obtain ⟨digit, -, stepped⟩ := Option.bind_eq_some_iff.mp stepped
      split_ifs at stepped
      · cases stepped
        exact adds_of_ne_blank rfl (afterUnit_ne_blank _ _ _)
      · cases stepped
        exact adds_of_ne_blank rfl (by simp)
  | half chars high =>
      simp only [step] at stepped
      split at stepped
      · cases stepped
        exact adds_of_ne_blank rfl (by simp)
      · exact adds_of_insideQuotes stepped
  | halfEscape chars high =>
      simp only [step] at stepped
      split_ifs at stepped
      · cases stepped
        exact adds_of_ne_blank rfl (by simp)
      · exact adds_of_afterBackslash stepped

/-! ## Texts fall apart at marks -/

theorem suffix_of_settle (settles : scanner.settle = some tokens) : scanner.tokens <:+ tokens := by
  rcases settle_cases settles with ⟨-, rfl⟩ | ⟨token, -, rfl⟩
  · exact List.suffix_refl _
  · exact List.suffix_cons _ _

theorem suffix_of_step (stepped : scanner.step char = some next) :
    scanner.tokens <:+ next.tokens := by
  cases adds_of_step stepped with
  | nothing same still => exact same ▸ List.suffix_refl _
  | plain plain found =>
      rw [found]
      exact List.suffix_cons _ _
  | mark settles mark found =>
      rw [found]
      exact (suffix_of_settle settles).trans (List.suffix_cons _ _)

theorem suffix_of_scanFrom (reads : scanner.scanFrom text = some last)
    (settles : last.settle = some tokens) : scanner.tokens <:+ tokens := by
  induction text generalizing scanner with
  | nil =>
      cases reads
      exact suffix_of_settle settles
  | cons char text ih =>
      obtain ⟨next, stepped, reads⟩ := Option.bind_eq_some_iff.mp reads
      exact (suffix_of_step stepped).trans (ih reads)

theorem cons_eq_of_suffix {other : Token} {rest : List Token}
    (suffix : other :: rest <:+ after ++ token :: before) (same : rest.length = before.length) :
    other = token ∧ rest = before := by
  have tail : token :: before <:+ after ++ token :: before := List.suffix_append _ _
  have within := List.suffix_of_suffix_length_le suffix tail (by simp [same])
  exact List.cons.inj (within.eq_of_length (by simp [same]))

theorem not_suffix_of_plain {other : Token} {rest : List Token} (isMark : token.isMark)
    (plain : other.isMark = false) (same : rest.length = before.length) :
    ¬other :: rest <:+ after ++ token :: before := by
  intro suffix
  obtain ⟨rfl, -⟩ := cons_eq_of_suffix suffix same
  simp [plain] at isMark

theorem exists_mark_of_scanFrom (isMark : token.isMark)
    (reads : scanner.scanFrom text = some last)
    (settles : last.settle = some (after ++ token :: before))
    (behind : scanner.tokens.length ≤ before.length) :
    ∃ front char back middle, text = front ++ char :: back ∧ markToken? char = some token ∧
      scanner.scanFrom front = some middle ∧ middle.settle = some before ∧
      scanFrom ⟨.blank, token :: before⟩ back = some last := by
  induction text generalizing scanner with
  | nil =>
      cases reads
      rcases settle_cases settles with ⟨-, same⟩ | ⟨other, plain, same⟩
      · have := congrArg List.length same
        simp only [List.length_append, List.length_cons] at this
        omega
      · have := congrArg List.length same
        simp only [List.length_append, List.length_cons] at this
        have suffix : other :: last.tokens <:+ after ++ token :: before :=
          same ▸ List.suffix_refl _
        exact absurd suffix (not_suffix_of_plain isMark plain (by omega))
  | cons char text ih =>
      obtain ⟨next, stepped, reads⟩ := Option.bind_eq_some_iff.mp reads
      by_cases still : next.tokens.length ≤ before.length
      · obtain ⟨front, mark, back, middle, rfl, isMark, first, rest⟩ := ih reads still
        refine ⟨char :: front, mark, back, middle, rfl, isMark, ?_, rest⟩
        rw [scanFrom_cons, stepped]
        exact first
      -- The step goes past the place of the mark, so it is the step that adds it.
      · have suffix := suffix_of_scanFrom reads settles
        cases adds_of_step stepped with
        | nothing same _ => exact absurd (same ▸ behind) still
        | plain plain found =>
            rw [found] at suffix still
            rw [List.length_cons] at still
            exact absurd suffix (not_suffix_of_plain isMark plain (by omega))
        | @mark other tokens settled mark found =>
            subst found
            rw [List.length_cons] at still
            by_cases here : tokens.length = before.length
            · obtain ⟨rfl, rfl⟩ := cons_eq_of_suffix suffix here
              exact ⟨[], char, text, scanner, rfl, mark, rfl, settled, reads⟩
            · rcases settle_cases settled with ⟨-, rfl⟩ | ⟨early, plain, rfl⟩
              · omega
              · rw [List.length_cons] at still here
                have suffix := (List.suffix_cons other _).trans suffix
                exact absurd suffix (not_suffix_of_plain isMark plain (by omega))

theorem exists_of_scan?_append (isMark : token.isMark)
    (scans : scan? text = some (before ++ token :: after)) :
    ∃ front char back, text = front ++ char :: back ∧ markToken? char = some token ∧
      scan? front = some before ∧ scan? back = some after := by
  obtain ⟨last, reads, settles⟩ := scan?_eq_some_iff.mp scans
  rw [List.reverse_append, List.reverse_cons, List.append_assoc, List.singleton_append] at settles
  obtain ⟨front, char, back, middle, rfl, mark, first, settled, second⟩ :=
    exists_mark_of_scanFrom isMark reads settles (Nat.zero_le _)
  refine ⟨front, char, back, rfl, mark, scan?_eq_some_iff.mpr ⟨middle, first, settled⟩, ?_⟩
  -- What follows the mark is read in the same way at the beginning of a text.
  have behind := scanFrom_behind start (token :: before.reverse) back
  change scanFrom ⟨.blank, token :: before.reverse⟩ back = _ at behind
  rw [second] at behind
  obtain ⟨alone, reads, same⟩ := Option.map_eq_some_iff.mp behind.symm
  refine scan?_eq_some_iff.mpr ⟨alone, reads, ?_⟩
  rw [← same, settle_behind] at settles
  obtain ⟨found, settled, same⟩ := Option.map_eq_some_iff.mp settles
  rw [settled, List.append_cancel_right same]

/-! ## Blanks -/

theorem ne_nil_of_busy (busy : scanner.scanning ≠ .blank)
    (reads : scanner.scanFrom text = some last) (settles : last.settle = some tokens) :
    tokens ≠ [] := by
  induction text generalizing scanner with
  | nil =>
      cases reads
      rcases settle_cases settles with ⟨idle, -⟩ | ⟨token, -, rfl⟩
      · exact absurd idle busy
      · simp
  | cons char text ih =>
      obtain ⟨next, stepped, reads⟩ := Option.bind_eq_some_iff.mp reads
      have suffix := suffix_of_scanFrom reads settles
      cases adds_of_step stepped with
      | nothing same still => exact ih (mt still busy) reads
      | plain plain found =>
          rintro rfl
          simp [found] at suffix
      | mark settled mark found =>
          rintro rfl
          simp [found] at suffix

theorem scan?_eq_nil_iff : scan? text = some [] ↔ ∀ char ∈ text, isBlank char := by
  constructor
  · intro scans
    obtain ⟨last, reads, settles⟩ := scan?_eq_some_iff.mp scans
    induction text with
    | nil => simp
    | cons char text ih =>
        obtain ⟨next, stepped, reads⟩ := Option.bind_eq_some_iff.mp reads
        have stepped : between [] char = some next := stepped
        unfold between at stepped
        split_ifs at stepped with blank
        · cases stepped
          exact List.forall_mem_cons.mpr
            ⟨blank, ih (scan?_eq_some_iff.mpr ⟨last, reads, settles⟩) reads⟩
        · cases stepped
          exact absurd rfl (ne_nil_of_busy (by simp) reads settles)
        · cases stepped
          exact absurd rfl (ne_nil_of_busy (by simp) reads settles)
        · cases stepped
          exact absurd rfl (ne_nil_of_busy (by simp) reads settles)
        · obtain ⟨mark, -, rfl⟩ := Option.map_eq_some_iff.mp stepped
          have suffix := suffix_of_scanFrom reads settles
          simp at suffix
  · intro blank
    have spells := Token.Spells.append_blanks blank .nil
    rw [List.append_nil] at spells
    exact spells.scan?

end Scanner

end Alerting
