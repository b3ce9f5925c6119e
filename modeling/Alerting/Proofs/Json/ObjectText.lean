import Alerting.Proofs.Entries
import Alerting.Proofs.Json.Marks
import Alerting.Proofs.Json.Members

/-!
# Texts of objects

A text of an object can be taken apart into the texts of its members, blanks and escapes included,
and any texts of members can be put together again.
-/

namespace Alerting

namespace Json

open Scanner

/-- A text that has one member of an object, with blanks around its parts or without. -/
structure MemberText where
  text : String
  name : String
  value : Json
  reads : parse? ("\x7b" ++ text ++ "\x7d") = some (.object [(name, value)])

namespace MemberText

def entry (member : MemberText) : String × Json := (member.name, member.value)

end MemberText

def objectText (members : List MemberText) : String :=
  "\x7b" ++ ",".intercalate (members.map MemberText.text) ++ "\x7d"

def Writes (members : List MemberText) (text : String) : Prop :=
  ∃ lead trail, (∀ char ∈ lead.toList, isBlank char) ∧ (∀ char ∈ trail.toList, isBlank char) ∧
    text = lead ++ objectText members ++ trail

theorem writes_objectText (members : List MemberText) : Writes members (objectText members) :=
  ⟨"", "", by simp, by simp, by simp⟩

/-! ## Marks and blanks -/

theorem mark_openBrace : markToken? Token.openBrace = some .objectStart := rfl

theorem mark_closeBrace : markToken? Token.closeBrace = some .objectEnd := rfl

theorem mark_comma : markToken? ',' = some .comma := rfl

theorem scan?_nil : scan? [] = some [] := rfl

section

variable {char : Char} {token : Token} {text : List Char} {before after tokens : List Token}

theorem exists_of_mark (mark : markToken? char = some token)
    (scans : scan? text = some (before ++ token :: after)) :
    ∃ front back, text = front ++ char :: back ∧ scan? front = some before ∧
      scan? back = some after := by
  obtain ⟨front, other, back, parts, found, first, second⟩ :=
    exists_of_scan?_append (isMark_of_markToken? mark) scans
  have same : [char] = [other] := (text_of_markToken? mark).symm.trans (text_of_markToken? found)
  rw [List.singleton_inj.mp same]
  exact ⟨front, back, parts, first, second⟩

theorem scan?_of_cons (mark : markToken? char = some token)
    (scans : scan? (char :: text) = some (token :: tokens)) : scan? text = some tokens := by
  have parted : scan? (char :: text) = some ([] ++ token :: tokens) := scans
  obtain ⟨front, back, same, first, second⟩ := exists_of_mark mark parted
  cases front with
  | nil =>
      cases same
      exact second
  | cons lead front =>
      cases same
      exact absurd (scan?_eq_nil_iff.mp first char List.mem_cons_self) (not_isBlank_of_mark mark)

theorem scan?_of_concat (mark : markToken? char = some token)
    (scans : scan? (text ++ [char]) = some (tokens ++ [token])) : scan? text = some tokens := by
  obtain ⟨front, back, same, first, second⟩ := exists_of_mark mark scans
  rcases concat_eq_append_cons_iff.mp same with ⟨rfl, -, -⟩ | ⟨between, rfl, -⟩
  · exact first
  · exact absurd (scan?_eq_nil_iff.mp second char List.mem_concat_self) (not_isBlank_of_mark mark)

end

theorem toList_braces (text : String) :
    ("\x7b" ++ text ++ "\x7d").toList =
      Token.openBrace :: (text.toList ++ [Token.closeBrace]) := by
  rw [String.toList_append, String.toList_append]
  rfl

/-! ## Members by themselves -/

namespace MemberText

def ofTokens (member : MemberTokens) (entry : String × Json)
    (same : member.entry = (some entry.1, entry.2)) (text : List Char)
    (scans : scan? text = some member.tokens) : MemberText where
  text := String.ofList text
  name := entry.1
  value := entry.2
  reads := by
    have closed := scan?_join mark_closeBrace scans scan?_nil
    have whole := scan?_join mark_openBrace scan?_nil closed
    rw [parse?, toList_braces, String.toList_ofList]
    have alone : [member].map MemberTokens.entry =
        [entry].map fun entry => (some entry.1, entry.2) := congrArg ([·]) same
    exact (congrArg (Option.bind · ofTokens?) whole).trans (ofTokens?_members alone)

theorem exists_tokens (member : MemberText) :
    ∃ tokens : MemberTokens, scan? member.text.toList = some tokens.tokens ∧
      tokens.entry = (some member.name, member.value) := by
  obtain ⟨tokens, scans, reads⟩ := Option.bind_eq_some_iff.mp member.reads
  rw [toList_braces] at scans
  obtain ⟨first, rest, rfl, same⟩ := exists_of_ofTokens? reads (List.cons_ne_nil _ _)
  obtain ⟨entry, others⟩ := List.cons.inj same
  cases List.map_eq_nil_iff.mp others
  have closed := scan?_of_cons mark_openBrace scans
  exact ⟨first, scan?_of_concat mark_closeBrace closed, entry⟩

end MemberText

/-! ## Objects -/

section

variable {text : String} {members : List MemberText}

theorem toList_intercalate_cons (first second : MemberText) (rest : List MemberText) :
    (",".intercalate ((first :: second :: rest).map MemberText.text)).toList =
      first.text.toList ++ ',' ::
        (",".intercalate ((second :: rest).map MemberText.text)).toList := by
  simp [String.intercalate_cons_cons]

theorem exists_tokens_of_texts (first : MemberText) (rest : List MemberText) {trail : List Char}
    (blank : ∀ char ∈ trail, isBlank char) :
    ∃ (head : MemberTokens) (tail : List MemberTokens),
      scan? ((",".intercalate ((first :: rest).map MemberText.text)).toList ++
        Token.closeBrace :: trail) = some (head.tokens ++ MemberTokens.behind tail) ∧
      (head :: tail).map MemberTokens.entry =
        ((first :: rest).map MemberText.entry).map fun entry => (some entry.1, entry.2) := by
  induction rest generalizing first with
  | nil =>
      obtain ⟨head, scans, same⟩ := first.exists_tokens
      refine ⟨head, [], ?_, congrArg ([·]) same⟩
      rw [List.map_singleton, String.intercalate_singleton]
      exact scan?_join mark_closeBrace scans (scan?_eq_nil_iff.mpr blank)
  | cons second rest ih =>
      obtain ⟨head, scans, same⟩ := first.exists_tokens
      obtain ⟨next, tail, goesOn, others⟩ := ih second
      refine ⟨head, next :: tail, ?_, congrArg₂ List.cons same others⟩
      rw [toList_intercalate_cons, List.append_assoc]
      exact scan?_join mark_comma scans goesOn

theorem exists_texts_of_tokens (head : MemberTokens) (tail : List MemberTokens)
    {entries : List (String × Json)} {text : List Char}
    (same : (head :: tail).map MemberTokens.entry =
      entries.map fun entry => (some entry.1, entry.2))
    (scans : scan? text = some (head.tokens ++ MemberTokens.behind tail)) :
    ∃ (first : MemberText) (rest : List MemberText) (trail : List Char),
      (∀ char ∈ trail, isBlank char) ∧ (first :: rest).map MemberText.entry = entries ∧
      text = (",".intercalate ((first :: rest).map MemberText.text)).toList ++
        Token.closeBrace :: trail := by
  induction tail generalizing head entries text with
  | nil =>
      obtain ⟨entry, entries, rfl, named, others⟩ := List.map_eq_cons_iff.mp same.symm
      cases List.map_eq_nil_iff.mp others
      obtain ⟨front, back, rfl, first, blank⟩ := exists_of_mark mark_closeBrace scans
      refine ⟨.ofTokens head entry named.symm front first, [], back,
        scan?_eq_nil_iff.mp blank, rfl, ?_⟩
      simp [MemberText.ofTokens]
  | cons next tail ih =>
      obtain ⟨entry, entries, rfl, named, others⟩ := List.map_eq_cons_iff.mp same.symm
      obtain ⟨front, back, rfl, first, goesOn⟩ := exists_of_mark mark_comma scans
      obtain ⟨second, rest, trail, blank, found, rfl⟩ := ih next others.symm goesOn
      refine ⟨.ofTokens head entry named.symm front first, second :: rest, trail, blank,
        congrArg (entry :: ·) found, ?_⟩
      simp [MemberText.ofTokens]

theorem parse?_of_writes (writes : Writes members text) :
    parse? text = some (.object (members.map MemberText.entry)) := by
  obtain ⟨lead, trail, blank, after, rfl⟩ := writes
  have whole : (lead ++ objectText members ++ trail).toList = lead.toList ++ Token.openBrace ::
      ((",".intercalate (members.map MemberText.text)).toList ++
        Token.closeBrace :: trail.toList) := by
    simp [objectText, Token.openBrace, Token.closeBrace]
  have blank := scan?_eq_nil_iff.mpr blank
  rw [parse?, whole]
  cases members with
  | nil =>
      have closed := scan?_join mark_closeBrace scan?_nil (scan?_eq_nil_iff.mpr after)
      exact congrArg (Option.bind · ofTokens?) (scan?_join mark_openBrace blank closed)
  | cons first rest =>
      obtain ⟨head, tail, scans, same⟩ := exists_tokens_of_texts first rest after
      rw [scan?_join mark_openBrace blank scans]
      exact ofTokens?_members same

theorem exists_writes {entries : List (String × Json)} (filled : entries ≠ [])
    (reads : parse? text = some (.object entries)) :
    ∃ members, Writes members text ∧ members.map MemberText.entry = entries := by
  obtain ⟨tokens, scans, reads⟩ := Option.bind_eq_some_iff.mp reads
  obtain ⟨head, tail, rfl, same⟩ := exists_of_ofTokens? reads filled
  have opened : scan? text.toList =
      some ([] ++ .objectStart :: (head.tokens ++ MemberTokens.behind tail)) := scans
  obtain ⟨lead, back, whole, blank, goesOn⟩ := exists_of_mark mark_openBrace opened
  obtain ⟨first, rest, trail, after, found, rfl⟩ := exists_texts_of_tokens head tail same goesOn
  refine ⟨first :: rest, ⟨String.ofList lead, String.ofList trail, ?_, ?_, ?_⟩, found⟩
  · simpa using scan?_eq_nil_iff.mp blank
  · simpa using after
  · apply String.toList_inj.mp
    simpa [objectText, Token.openBrace, Token.closeBrace] using whole

end

end Json

end Alerting
