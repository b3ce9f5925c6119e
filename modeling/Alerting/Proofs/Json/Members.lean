import Alerting.Proofs.Json.Reading

/-!
# Objects in pieces

The text of an object is that of its members with commas between them. Each member is read by
itself, whatever stands before it, so members can be taken out, put in and moved about, and the rest
is read as before.
-/

namespace Alerting

namespace Json

namespace Assembly

/-! ## Values inside other containers -/

def within (assembly : Assembly) (base : List Frame) : Assembly :=
  match assembly with
  | atValue around => atValue (around ++ base)
  | atArrayStart around => atArrayStart (around ++ base)
  | atObjectStart around => atObjectStart (around ++ base)
  | atName members around => atName members (around ++ base)
  | atColon members name around => atColon members name (around ++ base)
  | complete value around => complete value (around ++ base)

theorem exists_closeArray (depth : Nat) (items : List Json) : ∃ value, ∀ around : List Frame,
    around.length = depth → closeArray around items = complete value around := by
  refine ⟨if depth < maxDepth then .array items.reverse else .unreadable, ?_⟩
  rintro around rfl
  rfl

theorem exists_closeObject (depth : Nat) (members : Members) : ∃ value, ∀ around : List Frame,
    around.length = depth → closeObject around members = complete value around := by
  unfold closeObject
  generalize (members.reverse.mapM _ : Option (List (String × Json))) = named
  cases named with
  | none => exact ⟨.unreadable, fun _ _ => rfl⟩
  | some members =>
      refine ⟨if depth < maxDepth then .object members else .unreadable, ?_⟩
      rintro around rfl
      rfl

variable {assembly next : Assembly} {base : List Frame} {token : Token} {tokens : List Token}
  {members : Members} {name : Option String} {value final : Json}

theorem begin_within (around base : List Frame) (token : Token) :
    begin (around ++ base) token = (begin around token).map (·.within base) := by
  cases token <;> rfl

theorem exists_begin_within {around : List Frame}
    (begun : begin (around ++ base) token = some next) :
    ∃ inner : Assembly, ∀ other, begin (around ++ other) token = some (inner.within other) := by
  rw [begin_within] at begun
  obtain ⟨inner, begun, -⟩ := Option.map_eq_some_iff.mp begun
  exact ⟨inner, fun other => by rw [begin_within, begun, Option.map_some]⟩

theorem exists_closeArray_within (around base : List Frame) (items : List Json) :
    ∃ inner : Assembly, ∀ other : List Frame, other.length = base.length →
      closeArray (around ++ other) items = inner.within other := by
  obtain ⟨value, closes⟩ := exists_closeArray (around ++ base).length items
  exact ⟨complete value around, fun other same => closes _ (by simp [same])⟩

theorem exists_closeObject_within (around base : List Frame) (members : Members) :
    ∃ inner : Assembly, ∀ other : List Frame, other.length = base.length →
      closeObject (around ++ other) members = inner.within other := by
  obtain ⟨value, closes⟩ := exists_closeObject (around ++ base).length members
  exact ⟨complete value around, fun other same => closes _ (by simp [same])⟩

theorem exists_step_within (unfinished : ∀ value, assembly ≠ complete value [])
    (stepped : (assembly.within base).step token = some next) :
    ∃ inner : Assembly, ∀ other : List Frame, other.length = base.length →
      (assembly.within other).step token = some (inner.within other) := by
  cases assembly with
  | atValue around =>
      obtain ⟨inner, begun⟩ := exists_begin_within stepped
      exact ⟨inner, fun other _ => begun other⟩
  | atArrayStart around =>
      by_cases ends : token = .arrayEnd
      · obtain ⟨inner, closes⟩ := exists_closeArray_within around base []
        exact ⟨inner, fun other same => (if_pos ends).trans (congrArg some (closes other same))⟩
      · have begun : begin ((.array [] :: around) ++ base) token = some next :=
          (if_neg ends).symm.trans stepped
        obtain ⟨inner, begins⟩ := exists_begin_within begun
        exact ⟨inner, fun other _ => (if_neg ends).trans (begins other)⟩
  | atObjectStart around =>
      by_cases ends : token = .objectEnd
      · obtain ⟨inner, closes⟩ := exists_closeObject_within around base []
        exact ⟨inner, fun other same => (if_pos ends).trans (congrArg some (closes other same))⟩
      · obtain ⟨name, named, -⟩ := Option.map_eq_some_iff.mp ((if_neg ends).symm.trans stepped)
        exact ⟨atColon [] name around, fun other _ =>
          (if_neg ends).trans (congrArg (Option.map _) named)⟩
  | atName members around =>
      obtain ⟨name, named, -⟩ := Option.map_eq_some_iff.mp stepped
      exact ⟨atColon members name around, fun other _ => congrArg (Option.map _) named⟩
  | atColon members name around =>
      by_cases colon : token = .colon
      · exact ⟨atValue (.object members name :: around), fun other _ => if_pos colon⟩
      · cases (if_neg colon).symm.trans stepped
  | complete value around =>
      cases around with
      | nil => exact absurd rfl (unfinished value)
      | cons frame around =>
          cases frame with
          | array items =>
              cases token with
              | comma => exact ⟨atValue (.array (value :: items) :: around), fun _ _ => rfl⟩
              | arrayEnd =>
                  obtain ⟨inner, closes⟩ := exists_closeArray_within around base (value :: items)
                  exact ⟨inner, fun other same => congrArg some (closes other same)⟩
              | _ => cases stepped
          | object members name =>
              cases token with
              | comma => exact ⟨atName ((name, value) :: members) around, fun _ _ => rfl⟩
              | objectEnd =>
                  obtain ⟨inner, closes⟩ :=
                    exists_closeObject_within around base ((name, value) :: members)
                  exact ⟨inner, fun other same => congrArg some (closes other same)⟩
              | _ => cases stepped

theorem exists_value_of_assemble (filled : base ≠ [])
    (run : (assembly.within base).assemble tokens = some (complete final [])) :
    ∃ value first rest, tokens = first ++ rest ∧
      (∀ other : List Frame, other.length = base.length →
        (assembly.within other).assemble first = some (complete value other)) ∧
      (complete value base).assemble rest = some (complete final []) := by
  induction tokens generalizing assembly with
  | nil =>
      have same : assembly.within base = complete final [] := Option.some.inj run
      cases assembly with
      | complete value around =>
          have empty : around ++ base = [] := (complete.inj same).2
          exact absurd (List.append_eq_nil_iff.mp empty).2 filled
      | _ => cases same
  | cons token tokens ih =>
      by_cases finished : ∃ value, assembly = complete value []
      · obtain ⟨value, rfl⟩ := finished
        exact ⟨value, [], token :: tokens, rfl, fun _ _ => rfl, run⟩
      · obtain ⟨next, stepped, run⟩ := Option.bind_eq_some_iff.mp run
        obtain ⟨inner, steps⟩ :=
          exists_step_within (fun value same => finished ⟨value, same⟩) stepped
        obtain rfl : next = inner.within base :=
          Option.some.inj (stepped.symm.trans (steps base rfl))
        obtain ⟨value, first, rest, rfl, reads, goesOn⟩ := ih run
        refine ⟨value, token :: first, rest, rfl, fun other same => ?_, goesOn⟩
        rw [assemble_cons, steps other same, Option.bind_some, reads other same]

theorem assemble_complete (run : (complete value []).assemble tokens = some next) :
    tokens = [] ∧ next = complete value [] := by
  cases tokens with
  | nil => exact ⟨rfl, (Option.some.inj run).symm⟩
  | cons token tokens => cases run

end Assembly

/-! ## Tokens of members -/

open Assembly

/-- The tokens of one member of an object, which are read in the same way behind any others. -/
structure MemberTokens where
  tokens : List Token
  name : Option String
  value : Json
  reads : ∀ members, (atName members []).assemble tokens =
    some (complete value [.object members name])

namespace MemberTokens

def entry (member : MemberTokens) : Option String × Json := (member.name, member.value)

def behind : List MemberTokens → List Token
  | [] => [.objectEnd]
  | member :: rest => .comma :: member.tokens ++ behind rest

theorem assemble_behind (before : Members) (member : MemberTokens) (rest : List MemberTokens) :
    (complete member.value [.object before member.name]).assemble (behind rest) =
      some (closeObject [] (((member :: rest).map entry).reverse ++ before)) := by
  induction rest generalizing before member with
  | nil => rfl
  | cons next rest ih =>
      have comma : (complete member.value [.object before member.name]).step .comma =
          some (atName (member.entry :: before) []) := rfl
      rw [behind, List.cons_append, assemble_cons, comma, Option.bind_some, assemble_append,
        next.reads, Option.bind_some, ih]
      simp

theorem assemble_atObjectStart (member : MemberTokens) (more : List Token) :
    (atObjectStart []).assemble (member.tokens ++ more) =
      (atName [] []).assemble (member.tokens ++ more) := by
  have reads := member.reads []
  cases written : member.tokens with
  | nil =>
      rw [written] at reads
      cases reads
  | cons token tokens =>
      rw [written] at reads
      obtain ⟨_, stepped, -⟩ := Option.bind_eq_some_iff.mp reads
      have other : token ≠ .objectEnd := by
        rintro rfl
        cases stepped
      exact congrArg (Option.bind · _) (if_neg other)

theorem assemble_all (before : Members) (first : MemberTokens) (rest : List MemberTokens) :
    (atName before []).assemble (first.tokens ++ behind rest) =
      some (closeObject [] (((first :: rest).map entry).reverse ++ before)) := by
  rw [assemble_append, first.reads, Option.bind_some, assemble_behind]

end MemberTokens

theorem exists_memberTokens {before : Members} {tokens : List Token} {final : Json}
    (run : (atName before []).assemble tokens = some (complete final [])) :
    ∃ (member : MemberTokens) (rest : List Token), tokens = member.tokens ++ rest ∧
      (complete member.value [.object before member.name]).assemble rest =
        some (complete final []) := by
  cases tokens with
  | nil => cases run
  | cons token tokens =>
      obtain ⟨_, stepped, run⟩ := Option.bind_eq_some_iff.mp run
      obtain ⟨name, named, rfl⟩ := Option.map_eq_some_iff.mp stepped
      cases tokens with
      | nil => cases run
      | cons mark tokens =>
          obtain ⟨_, stepped, run⟩ := Option.bind_eq_some_iff.mp run
          by_cases colon : mark = .colon
          · obtain rfl := Option.some.inj ((if_pos colon).symm.trans stepped)
            have run : ((atValue []).within [.object before name]).assemble tokens =
                some (complete final []) := run
            obtain ⟨value, first, rest, rfl, reads, goesOn⟩ :=
              exists_value_of_assemble (List.cons_ne_nil _ _) run
            refine ⟨⟨token :: mark :: first, name, value, fun members => ?_⟩, rest, rfl, goesOn⟩
            have opens : (atName members []).step token = some (atColon members name []) :=
              congrArg (Option.map _) named
            have turns : (atColon members name []).step mark =
                some (atValue [.object members name]) := if_pos colon
            rw [assemble_cons, opens, Option.bind_some, assemble_cons, turns]
            exact reads [.object members name] rfl
          · cases (if_neg colon).symm.trans stepped

open MemberTokens in
theorem exists_behind {before : Members} {member : MemberTokens} {tokens : List Token}
    {final : Json} (run : (complete member.value [.object before member.name]).assemble tokens =
      some (complete final [])) :
    ∃ rest, tokens = behind rest ∧
      closeObject [] (((member :: rest).map entry).reverse ++ before) = complete final [] := by
  induction size : tokens.length using Nat.strongRecOn generalizing before member tokens with
  | ind count ih =>
      cases tokens with
      | nil => cases run
      | cons token tokens =>
          obtain ⟨next, stepped, run⟩ := Option.bind_eq_some_iff.mp run
          cases token with
          | comma =>
              cases stepped
              obtain ⟨second, others, rfl, goesOn⟩ := exists_memberTokens run
              have fewer : others.length < count := by
                rw [← size, List.length_cons, List.length_append]
                omega
              obtain ⟨rest, rfl, closes⟩ := ih others.length fewer goesOn rfl
              exact ⟨second :: rest, rfl, by simpa [entry] using closes⟩
          | objectEnd =>
              obtain ⟨value, closed⟩ := exists_closeObject 0 (member.entry :: before)
              have closes : closeObject [] (member.entry :: before) = complete value [] :=
                closed [] rfl
              have closing : some (closeObject [] (member.entry :: before)) = some next := stepped
              rw [closes] at closing
              cases closing
              obtain ⟨rfl, same⟩ := assemble_complete run
              exact ⟨[], rfl, by simpa [← complete.inj same] using closes⟩
          | _ => cases stepped

/-! ## Whole objects -/

theorem exists_items {items : List Json} {value final : Json} {tokens : List Token}
    (run : (complete value [.array items]).assemble tokens = some (complete final [])) :
    ∃ items, final = .array items := by
  induction size : tokens.length using Nat.strongRecOn generalizing value items tokens with
  | ind count ih =>
      cases tokens with
      | nil => cases run
      | cons token tokens =>
          obtain ⟨next, stepped, run⟩ := Option.bind_eq_some_iff.mp run
          cases token with
          | comma =>
              cases stepped
              have run : ((atValue []).within [.array (value :: items)]).assemble tokens =
                  some (complete final []) := run
              obtain ⟨value, first, rest, rfl, -, goesOn⟩ :=
                exists_value_of_assemble (List.cons_ne_nil _ _) run
              have fewer : rest.length < count := by
                rw [← size, List.length_cons, List.length_append]
                omega
              exact ih rest.length fewer goesOn rfl
          | arrayEnd =>
              cases stepped
              obtain ⟨-, same⟩ := assemble_complete run
              exact ⟨_, (complete.inj same).1⟩
          | _ => cases stepped

theorem exists_items_of_atArrayStart {final : Json} {tokens : List Token}
    (run : (atArrayStart []).assemble tokens = some (complete final [])) :
    ∃ items, final = .array items := by
  cases tokens with
  | nil => cases run
  | cons token tokens =>
      by_cases ends : token = .arrayEnd
      · obtain ⟨_, stepped, run⟩ := Option.bind_eq_some_iff.mp run
        obtain rfl := Option.some.inj ((if_pos ends).symm.trans stepped)
        obtain ⟨-, same⟩ := assemble_complete run
        exact ⟨_, (complete.inj same).1⟩
      · have opens : (atArrayStart []).assemble (token :: tokens) =
            ((atValue []).within [.array []]).assemble (token :: tokens) :=
          congrArg (Option.bind · _) (if_neg ends)
        rw [opens] at run
        obtain ⟨value, first, rest, -, -, goesOn⟩ :=
          exists_value_of_assemble (List.cons_ne_nil _ _) run
        exact exists_items goesOn

theorem eq_map_of_mapM {members : Members} {entries : List (String × Json)}
    (named : members.mapM (fun (name, value) => name.map (·, value)) = some entries) :
    members = entries.map fun entry => (some entry.1, entry.2) := by
  induction members generalizing entries with
  | nil =>
      cases named
      rfl
  | cons member members ih =>
      obtain ⟨name, value⟩ := member
      rw [List.mapM_cons] at named
      obtain ⟨first, here, named⟩ := Option.bind_eq_some_iff.mp named
      obtain ⟨others, rest, same⟩ := Option.bind_eq_some_iff.mp named
      obtain ⟨_, rfl, rfl⟩ := Option.map_eq_some_iff.mp here
      cases same
      rw [ih rest]
      rfl

theorem members_of_closeObject {members : Members} {entries : List (String × Json)}
    (closes : closeObject [] members = complete (.object entries) []) :
    members.reverse = entries.map fun entry => (some entry.1, entry.2) := by
  unfold closeObject at closes
  split at closes
  · rename_i _ named
    have closed : close [] (.object _) = complete (.object entries) [] := closes
    rw [close_of_room (by decide)] at closed
    cases closed
    exact eq_map_of_mapM named
  · cases closes

theorem assemble_of_ofTokens? {tokens : List Token} {json : Json}
    (reads : ofTokens? tokens = some json) :
    (atValue []).assemble tokens = some (complete json []) := by
  obtain ⟨last, run, result⟩ := Option.bind_eq_some_iff.mp reads
  unfold result? at result
  split at result
  · cases result
    exact run
  · cases result

theorem exists_of_atObjectStart {tokens : List Token} {entries : List (String × Json)}
    (run : (atObjectStart []).assemble tokens = some (complete (.object entries) []))
    (filled : entries ≠ []) :
    ∃ (first : MemberTokens) (rest : List MemberTokens),
      tokens = first.tokens ++ MemberTokens.behind rest ∧
      (first :: rest).map MemberTokens.entry = entries.map fun entry => (some entry.1, entry.2) := by
  cases tokens with
  | nil => cases run
  | cons token tokens =>
      by_cases ends : token = .objectEnd
      · obtain ⟨_, stepped, run⟩ := Option.bind_eq_some_iff.mp run
        obtain rfl := Option.some.inj ((if_pos ends).symm.trans stepped)
        obtain ⟨-, same⟩ := assemble_complete run
        cases same
        exact absurd rfl filled
      · have opens : (atObjectStart []).assemble (token :: tokens) =
            (atName [] []).assemble (token :: tokens) :=
          congrArg (Option.bind · _) (if_neg ends)
        rw [opens] at run
        obtain ⟨first, others, same, run⟩ := exists_memberTokens run
        obtain ⟨rest, rfl, closes⟩ := exists_behind run
        have named := members_of_closeObject closes
        rw [List.append_nil, List.reverse_reverse] at named
        exact ⟨first, rest, same, named⟩

theorem exists_of_ofTokens? {tokens : List Token} {entries : List (String × Json)}
    (reads : ofTokens? tokens = some (.object entries)) (filled : entries ≠ []) :
    ∃ (first : MemberTokens) (rest : List MemberTokens),
      tokens = .objectStart :: (first.tokens ++ MemberTokens.behind rest) ∧
      (first :: rest).map MemberTokens.entry = entries.map fun entry => (some entry.1, entry.2) := by
  have run := assemble_of_ofTokens? reads
  cases tokens with
  | nil => cases run
  | cons token tokens =>
      obtain ⟨next, begun, goesOn⟩ := Option.bind_eq_some_iff.mp run
      have run : next.assemble tokens = some (complete (.object entries) []) := goesOn
      cases token with
      | objectStart =>
          cases begun
          obtain ⟨first, rest, rfl, same⟩ := exists_of_atObjectStart run filled
          exact ⟨first, rest, rfl, same⟩
      | arrayStart =>
          cases begun
          obtain ⟨items, same⟩ := exists_items_of_atArrayStart run
          cases same
      | scalar value =>
          cases begun
          cases (assemble_complete run).2
      | vastNumber =>
          cases begun
          cases (assemble_complete run).2
      | brokenString =>
          cases begun
          cases (assemble_complete run).2
      | _ => cases begun

theorem ofTokens?_members {first : MemberTokens} {rest : List MemberTokens}
    {entries : List (String × Json)}
    (same : (first :: rest).map MemberTokens.entry =
      entries.map fun entry => (some entry.1, entry.2)) :
    ofTokens? (.objectStart :: (first.tokens ++ MemberTokens.behind rest)) =
      some (.object entries) := by
  have run : (atValue []).assemble (.objectStart :: (first.tokens ++ MemberTokens.behind rest)) =
      some (complete (.object entries) []) := by
    have begun : (atValue []).step .objectStart = some (atObjectStart []) := rfl
    rw [assemble_cons, begun, Option.bind_some, MemberTokens.assemble_atObjectStart,
      MemberTokens.assemble_all, same, List.append_nil, closeObject_of_named,
      close_of_room (by decide)]
  exact congrArg (Option.bind · result?) run

end Json

end Alerting
