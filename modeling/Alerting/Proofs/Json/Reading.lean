import Alerting.Json.Tree
import Alerting.Proofs.Json.Scanning

/-!
# Values back from their text

A value whose scalars can be read back, and whose containers do not stand too deep, is read back
from its compact text and from its pretty one.
-/

namespace Alerting

/-! ## Tokens put side by side -/

namespace Token

variable {token : Token} {tokens others : List Token}

theorem Apart.cons (legible : token.Legible) (ends : token.isBare = false) (apart : Apart tokens) :
    Apart (token :: tokens) where
  legible other mem := by
    rcases List.mem_cons.mp mem with rfl | later
    · exact legible
    · exact apart.legible other later
  chain := by
    refine List.isChain_cons.mpr ⟨fun _ _ isBare => ?_, apart.chain⟩
    simp [ends] at isBare

theorem Apart.cons_mark (mark : token.isMark) (apart : Apart tokens) : Apart (token :: tokens) := by
  refine apart.cons (legible_of_isMark mark) ?_
  cases token <;> first | contradiction | rfl

theorem Apart.append (left : Apart tokens) (right : Apart others)
    (ends : ∀ next ∈ others.head?, next.isBare = false) : Apart (tokens ++ others) where
  legible token mem := by
    rcases List.mem_append.mp mem with early | late
    · exact left.legible token early
    · exact right.legible token late
  chain := List.isChain_append.mpr
    ⟨left.chain, right.chain, fun _ _ next mem _ => ends next mem⟩

theorem apart_nil : Apart [] := ⟨by simp, .nil⟩

end Token

namespace Json

/-- Whether a value can be read back from its text, with room for so many containers inside each
other. -/
inductive Legible : Nat → Json → Prop where
  | scalar {room : Nat} {value : Scalar} (legible : (Token.scalar value).Legible) :
      Legible room (.scalar value)
  | array {room : Nat} {items : List Json} (each : ∀ item ∈ items, Legible room item) :
      Legible (room + 1) (.array items)
  | object {room : Nat} {members : List (String × Json)}
      (each : ∀ member ∈ members, Legible room member.2) : Legible (room + 1) (.object members)

open Token

theorem head?_itemTokens (items : List Json) :
    ∀ next ∈ (itemTokens items).head?, next.isBare = false := by
  cases items <;> (rintro _ ⟨⟩; rfl)

theorem head?_memberTokens (members : List (String × Json)) :
    ∀ next ∈ (memberTokens members).head?, next.isBare = false := by
  cases members <;> (rintro _ ⟨⟩; rfl)

theorem apart_itemTokens {items : List Json} (each : ∀ item ∈ items, Apart item.tokens) :
    Apart (itemTokens items) := by
  induction items with
  | nil => exact apart_nil.cons_mark rfl
  | cons item items ih =>
      have rest := ih fun other mem => each other (List.mem_cons_of_mem item mem)
      exact ((each item List.mem_cons_self).append rest (head?_itemTokens items)).cons_mark rfl

theorem apart_memberTokens {members : List (String × Json)}
    (each : ∀ member ∈ members, Apart member.2.tokens) : Apart (memberTokens members) := by
  induction members with
  | nil => exact apart_nil.cons_mark rfl
  | cons member members ih =>
      have rest := ih fun other mem => each other (List.mem_cons_of_mem member mem)
      have value := (each member List.mem_cons_self).append rest (head?_memberTokens members)
      exact ((value.cons_mark rfl).cons (legible_string member.1) rfl).cons_mark rfl

theorem Legible.apart {room : Nat} {json : Json} (legible : json.Legible room) :
    Apart json.tokens := by
  induction legible with
  | scalar legible => exact ⟨by simpa [tokens] using legible, .singleton _⟩
  | array each ih =>
      rename_i items
      cases items with
      | nil => exact (apart_nil.cons_mark rfl).cons_mark rfl
      | cons item items =>
          have rest := apart_itemTokens fun other mem => ih other (List.mem_cons_of_mem item mem)
          exact ((ih item List.mem_cons_self).append rest (head?_itemTokens items)).cons_mark rfl
  | object each ih =>
      rename_i members
      cases members with
      | nil => exact (apart_nil.cons_mark rfl).cons_mark rfl
      | cons member members =>
          have rest := apart_memberTokens fun other mem =>
            ih other (List.mem_cons_of_mem member mem)
          have value := (ih member List.mem_cons_self).append rest (head?_memberTokens members)
          exact ((value.cons_mark rfl).cons (legible_string member.1) rfl).cons_mark rfl

/-! ## Putting tokens together -/

namespace Assembly

variable {around : List Frame}

def assemble (assembly : Assembly) (tokens : List Token) : Option Assembly :=
  tokens.foldlM step assembly

theorem assemble_cons (assembly : Assembly) (token : Token) (tokens : List Token) :
    assembly.assemble (token :: tokens) = (assembly.step token).bind (·.assemble tokens) := rfl

theorem assemble_append (assembly : Assembly) (tokens others : List Token) :
    assembly.assemble (tokens ++ others) = (assembly.assemble tokens).bind (·.assemble others) :=
  List.foldlM_append

/-- Whether a value is put together from its tokens inside given containers. -/
def Assembles (json : Json) (around : List Frame) : Prop :=
  (atValue around).assemble json.tokens = some (.complete json around)

theorem close_of_room (room : around.length < maxDepth) (container : Json) :
    close around container = .complete container around := by
  rw [close, if_pos room]

theorem closeObject_of_named (around : List Frame) (members : List (String × Json)) :
    closeObject around (members.map fun member => (some member.1, member.2)).reverse =
      close around (.object members) := by
  have named : members.mapM (fun member => some (member.1, member.2)) = some members := by
    induction members with
    | nil => rfl
    | cons member members ih => simp [ih]
  unfold closeObject
  simp only [List.reverse_reverse, List.mapM_map, Function.comp_def, Option.map_some, named]

theorem assemble_atArrayStart (json : Json) :
    (atArrayStart around).assemble json.tokens =
      (atValue (.array [] :: around)).assemble json.tokens := by
  have opens : ∃ first rest, json.tokens = first :: rest ∧ first ≠ .arrayEnd := by
    cases json with
    | array items => cases items <;> exact ⟨_, _, rfl, by simp⟩
    | object members => cases members <;> exact ⟨_, _, rfl, by simp⟩
    | _ => exact ⟨_, _, rfl, by simp⟩
  obtain ⟨first, rest, written, other⟩ := opens
  have onward : (atArrayStart around).step first = begin (.array [] :: around) first :=
    if_neg other
  rw [written, assemble_cons, assemble_cons, onward]
  rfl

theorem assemble_itemTokens {items : List Json}
    (each : ∀ item ∈ items, ∀ inside, Assembles item (.array inside :: around)) (value : Json)
    (inside : List Json) :
    (complete value (.array inside :: around)).assemble (itemTokens items) =
      some (closeArray around (items.reverse ++ value :: inside)) := by
  induction items generalizing value inside with
  | nil => rfl
  | cons item items ih =>
      have here := each item List.mem_cons_self (value :: inside)
      have rest := ih (fun other mem => each other (List.mem_cons_of_mem item mem)) item
        (value :: inside)
      have comma : (complete value (.array inside :: around)).step .comma =
          some (atValue (.array (value :: inside) :: around)) := rfl
      rw [itemTokens, List.cons_append, assemble_cons, comma, Option.bind_some, assemble_append,
        here, Option.bind_some, rest]
      simp

theorem assemble_memberTokens {members : List (String × Json)}
    (each : ∀ member ∈ members, ∀ inside name,
      Assembles member.2 (.object inside name :: around)) (value : Json) (inside : Members)
    (name : Option String) :
    (complete value (.object inside name :: around)).assemble (memberTokens members) =
      some (closeObject around
        ((members.map fun member => (some member.1, member.2)).reverse ++
          (name, value) :: inside)) := by
  induction members generalizing value inside name with
  | nil => rfl
  | cons member members ih =>
      have here := each member List.mem_cons_self ((name, value) :: inside) (some member.1)
      have rest := ih (fun other mem => each other (List.mem_cons_of_mem member mem)) member.2
        ((name, value) :: inside) (some member.1)
      have named (more : List Token) : (complete value (.object inside name :: around)).assemble
            (.comma :: .scalar (.string member.1) :: .colon :: more) =
          (atValue (.object ((name, value) :: inside) (some member.1) :: around)).assemble more :=
        rfl
      rw [memberTokens, List.cons_append, List.cons_append, List.cons_append, named,
        assemble_append, here, Option.bind_some, rest]
      simp

theorem assembles {room : Nat} {json : Json} (legible : json.Legible room)
    (fits : room + around.length ≤ maxDepth) : Assembles json around := by
  induction legible generalizing around with
  | scalar => rfl
  | array each ih =>
      rename_i room items
      have each (inside : List Json) : ∀ item ∈ items, Assembles item (.array inside :: around) :=
        fun item mem => ih item mem (by simp; omega)
      have closed := close_of_room (show around.length < maxDepth by omega) (.array items)
      cases items with
      | nil =>
          have read : (atValue around).assemble [.arrayStart, .arrayEnd] =
              some (close around (.array [])) := rfl
          rw [Assembles, tokens, read, closed]
      | cons item items =>
          have opened (more : List Token) : (atValue around).assemble (.arrayStart :: more) =
              (atArrayStart around).assemble more := rfl
          have here := each [] item List.mem_cons_self
          rw [Assembles, tokens, List.cons_append, opened, assemble_append, assemble_atArrayStart,
            here, Option.bind_some, assemble_itemTokens fun other mem inside =>
              each inside other (List.mem_cons_of_mem item mem)]
          simpa [closeArray] using closed
  | object each ih =>
      rename_i room members
      have each (inside : Members) (name : Option String) :
          ∀ member ∈ members, Assembles member.2 (.object inside name :: around) :=
        fun member mem => ih member mem (by simp; omega)
      have closed := close_of_room (show around.length < maxDepth by omega) (.object members)
      cases members with
      | nil =>
          have read : (atValue around).assemble [.objectStart, .objectEnd] =
              some (close around (.object [])) := rfl
          rw [Assembles, tokens, read, closed]
      | cons member members =>
          have named (more : List Token) : (atValue around).assemble
                (.objectStart :: .scalar (.string member.1) :: .colon :: more) =
              (atValue (.object [] (some member.1) :: around)).assemble more := rfl
          have here := each [] (some member.1) member List.mem_cons_self
          have whole := closeObject_of_named around (member :: members)
          rw [closed] at whole
          rw [Assembles, tokens, List.cons_append, List.cons_append, List.cons_append, named,
            assemble_append, here, Option.bind_some,
            assemble_memberTokens fun other mem inside name =>
              each inside name other (List.mem_cons_of_mem member mem)]
          simpa using whole

end Assembly

/-! ## Whole texts -/

variable {room : Nat} {json : Json}

theorem ofTokens?_tokens (legible : json.Legible room) (fits : room ≤ Assembly.maxDepth) :
    ofTokens? json.tokens = some json := by
  have assembled : json.tokens.foldlM Assembly.step (.atValue []) = some (.complete json []) :=
    Assembly.assembles legible fits
  rw [ofTokens?, assembled]
  rfl

theorem parse?_compact (legible : json.Legible room) (fits : room ≤ Assembly.maxDepth) :
    parse? json.compact = some json := by
  rw [parse?, compact, String.toList_ofList, legible.apart.spells_compact.scan?,
    Option.bind_some, ofTokens?_tokens legible fits]

theorem parse?_pretty (legible : json.Legible room) (fits : room ≤ Assembly.maxDepth) :
    parse? json.pretty = some json := by
  rw [parse?, pretty, String.toList_ofList, legible.apart.spells_pretty.scan?,
    Option.bind_some, ofTokens?_tokens legible fits]

end Json

end Alerting
