import Mathlib.Data.Option.Basic
import Mathlib.Logic.Relation
import Alerting.Proofs.Json.ObjectText
import Alerting.Proofs.RulesFile

/-!
# The fields that a rule knows

A rule is read from the fields that a rule with its kind of trigger has, each of which may be given
once. The order of the members does not matter, nor do members with other names, and a field that
may be left out is as good as one that has its default.
-/

namespace Alerting

namespace Rule

def defaultFields : List (String × Json) :=
  [("id", .nat 0), ("description", .string ""), ("built_in", .bool false),
   ("cooldown_secs", .int 0), ("conditions", .array []), ("actions", .array [])]

def fieldsOf (kind : TriggerKind) : List String :=
  ["name", "enabled", "object_type", "trigger_type", kind.nameField] ++
    defaultFields.map Prod.fst

/-- A change to the members of an object that does not matter to a rule with some kind of
trigger. -/
inductive Varies (kind : TriggerKind) : List (String × Json) → List (String × Json) → Prop where
  | reordered {members others : List (String × Json)} (perm : members.Perm others) :
      Varies kind members others
  /-- One more member that is not a field, perhaps the name field of the other kind, with any value
  that can be read where it stands. -/
  | enlarged {members : List (String × Json)} {member : String × Json}
      (unknown : member.1 ∉ fieldsOf kind) (readable : member.2.isReadable) :
      Varies kind members (member :: members)
  | spelledOut {members : List (String × Json)} {field : String × Json}
      (default : field ∈ defaultFields) (missing : field.1 ∉ members.map Prod.fst) :
      Varies kind members (field :: members)
  | leftOut {members : List (String × Json)} {field : String × Json}
      (default : field ∈ defaultFields) : Varies kind (field :: members) members

def filled? (members : List (String × Json)) (name : String) : Option (Option Json) :=
  (Json.member? members name).map (·.or (defaultFields.lookup name))

def areReadable (members : List (String × Json)) : Bool :=
  members.all fun (name, value) => listFields.contains name || value.isReadable

section

variable {members others : List (String × Json)} {name : String} {value : Json} {rule : Rule}
  {A B : Type}

/-! ## What a rule depends on -/

theorem member?_of_filled? (same : filled? members name = filled? others name)
    (plain : defaultFields.lookup name = none) :
    Json.member? members name = Json.member? others name := by
  simpa only [filled?, plain, Option.or_none, Option.map_id'] using same

theorem bind_defaulted_congr {default : A} {decode : Json → Option A}
    (same : filled? members name = filled? others name)
    (listed : defaultFields.lookup name = some value) (reads : decode value = some default) :
    (Json.member? members name).bind (Json.defaulted default decode) =
      (Json.member? others name).bind (Json.defaulted default decode) := by
  have filled (members : List (String × Json)) :
      (Json.member? members name).bind (Json.defaulted default decode) =
        (filled? members name).bind (Json.required decode) := by
    rw [filled?, listed, Option.bind_map]
    exact congrArg _ (funext fun field => Json.defaulted_eq_required reads field)
  rw [filled, filled, same]

theorem bind_required_congr {decode : Json → Option A}
    (same : filled? members name = filled? others name)
    (plain : defaultFields.lookup name = none) :
    (Json.member? members name).bind (Json.required decode) =
      (Json.member? others name).bind (Json.required decode) := by
  rw [member?_of_filled? same plain]

theorem bind_field_congr {decode : Option Json → Option A} {rest rest' : A → Option B}
    (same : (Json.member? members name).bind decode = (Json.member? others name).bind decode)
    (goesOn : ∀ value, rest value = rest' value) :
    ((Json.member? members name).bind fun field => (decode field).bind rest) =
      (Json.member? others name).bind fun field => (decode field).bind rest' := by
  obtain rfl : rest = rest' := funext goesOn
  rw [← Option.bind_assoc, same, Option.bind_assoc]

theorem ofJson?_congr
    (same : ∀ name ∈ ["name", "enabled", "object_type"] ++ defaultFields.map Prod.fst,
      filled? members name = filled? others name)
    (trigger : Trigger.ofMembers? members = Trigger.ofMembers? others)
    (readable : areReadable members = areReadable others) :
    ofJson? (.object members) = ofJson? (.object others) := by
  unfold ofJson?
  dsimp only [bind, Json.members?, Option.bind_some]
  unfold areReadable at readable
  rw [readable, trigger]
  refine congrArg _ (funext fun _ => ?_)
  refine bind_field_congr (bind_defaulted_congr (same _ (by decide)) rfl rfl) fun id => ?_
  refine bind_field_congr (bind_required_congr (same _ (by decide)) rfl) fun name => ?_
  refine bind_field_congr (bind_defaulted_congr (same _ (by decide)) rfl rfl) fun text => ?_
  refine bind_field_congr (bind_required_congr (same _ (by decide)) rfl) fun enabled => ?_
  refine bind_field_congr (bind_defaulted_congr (same _ (by decide)) rfl rfl) fun builtIn => ?_
  refine bind_field_congr (bind_required_congr (same _ (by decide)) rfl) fun objectType => ?_
  refine congrArg _ (funext fun trigger => ?_)
  refine bind_field_congr (bind_defaulted_congr (same _ (by decide)) rfl rfl) fun cooldown => ?_
  refine bind_field_congr (bind_defaulted_congr (same _ (by decide)) rfl rfl) fun conditions => ?_
  exact bind_field_congr (bind_defaulted_congr (same _ (by decide)) rfl rfl) fun actions => rfl

/-! ## What an object that is read has -/

theorem once_of_bind {decode : Option Json → Option A} {rest : A → Option B} {result : B}
    (reads : ((Json.member? members name).bind fun field => (decode field).bind rest) =
      some result) :
    Json.member? members name ≠ none ∧ ∃ value, rest value = some result := by
  obtain ⟨field, found, reads⟩ := Option.bind_eq_some_iff.mp reads
  obtain ⟨value, -, reads⟩ := Option.bind_eq_some_iff.mp reads
  exact ⟨by simp [found], value, reads⟩

theorem parts_of_ofJson? (reads : ofJson? (.object members) = some rule) :
    areReadable members ∧ Trigger.ofMembers? members = some rule.trigger ∧
      ∀ name ∈ fieldsOf rule.trigger.kind, Json.member? members name ≠ none := by
  unfold ofJson? at reads
  obtain ⟨_, same, reads⟩ := Option.bind_eq_some_iff.mp reads
  cases same
  obtain ⟨_, guarded, reads⟩ := Option.bind_eq_some_iff.mp reads
  obtain ⟨id, _, reads⟩ := once_of_bind reads
  obtain ⟨name, _, reads⟩ := once_of_bind reads
  obtain ⟨description, _, reads⟩ := once_of_bind reads
  obtain ⟨enabled, _, reads⟩ := once_of_bind reads
  obtain ⟨builtIn, _, reads⟩ := once_of_bind reads
  obtain ⟨objectType, _, reads⟩ := once_of_bind reads
  obtain ⟨trigger, triggered, reads⟩ := Option.bind_eq_some_iff.mp reads
  obtain ⟨cooldown, _, reads⟩ := once_of_bind reads
  obtain ⟨conditions, _, reads⟩ := once_of_bind reads
  obtain ⟨actions, _, reads⟩ := once_of_bind reads
  cases reads
  refine ⟨(Option.guard_eq_some' _).mp guarded, triggered, ?_⟩
  obtain ⟨⟨tag, tagged, -⟩, word, named, -⟩ := Trigger.ofMembers?_eq_some_iff.mp triggered
  simp only [fieldsOf, defaultFields, List.map_cons, List.map_nil, List.cons_append,
    List.nil_append, List.forall_mem_cons]
  refine ⟨‹_›, ‹_›, ‹_›, by simp [tagged], by simp [named], ‹_›, ‹_›, ‹_›, ‹_›, ‹_›, ‹_›, ?_⟩
  exact fun _ mem => absurd mem List.not_mem_nil

theorem ofJson?_of_filled? (reads : ofJson? (.object members) = some rule)
    (readable : areReadable others)
    (same : ∀ name ∈ fieldsOf rule.trigger.kind, filled? members name = filled? others name) :
    ofJson? (.object others) = some rule := by
  obtain ⟨allRead, triggered, -⟩ := parts_of_ofJson? reads
  have tag : Json.member? members "trigger_type" = Json.member? others "trigger_type" :=
    member?_of_filled? (same _ (by simp [fieldsOf])) rfl
  have word : Json.member? members rule.trigger.kind.nameField =
      Json.member? others rule.trigger.kind.nameField :=
    member?_of_filled? (same _ (by simp [fieldsOf])) (by cases rule.trigger.kind <;> rfl)
  have trigger : Trigger.ofMembers? members = Trigger.ofMembers? others := by
    rw [triggered, eq_comm, Trigger.ofMembers?_eq_some_iff, ← tag, ← word]
    exact Trigger.ofMembers?_eq_some_iff.mp triggered
  rw [← reads]
  refine (ofJson?_congr (fun name mem => same name ?_) trigger (allRead.trans readable.symm)).symm
  simp only [fieldsOf, List.mem_append, List.mem_cons] at mem ⊢
  tauto

/-! ## Changes that do not matter -/

theorem lookup_defaultFields :
    ∀ field ∈ defaultFields, defaultFields.lookup field.1 = some field.2 := by
  intro field default
  simp only [defaultFields, List.mem_cons, List.not_mem_nil, or_false] at default
  rcases default with rfl | rfl | rfl | rfl | rfl | rfl <;> rfl

theorem isReadable_defaultFields : ∀ field ∈ defaultFields, field.2.isReadable := by
  decide

theorem areReadable_cons {member : String × Json} (readable : member.2.isReadable) :
    areReadable (member :: members) = areReadable members := by
  have legible : (listFields.contains member.1 || member.2.isReadable) = true := by
    rw [readable, Bool.or_true]
  exact congrArg (· && areReadable members) legible

theorem filled?_cons_default {field : String × Json} (default : field ∈ defaultFields)
    (missing : field.1 ∉ members.map Prod.fst) (name : String) :
    filled? (field :: members) name = filled? members name := by
  by_cases same : field.1 = name
  · subst same
    have once : Json.member? (field :: members) field.1 ≠ none := by
      rw [ne_eq, Json.member?_eq_none_iff, List.map_cons, List.count_cons_self,
        List.count_eq_zero.mpr missing]
      decide
    rw [filled?, filled?, Json.member?_of_missing missing,
      Json.member?_of_mem_of_once List.mem_cons_self once, lookup_defaultFields field default]
    rfl
  · rw [filled?, filled?, Json.member?_cons_of_ne same]

theorem ofJson?_of_varies (varies : Varies rule.trigger.kind members others)
    (reads : ofJson? (.object members) = some rule) : ofJson? (.object others) = some rule := by
  obtain ⟨readable, -, once⟩ := parts_of_ofJson? reads
  cases varies with
  | reordered perm =>
      refine ofJson?_of_filled? reads (perm.all_eq.symm.trans readable) fun name _ => ?_
      rw [filled?, filled?, Json.member?_eq_of_perm perm]
  | @enlarged _ member unknown legible =>
      refine ofJson?_of_filled? reads ((areReadable_cons legible).trans readable) fun name mem => ?_
      have ne : member.1 ≠ name := fun same => unknown (same ▸ mem)
      rw [filled?, filled?, Json.member?_cons_of_ne ne]
  | @spelledOut _ field default missing =>
      have legible := isReadable_defaultFields field default
      exact ofJson?_of_filled? reads ((areReadable_cons legible).trans readable) fun name _ =>
        (filled?_cons_default default missing name).symm
  | @leftOut _ field default =>
      have legible := isReadable_defaultFields field default
      have known : field.1 ∈ fieldsOf rule.trigger.kind :=
        List.mem_append_right _ (List.mem_map_of_mem default)
      have missing := Json.notMem_of_once (once field.1 known)
      exact ofJson?_of_filled? reads ((areReadable_cons legible).symm.trans readable) fun name _ =>
        filled?_cons_default default missing name

theorem ofJson?_of_varied
    (varied : Relation.ReflTransGen (Varies rule.trigger.kind) members others)
    (reads : ofJson? (.object members) = some rule) : ofJson? (.object others) = some rule := by
  induction varied with
  | refl => exact reads
  | tail _ varies ih => exact ofJson?_of_varies varies ih

/-! ## Fields that are given twice -/

theorem ofJson?_eq_none_of_twice (reads : ofJson? (.object members) = some rule)
    (kept : members ⊆ others) (known : name ∈ fieldsOf rule.trigger.kind)
    (twice : 1 < (others.map Prod.fst).count name) : ofJson? (.object others) = none := by
  obtain ⟨-, triggered, -⟩ := parts_of_ofJson? reads
  obtain ⟨⟨tag, tagged, kind⟩, -⟩ := Trigger.ofMembers?_eq_some_iff.mp triggered
  cases again : ofJson? (.object others) with
  | none => rfl
  | some other =>
      obtain ⟨-, triggered, once⟩ := parts_of_ofJson? again
      -- The tag is still there and still the only one, so the kind is the same.
      have tagged' : Json.member? others "trigger_type" = some (some tag) :=
        Json.member?_of_mem_of_once (kept (Json.mem_of_member? tagged))
          (once "trigger_type" (by simp [fieldsOf]))
      obtain ⟨⟨tag', found, kind'⟩, -⟩ := Trigger.ofMembers?_eq_some_iff.mp triggered
      obtain rfl : tag = tag' := by simpa [tagged'] using found
      have same : other.trigger.kind = rule.trigger.kind := by simpa [kind] using kind'.symm
      exact absurd (Json.member?_eq_none_iff.mpr twice) (once name (same ▸ known))

end

/-! ## Texts of rules -/

def read? (text : String) : Option Rule := (Json.parse? text).bind ofJson?

open Json

theorem exists_writes_of_read? {text : String} {rule : Rule} (reads : read? text = some rule) :
    ∃ members, Writes members text := by
  obtain ⟨json, parses, decodes⟩ := Option.bind_eq_some_iff.mp reads
  cases json with
  | object entries =>
      have filled : entries ≠ [] := by
        rintro rfl
        cases decodes
      obtain ⟨members, writes, -⟩ := exists_writes filled parses
      exact ⟨members, writes⟩
  | _ => cases decodes

/-- Every text of a rule consists of texts of members. However members are reordered, other ones
added, defaults spelled out or left out, the text of the object has the same rule; with a field of
the rule given twice it has none. -/
theorem read?_depends_on_fields {text : String} {rule : Rule} (reads : read? text = some rule) :
    (∃ members, Writes members text) ∧
      ∀ members, Writes members text → ∀ others text', Writes others text' →
        (Relation.ReflTransGen (Varies rule.trigger.kind) (members.map MemberText.entry)
          (others.map MemberText.entry) → read? text' = some rule) ∧
        ∀ name ∈ fieldsOf rule.trigger.kind,
          members.map MemberText.entry ⊆ others.map MemberText.entry →
            1 < (others.map MemberText.name).count name → read? text' = none := by
  refine ⟨exists_writes_of_read? reads, fun members writes others text' writes' => ?_⟩
  have decodes : ofJson? (.object (members.map MemberText.entry)) = some rule := by
    rw [read?, parse?_of_writes writes] at reads
    exact reads
  have same : read? text' = ofJson? (.object (others.map MemberText.entry)) := by
    rw [read?, parse?_of_writes writes']
    rfl
  rw [same]
  refine ⟨fun varied => ofJson?_of_varied varied decodes, fun name known kept twice => ?_⟩
  refine ofJson?_eq_none_of_twice decodes kept known ?_
  rw [List.map_map]
  exact twice

def plainMembers : List MemberText :=
  [⟨"\"id\":0", "id", .int 0, rfl⟩,
   ⟨"\"name\": \"\\u0061\"", "name", .string "a", rfl⟩,
   ⟨"\"enabled\":true", "enabled", .bool true, rfl⟩,
   ⟨"\"object_type\":\"b\"", "object_type", .string "b", rfl⟩,
   ⟨"\"trigger_type\":0", "trigger_type", .int 0, rfl⟩,
   ⟨"\"event_name\":\"c\" ", "event_name", .string "c", rfl⟩]

def moreMembers : List MemberText :=
  [⟨"\"x\":[null]", "x", .array [.null], rfl⟩,
   ⟨"\"metric_name\":\x7b\x7d", "metric_name", .object [], rfl⟩,
   ⟨"\"actions\":[ ]", "actions", .array [], rfl⟩]

def plainText : String :=
  "\n\x7b\"id\":0,\"name\": \"\\u0061\",\"enabled\":true,\"object_type\":\"b\"," ++
    "\"trigger_type\":0,\"event_name\":\"c\" \x7d"

def variedText : String :=
  "\x7b\"x\":[null],\"metric_name\":\x7b\x7d,\"actions\":[ ],\"event_name\":\"c\" ," ++
    "\"trigger_type\":0,\"object_type\":\"b\",\"enabled\":true,\"name\": \"\\u0061\"\x7d "

def plainRule : Rule := { name := "a", enabled := true, objectType := "b", trigger := .event "c" }

theorem varied_plainMembers : Relation.ReflTransGen (Varies .event)
    (plainMembers.map MemberText.entry)
    ((moreMembers ++ (plainMembers.drop 1).reverse).map MemberText.entry) := by
  have actions : ("actions", Json.array []) ∈ defaultFields := by
    simp [defaultFields]
  refine .tail ?_ (.enlarged (by decide) rfl)
  refine .tail ?_ (.enlarged (by decide) rfl)
  refine .tail ?_ (.spelledOut actions (by decide))
  exact .tail (.single (.leftOut (.head _))) (.reordered (List.reverse_perm _).symm)

theorem read?_depends_on_fields_of_plainText :
    read? plainText = some plainRule ∧ Writes plainMembers plainText ∧
      read? variedText = some plainRule ∧
      read? (objectText (plainMembers ++ plainMembers.drop 5)) = none := by
  have reads : read? plainText = some plainRule := by
    decide +kernel
  have writes : Writes plainMembers plainText :=
    ⟨"\n", "", by simp [Scanner.isBlank], by simp, rfl⟩
  have varies : Writes (moreMembers ++ (plainMembers.drop 1).reverse) variedText :=
    ⟨"", " ", by simp, by simp [Scanner.isBlank], rfl⟩
  have doubles := writes_objectText (plainMembers ++ plainMembers.drop 5)
  obtain ⟨-, texts⟩ := read?_depends_on_fields reads
  refine ⟨reads, writes, (texts _ writes _ _ varies).1 varied_plainMembers, ?_⟩
  refine (texts _ writes _ _ doubles).2 "event_name" (by decide) ?_ (by decide)
  rw [List.map_append]
  exact List.subset_append_left _ _

end Rule

end Alerting
