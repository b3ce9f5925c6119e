import Alerting.Daemon.RulesFile
import Alerting.Proofs.Json.Fields

/-!
# Rules files read back

Rules can be written to a file and read back, whatever their texts and numbers are. The one thing
that has no written form of its own is a name that is kept although it stands for something known;
no file that can be read gives such a name.
-/

namespace Alerting

/-! ## Names -/

namespace Operator

def IsProper : Operator → Prop
  | .unknown name => ∀ operator ∈ known, operator.name ≠ name
  | _ => True

instance (operator : Operator) : Decidable operator.IsProper :=
  match operator with
  | .unknown name => inferInstanceAs (Decidable (∀ operator ∈ known, operator.name ≠ name))
  | .is | .isNot | .contains | .notContains => .isTrue trivial
  | .greaterThan | .lessThan | .greaterOrEqual | .lessOrEqual => .isTrue trivial

theorem ofName_name {operator : Operator} (proper : operator.IsProper) :
    ofName operator.name = operator := by
  cases operator with
  | unknown name =>
      have none : known.find? (fun operator => operator.name == name) = none := by
        rw [List.find?_eq_none]
        intro operator mem same
        exact proper operator mem (eq_of_beq same)
      rw [Operator.name, ofName, none]
      rfl
  | _ => decide

theorem isProper_ofName (name : String) : (ofName name).IsProper := by
  unfold ofName
  cases found : known.find? fun operator => operator.name == name with
  | none =>
      intro operator mem same
      have := List.find?_eq_none.mp found operator mem
      simp [same] at this
  | some operator =>
      have all : ∀ operator ∈ known, operator.IsProper := by
        simp [known, IsProper]
      exact all operator (List.mem_of_find?_eq_some found)

end Operator

namespace Target

def IsProper : Target → Prop
  | .other name => name ≠ bell.name
  | .bell => True

instance (target : Target) : Decidable target.IsProper :=
  match target with
  | .other name => inferInstanceAs (Decidable (name ≠ bell.name))
  | .bell => .isTrue trivial

theorem ofName_name {target : Target} (proper : target.IsProper) : ofName target.name = target := by
  cases target with
  | bell => rfl
  | other name => exact if_neg proper

theorem isProper_ofName (name : String) : (ofName name).IsProper := by
  unfold ofName
  split
  · trivial
  · assumption

end Target

/-- Whether the names that a rule keeps stand for nothing known. -/
structure Rule.IsProper (rule : Rule) : Prop where
  operators : ∀ condition ∈ rule.conditions, condition.operator.IsProper
  targets : ∀ action ∈ rule.actions, action.target.IsProper

instance (rule : Rule) : Decidable rule.IsProper :=
  decidable_of_iff ((∀ condition ∈ rule.conditions, condition.operator.IsProper) ∧
      ∀ action ∈ rule.actions, action.target.IsProper)
    ⟨fun both => ⟨both.1, both.2⟩, fun proper => ⟨proper.operators, proper.targets⟩⟩

/-! ## Rules back from values -/

theorem Condition.ofJson?_toJson {condition : Condition} (proper : condition.operator.IsProper) :
    ofJson? condition.toJson = some condition := by
  have fields : condition.toJson.fields? ["property", "operator", "value", "duration_secs"] =
      some [some (.string condition.property), some (.string condition.operator.name),
        some (.string condition.operand), some (.nat condition.duration.toNat)] := by
    simp [toJson, Json.fields?, Json.member?]
  rw [ofJson?, fields]
  simp [Json.required, Json.defaulted, Operator.ofName_name proper]

theorem Action.ofJson?_toJson {action : Action} (proper : action.target.IsProper) :
    ofJson? action.toJson = some action := by
  have fields : action.toJson.fields? ["target", "template_title", "template_message"] =
      some [some (.string action.target.name), some (.string action.title),
        some (.string action.message)] := by
    simp [toJson, Json.fields?, Json.member?]
  rw [ofJson?, fields]
  simp [Json.required, Json.defaulted, Target.ofName_name proper]

theorem TriggerKind.ofJson?_text (kind : TriggerKind) :
    ofJson? (.string kind.text) = some kind := by
  cases kind <;> rfl

theorem Trigger.kind_ofKind (kind : TriggerKind) (name : String) : (ofKind kind name).kind = kind := by
  cases kind <;> rfl

theorem Trigger.name_ofKind (kind : TriggerKind) (name : String) : (ofKind kind name).name = name := by
  cases kind <;> rfl

theorem Trigger.ofKind_kind (trigger : Trigger) : ofKind trigger.kind trigger.name = trigger := by
  cases trigger <;> rfl

theorem Trigger.ofMembers?_eq_some_iff {members : List (String × Json)} {trigger : Trigger} :
    ofMembers? members = some trigger ↔
      (∃ tag, Json.member? members "trigger_type" = some (some tag) ∧
        TriggerKind.ofJson? tag = some trigger.kind) ∧
      ∃ name, Json.member? members trigger.kind.nameField = some (some name) ∧
        name.string? = some trigger.name := by
  unfold ofMembers?
  simp only [Option.bind_eq_bind, Option.bind_eq_some_iff, Json.required]
  constructor
  · rintro ⟨_, tagged, kind, ⟨tag, rfl, reads⟩, _, found, text, ⟨name, rfl, written⟩, same⟩
    cases same
    rw [kind_ofKind, name_ofKind]
    exact ⟨⟨tag, tagged, reads⟩, name, found, written⟩
  · rintro ⟨⟨tag, tagged, reads⟩, name, found, written⟩
    exact ⟨_, tagged, _, ⟨tag, rfl, reads⟩, _, found, _, ⟨name, rfl, written⟩,
      congrArg some (ofKind_kind trigger)⟩

theorem Trigger.ofMembers?_of_fields {trigger : Trigger} {members : List (String × Json)}
    (fields : ∀ entry ∈ trigger.toMembers, Json.member? members entry.1 = some (some entry.2)) :
    ofMembers? members = some trigger := by
  unfold toMembers at fields
  rw [List.forall_mem_cons, List.forall_mem_singleton] at fields
  obtain ⟨kind, name⟩ := fields
  exact ofMembers?_eq_some_iff.mpr ⟨⟨_, kind, TriggerKind.ofJson?_text _⟩, _, name, rfl⟩

theorem Rule.ofJson?_of_fields {rule : Rule} (proper : rule.IsProper)
    {written members : List (String × Json)} (form : rule.toJson = .object written)
    (readable : members.all fun (name, value) => listFields.contains name || value.isReadable)
    (fields : ∀ entry ∈ written, Json.member? members entry.1 = some (some entry.2)) :
    ofJson? (.object members) = some rule := by
  cases form
  rw [List.forall_mem_append, List.forall_mem_append] at fields
  simp only [List.forall_mem_cons] at fields
  obtain ⟨⟨⟨id, name, description, enabled, builtIn, objectType, -⟩, trigger⟩, cooldown,
    conditions, actions, -⟩ := fields
  unfold ofJson?
  -- Simplifying under so many binders takes too long, so the fields are put in by rewriting.
  dsimp only [Json.members?, bind, Option.bind]
  rw [readable, id, name, description, enabled, builtIn, objectType, cooldown, conditions, actions,
    Trigger.ofMembers?_of_fields trigger]
  dsimp only [guard, Json.required, Json.defaulted]
  rw [Json.uint64?_nat, Json.int64?_int,
    Json.listOf_map fun condition mem => Condition.ofJson?_toJson (proper.operators condition mem),
    Json.listOf_map fun action mem => Action.ofJson?_toJson (proper.targets action mem)]
  rfl

theorem Rule.ofJson?_toJson {rule : Rule} (proper : rule.IsProper) :
    ofJson? rule.toJson = some rule := by
  obtain ⟨written, form⟩ : ∃ written, rule.toJson = .object written := ⟨_, rfl⟩
  have distinct : (written.map Prod.fst).Nodup := by
    cases form
    change ["id", "name", "description", "enabled", "built_in", "object_type", "trigger_type",
      rule.trigger.kind.nameField, "cooldown_secs", "conditions", "actions"].Nodup
    cases rule.trigger.kind <;> decide
  have readable : written.all fun (name, value) =>
      listFields.contains name || value.isReadable := by
    cases form
    cases rule.trigger <;> rfl
  rw [form]
  exact ofJson?_of_fields proper form readable fun entry mem => Json.member?_of_mem distinct mem

/-! ## What is read is proper -/

theorem Condition.isProper_of_ofJson? {json : Json} {condition : Condition}
    (reads : ofJson? json = some condition) : condition.operator.IsProper := by
  obtain ⟨fields, -, reads⟩ := Option.bind_eq_some_iff.mp reads
  split at reads
  · simp only [bind, Option.bind_eq_some_iff, Option.some.injEq] at reads
    obtain ⟨_, -, name, -, _, -, _, -, rfl⟩ := reads
    exact Operator.isProper_ofName name
  · contradiction

theorem Action.isProper_of_ofJson? {json : Json} {action : Action}
    (reads : ofJson? json = some action) : action.target.IsProper := by
  obtain ⟨fields, -, reads⟩ := Option.bind_eq_some_iff.mp reads
  split at reads
  · simp only [bind, Option.bind_eq_some_iff, Option.some.injEq] at reads
    obtain ⟨name, -, _, -, _, -, rfl⟩ := reads
    exact Target.isProper_ofName name
  · contradiction

theorem Rule.isProper_of_ofJson? {json : Json} {rule : Rule} (reads : ofJson? json = some rule) :
    rule.IsProper := by
  unfold ofJson? at reads
  -- One step for the members, one for what must be readable, and two for each field but the
  -- trigger.
  iterate 21 obtain ⟨_, _, reads⟩ := Option.bind_eq_some_iff.mp reads
  cases reads
  constructor
  · intro condition mem
    obtain ⟨item, hitem⟩ := Json.mem_of_defaulted
      ‹Json.defaulted [] (Json.listOf Condition.ofJson?) _ = some _› mem
    exact Condition.isProper_of_ofJson? hitem
  · intro action mem
    obtain ⟨item, hitem⟩ := Json.mem_of_defaulted
      ‹Json.defaulted [] (Json.listOf Action.ofJson?) _ = some _› mem
    exact Action.isProper_of_ofJson? hitem

/-! ## Texts of rules -/

theorem Condition.legible (condition : Condition) : condition.toJson.Legible 1 := by
  apply Json.Legible.object
  simp [Json.legible_string, Json.legible_uint64]

theorem Action.legible (action : Action) : action.toJson.Legible 1 := by
  apply Json.Legible.object
  simp [Json.legible_string]

theorem Rule.legible (rule : Rule) : rule.toJson.Legible 3 := by
  have conditions : (Json.array (rule.conditions.map Condition.toJson)).Legible 2 :=
    .array (by simp [Condition.legible])
  have actions : (Json.array (rule.actions.map Action.toJson)).Legible 2 :=
    .array (by simp [Action.legible])
  apply Json.Legible.object
  simp [Trigger.toMembers, Json.legible_string, Json.legible_bool, Json.legible_uint64,
    Json.legible_int64, or_imp, forall_and, conditions, actions]

/-! ## Rules files -/

namespace Daemon

variable {rules : List Rule}

theorem legible_rules (rules : List Rule) :
    (Json.array (rules.map Rule.toJson)).Legible 4 :=
  .array (by simp [Rule.legible])

theorem parseRules_of_parse? {text : String}
    (parses : Json.parse? text = some (.array (rules.map Rule.toJson)))
    (proper : ∀ rule ∈ rules, rule.IsProper) : parseRules text = .ok rules := by
  have reads := Json.listOf_map fun rule mem => Rule.ofJson?_toJson (proper rule mem)
  rw [parseRules, parses, Option.bind_some, reads]

theorem isProper_of_parseRules {text : String} (reads : parseRules text = .ok rules) {rule : Rule}
    (mem : rule ∈ rules) : rule.IsProper := by
  unfold parseRules at reads
  split at reads
  · rename_i read parses
    cases reads
    obtain ⟨json, -, listed⟩ := Option.bind_eq_some_iff.mp parses
    obtain ⟨item, reads⟩ := Json.mem_of_listOf listed mem
    exact Rule.isProper_of_ofJson? reads
  · contradiction

theorem parseRules_written (proper : ∀ rule ∈ rules, rule.IsProper) :
    parseRules (Json.array (rules.map Rule.toJson)).compact = .ok rules ∧
      parseRules (exportRules rules) = .ok rules :=
  ⟨parseRules_of_parse? (Json.parse?_compact (legible_rules rules) (by decide)) proper,
    parseRules_of_parse? (Json.parse?_pretty (legible_rules rules) (by decide)) proper⟩

/-- Rules are read back from either layout of their text, and whatever a file gives can be written
and read again. -/
theorem rules_read_back (rules : List Rule) :
    ((∀ rule ∈ rules, rule.IsProper) →
      parseRules (Json.array (rules.map Rule.toJson)).compact = .ok rules ∧
        parseRules (exportRules rules) = .ok rules) ∧
    ∀ text, parseRules text = .ok rules →
      (∀ rule ∈ rules, rule.IsProper) ∧
        parseRules (Json.array (rules.map Rule.toJson)).compact = .ok rules ∧
        parseRules (exportRules rules) = .ok rules := by
  refine ⟨parseRules_written, ?_⟩
  intro text reads
  have proper : ∀ rule ∈ rules, rule.IsProper := fun rule => isProper_of_parseRules reads
  exact ⟨proper, parseRules_written proper⟩

def oddRules : List Rule :=
  [{ id := 0xFFFFFFFFFFFFFFFF
     name := "\"quoted\" \\ \n\t\x01"
     description := "größer → 😀"
     objectType := ""
     trigger := .metric "\x7f"
     cooldownSeconds := -0x8000000000000000
     conditions := [⟨"value", .unknown "greater than", "1e3", 0xFFFFFFFFFFFFFFFF⟩,
       ⟨"", .isNot, "", 0⟩]
     actions := [{ target := .bell }, { target := .other "Bell", title := "\x7b\x7dtitle" }] },
   { name := "", enabled := false, builtIn := true, objectType := "host", trigger := .event "up" }]

def foreignText : String :=
  " [\x7b\"trigger_type\": 0, \"event_name\":\"up\",\"metric_name\":\"cpu\",\"enabled\":false,\t" ++
    "\"name\":\"\",\"built_in\":true,\"object_type\":\"\\u0068ost\"\x7d ] "

theorem rules_read_back_of_oddRules :
    (parseRules (Json.array (oddRules.map Rule.toJson)).compact = .ok oddRules ∧
      parseRules (exportRules oddRules) = .ok oddRules) ∧
    parseRules foreignText = .ok (oddRules.drop 1) ∧
    (∀ rule ∈ oddRules.drop 1, rule.IsProper) ∧
      parseRules (Json.array ((oddRules.drop 1).map Rule.toJson)).compact =
        .ok (oddRules.drop 1) ∧
      parseRules (exportRules (oddRules.drop 1)) = .ok (oddRules.drop 1) := by
  have proper : ∀ rule ∈ oddRules, rule.IsProper := by
    decide
  have reads : parseRules foreignText = .ok (oddRules.drop 1) := by
    decide +kernel
  exact ⟨(rules_read_back oddRules).1 proper, reads,
    (rules_read_back (oddRules.drop 1)).2 foreignText reads⟩

end Daemon

end Alerting
