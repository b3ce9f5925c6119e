import Alerting.Json.Fields
import Alerting.Proofs.Json.Reading

/-!
# Fields read back

The values that structures write into their fields are read back as they were, and their texts can
be read back as well.
-/

namespace Alerting

namespace Json

/-! ## Single values -/

@[simp] theorem string?_string (value : String) : (Json.string value).string? = some value := rfl

@[simp] theorem bool?_bool (value : Bool) : (Json.bool value).bool? = some value := rfl

@[simp] theorem uint64?_nat (value : UInt64) : (Json.nat value.toNat).uint64? = some value := by
  have inside : (value.toNat : Int).toNat < UInt64.size ∧ 0 ≤ (value.toNat : Int) :=
    ⟨value.toNat_lt_size, Int.natCast_nonneg _⟩
  exact (dif_pos inside).trans (congrArg some value.ofNatLT_toNat)

@[simp] theorem uint32?_nat (value : UInt32) : (Json.nat value.toNat).uint32? = some value := by
  have inside : (value.toNat : Int).toNat < UInt32.size ∧ 0 ≤ (value.toNat : Int) :=
    ⟨value.toNat_lt_size, Int.natCast_nonneg _⟩
  exact (dif_pos inside).trans (congrArg some value.ofNatLT_toNat)

@[simp] theorem int64?_int (value : Int64) : (Json.int value.toInt).int64? = some value := by
  have inside : Int64.minValue.toInt ≤ value.toInt ∧ value.toInt ≤ Int64.maxValue.toInt :=
    ⟨value.minValue_le_toInt, Int64.le_iff_toInt_le.mp value.le_maxValue⟩
  exact (if_pos inside).trans (congrArg some value.ofInt_toInt)

@[simp] theorem nullable_orNull (value : Option String) :
    nullable string? (orNull .string value) = some value := by
  cases value <;> rfl

variable {room : Nat}

theorem legible_string (value : String) : (Json.string value).Legible room :=
  .scalar (Token.legible_string value)

theorem legible_bool (value : Bool) : (Json.bool value).Legible room :=
  .scalar (Token.legible_bool value)

theorem legible_null : Json.null.Legible room :=
  .scalar Token.legible_null

theorem legible_uint64 (value : UInt64) : (Json.nat value.toNat).Legible room := by
  have least : Int64.minValue.toInt ≤ 0 := by decide
  exact .scalar (Token.legible_int (by omega) (Int.ofNat_lt.mpr value.toNat_lt_size))

theorem legible_uint32 (value : UInt32) : (Json.nat value.toNat).Legible room := by
  have least : Int64.minValue.toInt ≤ 0 := by decide
  have most : value.toNat < UInt64.size :=
    value.toNat_lt_size.trans (by decide : UInt32.size < UInt64.size)
  exact .scalar (Token.legible_int (by omega) (Int.ofNat_lt.mpr most))

theorem legible_int64 (value : Int64) : (Json.int value.toInt).Legible room := by
  have most : Int64.maxValue.toInt < UInt64.size := by decide
  have := Int64.le_iff_toInt_le.mp value.le_maxValue
  exact .scalar (Token.legible_int value.minValue_le_toInt (by omega))

/-! ## Members -/

theorem mapM_of_each {A B : Type} {decode : A → Option B} {result : A → B} {values : List A}
    (each : ∀ value ∈ values, decode value = some (result value)) :
    values.mapM decode = some (values.map result) := by
  induction values with
  | nil => rfl
  | cons value values ih =>
      have rest := ih fun other mem => each other (List.mem_cons_of_mem value mem)
      simp [each value List.mem_cons_self, rest]

theorem filter_of_missing {members : List (String × Json)} {name : String}
    (missing : name ∉ members.map Prod.fst) :
    members.filter (fun entry => entry.1 == name) = [] := by
  rw [List.filter_eq_nil_iff]
  intro entry mem same
  exact missing (eq_of_beq same ▸ List.mem_map_of_mem mem)

theorem filter_of_mem {members : List (String × Json)} {name : String} {value : Json}
    (distinct : (members.map Prod.fst).Nodup) (mem : (name, value) ∈ members) :
    members.filter (fun entry => entry.1 == name) = [(name, value)] := by
  induction members with
  | nil => contradiction
  | cons member members ih =>
      obtain ⟨apart, distinct⟩ := List.nodup_cons.mp distinct
      rcases List.mem_cons.mp mem with same | later
      · have none : members.filter (fun entry => entry.1 == name) = [] := by
          rw [List.filter_eq_nil_iff]
          intro entry listed named
          rw [← same] at apart
          exact apart (List.mem_map.mpr ⟨entry, listed, eq_of_beq named⟩)
        rw [← same, List.filter_cons, if_pos (beq_self_eq_true name), none]
      · have ne : ¬(member.1 == name) = true := by
          intro named
          rw [eq_of_beq named] at apart
          exact apart (List.mem_map_of_mem later)
        rw [List.filter_cons, if_neg ne, ih distinct later]

theorem member?_of_mem {members : List (String × Json)} {name : String} {value : Json}
    (distinct : (members.map Prod.fst).Nodup) (mem : (name, value) ∈ members) :
    member? members name = some (some value) := by
  rw [member?, filter_of_mem distinct mem]

section

variable {members others : List (String × Json)} {name : String}

theorem member?_eq_none_iff :
    member? members name = none ↔ 1 < (members.map Prod.fst).count name := by
  have counted : (members.map Prod.fst).count name =
      (members.filter fun entry => entry.1 == name).length := by
    rw [List.count_eq_countP, List.countP_map, List.countP_eq_length_filter]
    rfl
  rw [counted, member?]
  generalize members.filter _ = found
  match found with
  | [] => simp
  | [_] => simp
  | _ :: _ :: _ => simp

theorem member?_eq_of_perm (perm : members.Perm others) :
    member? members name = member? others name := by
  have found := perm.filter fun entry => entry.1 == name
  unfold member?
  generalize members.filter _ = first, others.filter _ = second at found ⊢
  match first, found with
  | [], found => rw [List.nil_perm.mp found]
  | [entry], found => rw [List.singleton_perm.mp found]
  | _ :: _ :: _, found =>
      match second, found.length_eq with
      | _ :: _ :: _, _ => rfl

theorem member?_cons_of_ne {entry : String × Json} (ne : entry.1 ≠ name) :
    member? (entry :: members) name = member? members name := by
  rw [member?, List.filter_cons_of_neg (by simpa using ne)]
  rfl

theorem member?_of_missing (missing : name ∉ members.map Prod.fst) :
    member? members name = some none := by
  rw [member?, filter_of_missing missing]

theorem member?_of_mem_of_once {value : Json} (mem : (name, value) ∈ members)
    (once : member? members name ≠ none) : member? members name = some (some value) := by
  have listed : (name, value) ∈ members.filter fun entry => entry.1 == name := by
    simpa using mem
  unfold member? at once ⊢
  generalize members.filter _ = found at once listed ⊢
  match found with
  | [] => contradiction
  | [_] => rw [← List.mem_singleton.mp listed]
  | _ :: _ :: _ => contradiction

theorem mem_of_member? {value : Json} (found : member? members name = some (some value)) :
    (name, value) ∈ members := by
  unfold member? at found
  split at found
  · cases found
  · rename_i entry listed
    cases found
    have mem : entry ∈ members.filter fun entry => entry.1 == name := by
      simp [listed]
    obtain ⟨mem, named⟩ := List.mem_filter.mp mem
    rwa [← eq_of_beq named]
  · cases found

theorem notMem_of_once {value : Json} (once : member? ((name, value) :: members) name ≠ none) :
    name ∉ members.map Prod.fst := by
  intro again
  apply once
  rw [member?_eq_none_iff, List.map_cons, List.count_cons_self]
  have := List.count_pos_iff.mpr again
  omega

end

/-! ## Fields that may be missing -/

theorem defaulted_eq_required {A : Type} {default : A} {decode : Json → Option A} {json : Json}
    (reads : decode json = some default) (field : Option Json) :
    defaulted default decode field = required decode (field.or (some json)) := by
  cases field with
  | none => exact reads.symm
  | some value => rfl

def members (json : Json) : List (String × Json) := json.members?.getD []

def withField (fields : List (String × Json)) (name : String) (value : Json) :
    List (String × Json) :=
  fields.map fun field => if field.1 = name then (name, value) else field

/-- Whether an object has exactly those fields of some that are listed, each of them once and in any
order. Members with other names do not matter. -/
def Lists (json : Json) (fields : List (String × Json)) (listed : List String) : Prop :=
  ∃ members, json = .object members ∧
    (members.filter fun member => (fields.map Prod.fst).contains member.1).Perm
      (fields.filter fun field => listed.contains field.1)

theorem member?_of_perm {fields members : List (String × Json)} {listed : List String}
    (distinct : (fields.map Prod.fst).Nodup)
    (perm : (members.filter fun member => (fields.map Prod.fst).contains member.1).Perm
      (fields.filter fun field => listed.contains field.1))
    {name : String} {value : Json} (mem : (name, value) ∈ fields) :
    member? members name = some (if listed.contains name then some value else none) := by
  have known : (fields.map Prod.fst).contains name := by
    simpa using ⟨value, mem⟩
  have among : members.filter (fun entry => entry.1 == name) =
      (members.filter fun member => (fields.map Prod.fst).contains member.1).filter
        fun entry => entry.1 == name := by
    rw [List.filter_filter]
    apply List.filter_congr
    intro entry _
    by_cases named : entry.1 = name
    · rw [named, known, Bool.and_true]
    · rw [beq_eq_false_iff_ne.mpr named, Bool.false_and]
  have found := perm.filter fun entry => entry.1 == name
  rw [← among, List.filter_filter, List.filter_congr fun _ _ => Bool.and_comm ..,
    ← List.filter_filter, filter_of_mem distinct mem, List.filter_singleton] at found
  rw [member?]
  cases present : listed.contains name with
  | true =>
      simp only [present] at found
      rw [List.perm_singleton.mp found]
      rfl
  | false =>
      simp only [present] at found
      rw [List.perm_nil.mp found]
      rfl

theorem Lists.fields? {fields : List (String × Json)} {listed : List String} {json : Json}
    (lists : json.Lists fields listed) (distinct : (fields.map Prod.fst).Nodup) :
    json.fields? (fields.map Prod.fst) =
      some (fields.map fun field => if listed.contains field.1 then some field.2 else none) := by
  obtain ⟨members, rfl, perm⟩ := lists
  rw [Json.fields?, List.mapM_map]
  exact mapM_of_each fun field mem => member?_of_perm distinct perm mem

theorem exists_lists {room : Nat} {fields : List (String × Json)} (listed : List String)
    (legible : ∀ field ∈ fields, field.2.Legible room) :
    ∃ json : Json, json.Lists fields listed ∧ json.Legible (room + 1) := by
  let picked := fields.filter fun field => listed.contains field.1
  have known : picked.filter (fun member => (fields.map Prod.fst).contains member.1) = picked := by
    rw [List.filter_eq_self]
    intro member mem
    simpa using ⟨member.2, (List.mem_filter.mp mem).1⟩
  exact ⟨.object picked, ⟨picked, rfl, .of_eq known⟩,
    .object fun member mem => legible member (List.mem_filter.mp mem).1⟩

theorem lists_names (members : List (String × Json)) :
    (Json.object members).Lists members (members.map Prod.fst) :=
  ⟨members, rfl, .refl _⟩

theorem defaulted_ite {A : Type} {default value : A} {decode : Json → Option A} {json : Json}
    (decodes : decode json = some value) (listed : Bool) :
    defaulted default decode (if listed then some json else none) =
      some (if listed then value else default) := by
  cases listed
  · rfl
  · exact decodes

/-! ## Lists -/

theorem listOf_map {A : Type} {decode : Json → Option A} {encode : A → Json} {values : List A}
    (each : ∀ value ∈ values, decode (encode value) = some value) :
    listOf decode (.array (values.map encode)) = some values := by
  change (values.map encode).mapM decode = some values
  have reads : values.mapM (decode ∘ encode) = some (values.map id) := mapM_of_each each
  rwa [List.map_id, ← List.mapM_map] at reads

theorem mem_of_listOf {A : Type} {decode : Json → Option A} {json : Json} {values : List A}
    (reads : listOf decode json = some values) {value : A} (mem : value ∈ values) :
    ∃ item, decode item = some value := by
  obtain ⟨items, -, each⟩ := Option.bind_eq_some_iff.mp reads
  clear reads
  induction items generalizing values with
  | nil =>
      cases each
      contradiction
  | cons item items ih =>
      rw [List.mapM_cons] at each
      obtain ⟨first, here, each⟩ := Option.bind_eq_some_iff.mp each
      obtain ⟨others, rest, same⟩ := Option.bind_eq_some_iff.mp each
      cases same
      rcases List.mem_cons.mp mem with rfl | later
      · exact ⟨item, here⟩
      · exact ih later rest

theorem mem_of_defaulted {A : Type} {decode : Json → Option A} {field : Option Json}
    {values : List A} (reads : defaulted [] (listOf decode) field = some values) {value : A}
    (mem : value ∈ values) : ∃ item, decode item = some value := by
  cases field with
  | none =>
      cases reads
      contradiction
  | some json => exact mem_of_listOf reads mem

end Json

end Alerting
