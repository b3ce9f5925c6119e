import Alerting.Property
import Alerting.Proofs.Json.Fields
import Alerting.Proofs.Json.Numbers

/-!
# Properties back from their text

Properties are written as the values they hold, with nothing that tells of which kind a value is.
Names, truth values and texts are read back whatever they are, each as what it was; numbers are, if
they are read back when they stand alone.
-/

namespace Alerting

@[simp] theorem Property.ofJson?_toJson (property : Property) :
    ofJson? property.toJson = some property := by
  cases property <;> rfl

def Property.numeric? : Property → Option Number
  | number value => some value
  | _ => none

theorem Property.legible {property : Property} {room : Nat}
    (reads : ∀ number, property.numeric? = some number → Json.ReadsBack number) :
    property.toJson.Legible room := by
  cases property with
  | bool value => exact Json.legible_bool value
  | number value => exact Json.legible_float (reads value rfl)
  | text value => exact Json.legible_string value

namespace Properties

def numbers (properties : Properties) : List Number :=
  properties.entries.filterMap fun entry => entry.2.numeric?

theorem insertEntry_of_last {name : String} {value : Property}
    {entries : List (String × Property)} (last : ∀ entry ∈ entries, entry.1 < name) :
    insertEntry name value entries = entries ++ [(name, value)] := by
  induction entries with
  | nil => rfl
  | cons entry entries ih =>
      obtain ⟨below, last⟩ := List.forall_mem_cons.mp last
      have notBefore : ¬name < entry.1 := String.lt_asymm below
      have apart : name ≠ entry.1 := fun same => String.lt_irrefl _ (same ▸ below)
      rw [insertEntry, if_neg notBefore, if_neg apart, ih last]
      rfl

theorem foldl_insert {entries rest : List (String × Property)} (ascending : Ascending entries)
    (whole : Ascending (entries ++ rest)) :
    rest.foldl (fun (properties : Properties) entry => properties.insert entry.1 entry.2)
        ⟨entries, ascending⟩ =
      ⟨entries ++ rest, whole⟩ := by
  induction rest generalizing entries with
  | nil => simp
  | cons entry rest ih =>
      obtain ⟨name, value⟩ := entry
      have last : ∀ entry ∈ entries, entry.1 < name := fun other mem =>
        (List.pairwise_append.mp whole).2.2 other mem _ List.mem_cons_self
      have appended : insertEntry name value entries = entries ++ [(name, value)] :=
        insertEntry_of_last last
      have longer : Ascending (entries ++ [(name, value)] ++ rest) := by simpa using whole
      have grown : Ascending (entries ++ [(name, value)]) := (List.pairwise_append.mp longer).1
      have inserted : (⟨entries, ascending⟩ : Properties).insert name value =
          ⟨entries ++ [(name, value)], grown⟩ := by simp [insert, appended]
      rw [List.foldl_cons, inserted, ih grown longer]
      simp

theorem ofList_entries (properties : Properties) : ofList properties.entries = properties :=
  foldl_insert .nil properties.ascending

theorem ofJson?_toJson (properties : Properties) : ofJson? properties.toJson = some properties := by
  have entries : properties.entries.mapM (fun entry => some (entry.1, entry.2)) =
      some properties.entries := by
    simpa using Json.mapM_of_each fun entry (_ : entry ∈ properties.entries) =>
      (rfl : some (entry.1, entry.2) = some entry)
  simp [ofJson?, toJson, Json.members?, List.mapM_map, Function.comp_def, entries, ofList_entries]

def read? (text : String) : Option Properties := (Json.parse? text).bind ofJson?

theorem read?_compact {properties : Properties}
    (reads : ∀ number ∈ properties.numbers, Json.ReadsBack number) :
    read? properties.toJson.compact = some properties := by
  have legible : properties.toJson.Legible 1 := by
    refine .object (List.forall_mem_map.mpr fun entry mem => Property.legible ?_)
    exact fun number isNumber =>
      reads number (List.mem_filterMap.mpr ⟨entry, mem, isNumber⟩)
  rw [read?, Json.parse?_compact legible (by decide), Option.bind_some, ofJson?_toJson]

end Properties

end Alerting
