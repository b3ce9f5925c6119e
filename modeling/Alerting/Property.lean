import Alerting.Number.Notation
import Alerting.Number.Numeral
import Alerting.Json.Token

/-!
# Properties

An event carries properties: named scalar values, in the order of their names. Whole numbers and
numbers with a fraction are one kind of value, so nothing that uses a property has to tell them
apart.
-/

namespace Alerting

inductive Property where
  | bool (value : Bool)
  | number (value : Number)
  | text (value : String)
deriving DecidableEq, Repr

namespace Property

/-- The number in a property. Text counts if it is a numeral, truth values never do. -/
def number? : Property → Option Number
  | bool _ => none
  | number value => some value
  | text value => Number.parse? value

def shown : Property → String
  | bool value => if value then "true" else "false"
  | number value => value.text
  | text value => value

def toJson : Property → Json
  | bool value => .bool value
  | number value => .float value
  | text value => .string value

def ofJson? (json : Json) : Option Property :=
  match json with
  | .scalar (.bool value) => some (bool value)
  | .scalar (.string value) => some (text value)
  | json => json.number?.map number

end Property

def Ascending (entries : List (String × Property)) : Prop :=
  entries.Pairwise fun left right => left.1 < right.1

structure Properties where
  entries : List (String × Property)
  ascending : Ascending entries
deriving DecidableEq

namespace Properties

def empty : Properties := ⟨[], .nil⟩

instance : Inhabited Properties := ⟨empty⟩

def get? (properties : Properties) (name : String) : Option Property :=
  properties.entries.lookup name

def insertEntry (name : String) (value : Property) :
    List (String × Property) → List (String × Property)
  | [] => [(name, value)]
  | entry :: rest =>
      if name < entry.1 then (name, value) :: entry :: rest
      else if name = entry.1 then (name, value) :: rest
      else entry :: insertEntry name value rest

theorem mem_insertEntry {name : String} {value : Property} {entry : String × Property}
    {entries : List (String × Property)} (h : entry ∈ insertEntry name value entries) :
    entry = (name, value) ∨ entry ∈ entries := by
  induction entries with
  | nil => simpa [insertEntry] using h
  | cons first rest ih =>
    simp only [insertEntry] at h
    split at h
    · simpa using h
    · split at h
      · rcases List.mem_cons.1 h with h | h
        · exact .inl h
        · exact .inr (List.mem_cons_of_mem _ h)
      · rcases List.mem_cons.1 h with h | h
        · exact .inr (h ▸ List.mem_cons_self)
        · rcases ih h with h | h
          · exact .inl h
          · exact .inr (List.mem_cons_of_mem _ h)

theorem ascending_insertEntry (name : String) (value : Property)
    {entries : List (String × Property)} (h : Ascending entries) :
    Ascending (insertEntry name value entries) := by
  induction entries with
  | nil => exact List.pairwise_singleton ..
  | cons first rest ih =>
    have hrest := List.pairwise_cons.1 h
    simp only [insertEntry]
    split
    · rename_i hlt
      refine List.pairwise_cons.2 ⟨fun entry hentry => ?_, h⟩
      rcases List.mem_cons.1 hentry with rfl | hentry
      · exact hlt
      · exact String.lt_trans hlt (hrest.1 entry hentry)
    · split
      · rename_i heq
        exact List.pairwise_cons.2 ⟨fun entry hentry => heq ▸ hrest.1 entry hentry, hrest.2⟩
      · rename_i hlt hne
        refine List.pairwise_cons.2 ⟨fun entry hentry => ?_, ih hrest.2⟩
        rcases mem_insertEntry hentry with rfl | hentry
        · rcases Std.lt_trichotomy first.1 name with hless | heq | hless
          · exact hless
          · exact absurd heq.symm hne
          · exact absurd hless hlt
        · exact hrest.1 entry hentry

def insert (properties : Properties) (name : String) (value : Property) : Properties :=
  ⟨insertEntry name value properties.entries, ascending_insertEntry name value properties.ascending⟩

def erase (properties : Properties) (name : String) : Properties :=
  ⟨properties.entries.filter fun entry => entry.1 != name,
    List.Pairwise.filter _ properties.ascending⟩

/-- The properties of a list of entries, where the last entry of a name counts. -/
def ofList (entries : List (String × Property)) : Properties :=
  entries.foldl (fun properties entry => properties.insert entry.1 entry.2) empty

def names (properties : Properties) : List String := properties.entries.map Prod.fst

def toJson (properties : Properties) : Json :=
  .object (properties.entries.map fun entry => (entry.1, entry.2.toJson))

def ofJson? (json : Json) : Option Properties := do
  let members ← json.members?
  let entries ← members.mapM fun (name, value) => do
    some (name, ← Property.ofJson? value)
  some (ofList entries)

end Properties

end Alerting
