import Mathlib.Data.List.Nodup

/-!
# Entries and their numbers

Entries that belong to other keys make no difference to what is found under a key, and where all
keys differ, each entry is found under its own. Entries that are numbered one after another have
ascending numbers until there are no more of them. Of entries that are added at the end, each is
either the last one or among those that were there before.
-/

namespace Alerting

theorem find?_of_distinct {A K : Type} [BEq K] [LawfulBEq K] {key : A → K} {entries : List A}
    {entry : A} (distinct : (entries.map key).Nodup) (mem : entry ∈ entries) :
    (entries.find? fun other => key other == key entry) = some entry := by
  obtain ⟨found, present⟩ :
      ∃ found, (entries.find? fun other => key other == key entry) = some found :=
    Option.isSome_iff_exists.mp (List.find?_isSome.mpr ⟨entry, mem, by simp⟩)
  have same : key found = key entry := by simpa using List.find?_some present
  rw [present, List.inj_on_of_nodup_map distinct (List.mem_of_find?_eq_some present) mem same]

theorem lookup_of_distinct {K A : Type} [BEq K] [LawfulBEq K] {entries : List (K × A)} {key : K}
    {value : A} (distinct : (entries.map Prod.fst).Nodup) (mem : (key, value) ∈ entries) :
    entries.lookup key = some value := by
  induction entries with
  | nil => cases mem
  | cons first rest ih =>
      rw [List.map_cons, List.nodup_cons] at distinct
      rcases List.mem_cons.mp mem with rfl | mem
      · exact List.lookup_cons_self
      · have other : key ≠ first.1 := by
          rintro rfl
          exact distinct.1 (List.mem_map.mpr ⟨_, mem, rfl⟩)
        rw [List.lookup_cons, beq_eq_false_iff_ne.mpr other]
        exact ih distinct.2 mem

theorem toNat_add_one {last : UInt64} (room : last.toNat + 1 < UInt64.size) :
    (last + 1).toNat = last.toNat + 1 := by
  rw [UInt64.toNat_add]
  exact Nat.mod_eq_of_lt room

theorem lt_add_one {last : UInt64} (room : last.toNat + 1 < UInt64.size) : last < last + 1 := by
  rw [UInt64.lt_iff_toNat_lt, toNat_add_one room]
  omega

theorem lookup_filter {K A : Type} [BEq K] [LawfulBEq K] {key : K} (kept : K → Bool)
    (isKept : kept key) (entries : List (K × A)) :
    (entries.filter fun entry => kept entry.1).lookup key = entries.lookup key := by
  induction entries with
  | nil => rfl
  | cons entry entries ih =>
      obtain ⟨name, value⟩ := entry
      rw [List.lookup_cons, List.filter_cons]
      by_cases same : key = name
      · subst same
        simp [isKept]
      · have apart : (key == name) = false := by simpa using same
        by_cases stays : kept name
        · simp [stays, List.lookup_cons, apart, ih]
        · simp [stays, apart, ih]

theorem concat_eq_append_cons_iff {A : Type} {entries front back : List A} {last entry : A} :
    entries ++ [last] = front ++ entry :: back ↔
      (front = entries ∧ entry = last ∧ back = []) ∨
        ∃ between, back = between ++ [last] ∧ entries = front ++ entry :: between := by
  constructor
  · intro split
    rcases List.eq_nil_or_concat back with rfl | ⟨between, final, rfl⟩
    · obtain ⟨rfl, same⟩ := List.append_inj' split rfl
      exact .inl ⟨rfl, (List.singleton_inj.mp same).symm, rfl⟩
    · rw [List.concat_eq_append, ← List.cons_append, ← List.append_assoc] at split
      obtain ⟨before, same⟩ := List.append_inj' split rfl
      exact .inr ⟨between, by rw [same, List.concat_eq_append], before⟩
  · rintro (⟨rfl, rfl, rfl⟩ | ⟨between, rfl, rfl⟩)
    · rfl
    · rw [List.append_assoc, List.cons_append]

end Alerting
