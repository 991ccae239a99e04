import SoftSimplex.Table

/-!
What the operations on tables do to lookup. The main statements are the equations for `get?` after
`insert`, `modify`, `erase` and `swapErase`: both ways of erasing look the same to a reader.
-/

namespace SoftSimplex

namespace Entries

variable {α β : Type} [DecidableEq α]

theorem get?_eq_none_iff (key : α) (entries : List (α × β)) :
    get? key entries = none ↔ key ∉ entries.map Prod.fst := by
  induction entries with
  | nil => simp [get?]
  | cons entry rest ih =>
    by_cases same : entry.1 = key
    · simp [get?, same]
    · have other : ¬ key = entry.1 := fun equal => same equal.symm
      simp only [get?, same, if_false, ih, List.map_cons, List.mem_cons, other, false_or]

theorem mem_of_get? {key : α} {value : β} {entries : List (α × β)}
    (found : get? key entries = some value) : (key, value) ∈ entries := by
  induction entries with
  | nil => cases found
  | cons entry rest ih =>
    by_cases same : entry.1 = key
    · simp only [get?, same, if_true, Option.some.injEq] at found
      subst same found
      exact List.mem_cons_self
    · simp only [get?, same, if_false] at found
      exact List.mem_cons_of_mem entry (ih found)

theorem get?_of_mem {key : α} {value : β} {entries : List (α × β)}
    (distinct : (entries.map Prod.fst).Nodup) (member : (key, value) ∈ entries) :
    get? key entries = some value := by
  induction entries with
  | nil => cases member
  | cons entry rest ih =>
    rw [List.map_cons, List.nodup_cons] at distinct
    rcases List.mem_cons.mp member with here | later
    · subst here
      simp [get?]
    · have elsewhere : ¬ entry.1 = key := by
        intro same
        exact distinct.1 (same ▸ List.mem_map_of_mem later)
      simp only [get?, elsewhere, if_false]
      exact ih distinct.2 later

theorem get?_eq_some_iff {key : α} {value : β} {entries : List (α × β)}
    (distinct : (entries.map Prod.fst).Nodup) :
    get? key entries = some value ↔ (key, value) ∈ entries :=
  ⟨mem_of_get?, get?_of_mem distinct⟩

theorem get?_perm {left right : List (α × β)} (distinct : (left.map Prod.fst).Nodup)
    (same : left.Perm right) (key : α) : get? key left = get? key right := by
  have rightDistinct := (same.map Prod.fst).nodup_iff.mp distinct
  apply Option.ext
  intro value
  rw [get?_eq_some_iff distinct, get?_eq_some_iff rightDistinct, same.mem_iff]

theorem get?_insert (key other : α) (value : β) (entries : List (α × β)) :
    get? other (insert key value entries) =
      if key = other then some value else get? other entries := by
  induction entries with
  | nil => simp [insert, get?]
  | cons entry rest ih =>
    by_cases same : entry.1 = key
    · simp only [insert, same, if_true, get?]
      split <;> simp_all
    · simp only [insert, same, if_false, get?, ih]
      split
      · rename_i here
        simp only [show ¬ key = other from fun equal => same (here.trans equal.symm), if_false]
      · rfl

theorem get?_modify (key other : α) (change : β → β) (entries : List (α × β)) :
    get? other (modify key change entries) =
      if key = other then (get? other entries).map change else get? other entries := by
  induction entries with
  | nil => simp [modify, get?]
  | cons entry rest ih =>
    by_cases same : entry.1 = key
    · simp only [modify, same, if_true, get?]
      split <;> simp_all
    · simp only [modify, same, if_false, get?, ih]
      split
      · rename_i here
        simp only [show ¬ key = other from fun equal => same (here.trans equal.symm), if_false]
      · rfl

theorem get?_erase (key other : α) {entries : List (α × β)}
    (distinct : (entries.map Prod.fst).Nodup) :
    get? other (erase key entries) = if key = other then none else get? other entries := by
  induction entries with
  | nil => simp [erase, get?]
  | cons entry rest ih =>
    rw [List.map_cons, List.nodup_cons] at distinct
    by_cases same : entry.1 = key
    · subst same
      simp only [erase, if_true, get?]
      split
      · rename_i here
        subst here
        exact (get?_eq_none_iff _ _).mpr distinct.1
      · rfl
    · simp only [erase, same, if_false, get?, ih distinct.2]
      split
      · rename_i here
        simp only [show ¬ key = other from fun equal => same (here.trans equal.symm), if_false]
      · rfl

theorem insert_append_of_not_mem {key : α} {entries : List (α × β)}
    (missing : key ∉ entries.map Prod.fst) (value : β) (later : List (α × β)) :
    insert key value (entries ++ later) = entries ++ insert key value later := by
  induction entries with
  | nil => rfl
  | cons entry rest ih =>
    rw [List.map_cons, List.mem_cons, not_or] at missing
    simp only [insert, Ne.symm missing.1, if_false, ih missing.2, List.cons_append]

theorem insert_of_not_mem {key : α} {entries : List (α × β)}
    (missing : key ∉ entries.map Prod.fst) (value : β) :
    insert key value entries = entries ++ [(key, value)] := by
  simpa [insert] using insert_append_of_not_mem missing value []

theorem insert_eq_self {key : α} {value : β} {entries : List (α × β)}
    (found : get? key entries = some value) : insert key value entries = entries := by
  induction entries with
  | nil => cases found
  | cons entry rest ih =>
    rcases entry with ⟨here, old⟩
    simp only [get?, insert] at found ⊢
    split at found
    · rename_i same
      cases found
      rw [if_pos same, same]
    · rename_i other
      rw [if_neg other, ih found]

theorem modify_eq_self {key : α} {change : β → β} {entries : List (α × β)}
    (same : ∀ value, get? key entries = some value → change value = value) :
    modify key change entries = entries := by
  induction entries with
  | nil => rfl
  | cons entry rest ih =>
    rcases entry with ⟨here, old⟩
    simp only [get?, modify] at same ⊢
    split
    · rename_i isHere
      rw [if_pos isHere] at same
      rw [same old rfl, isHere]
    · rename_i other
      rw [if_neg other] at same
      rw [ih same]

theorem erase_eq_filter (key : α) {entries : List (α × β)}
    (distinct : (entries.map Prod.fst).Nodup) :
    erase key entries = entries.filter fun entry => entry.1 ≠ key := by
  induction entries with
  | nil => rfl
  | cons entry rest ih =>
    rw [List.map_cons, List.nodup_cons] at distinct
    by_cases same : entry.1 = key
    · subst same
      have others : ∀ other ∈ rest, other.1 ≠ entry.1 := fun other member equal =>
        distinct.1 (equal ▸ List.mem_map_of_mem member)
      simpa [erase] using (List.filter_eq_self.mpr (by simpa using others)).symm
    · simp [erase, same, ih distinct.2]

theorem swapErase_of_not_mem {key : α} {entries : List (α × β)}
    (missing : key ∉ entries.map Prod.fst) : swapErase key entries = entries := by
  induction entries with
  | nil => rfl
  | cons entry rest ih =>
    rw [List.map_cons, List.mem_cons, not_or] at missing
    simp only [swapErase, Ne.symm missing.1, if_false, ih missing.2]

theorem get?_swapErase (key other : α) {entries : List (α × β)}
    (distinct : (entries.map Prod.fst).Nodup) :
    get? other (swapErase key entries) = if key = other then none else get? other entries := by
  rw [get?_perm (swapErase_distinct key distinct) (swapErase_perm key entries),
    get?_erase key other distinct]

end Entries

namespace Table

variable {α β γ : Type} [DecidableEq α]

theorem mem_keys_iff (table : Table α β) (key : α) :
    key ∈ table.keys ↔ ∃ value, table.get? key = some value := by
  rw [← Option.isSome_iff_exists, Option.isSome_iff_ne_none, Ne, get?, Entries.get?_eq_none_iff,
    Classical.not_not, keys]

theorem contains_iff (table : Table α β) (key : α) :
    table.contains key = true ↔ key ∈ table.keys := by
  rw [contains, Option.isSome_iff_exists, mem_keys_iff]

theorem get?_insert (table : Table α β) (key other : α) (value : β) :
    (table.insert key value).get? other =
      if key = other then some value else table.get? other :=
  Entries.get?_insert key other value table.entries

theorem get?_modify (table : Table α β) (key other : α) (change : β → β) :
    (table.modify key change).get? other =
      if key = other then (table.get? other).map change else table.get? other :=
  Entries.get?_modify key other change table.entries

theorem get?_erase (table : Table α β) (key other : α) :
    (table.erase key).get? other = if key = other then none else table.get? other :=
  Entries.get?_erase key other table.distinct

theorem get?_erase_eq_some_iff {table : Table α β} {key other : α} {value : β} :
    (table.erase key).get? other = some value ↔ key ≠ other ∧ table.get? other = some value := by
  rw [get?_erase]
  split <;> simp_all

theorem get?_swapErase (table : Table α β) (key other : α) :
    (table.swapErase key).get? other = if key = other then none else table.get? other :=
  Entries.get?_swapErase key other table.distinct

theorem get?_mapValues (table : Table α β) (change : β → γ) (key : α) :
    (table.mapValues change).get? key = (table.get? key).map change := by
  rcases table with ⟨entries, distinct⟩
  simp only [get?, mapValues]
  induction entries with
  | nil => rfl
  | cons entry rest ih =>
    simp only [List.map_cons, Entries.get?]
    split
    · rfl
    · exact ih (List.nodup_cons.mp distinct).2

theorem contains_mapValues (table : Table α β) (change : β → γ) (key : α) :
    (table.mapValues change).contains key = table.contains key := by
  rw [contains, get?_mapValues, Option.isSome_map, contains]

omit [DecidableEq α] in
theorem keys_mapValues (table : Table α β) (change : β → γ) :
    (table.mapValues change).keys = table.keys := by
  simp [keys, mapValues, Function.comp_def]

theorem entries_insert_of_missing {table : Table α β} {key : α} (missing : table.get? key = none)
    (value : β) : (table.insert key value).entries = table.entries ++ [(key, value)] :=
  Entries.insert_of_not_mem ((Entries.get?_eq_none_iff key table.entries).mp missing) value

theorem entries_insert_of_last {table earlier : Table α β} {key : α} {old : β}
    (missing : earlier.get? key = none) (last : table.entries = earlier.entries ++ [(key, old)])
    (value : β) : (table.insert key value).entries = earlier.entries ++ [(key, value)] := by
  have replaced := Entries.insert_append_of_not_mem
    ((Entries.get?_eq_none_iff key earlier.entries).mp missing) value [(key, old)]
  rw [← last] at replaced
  exact replaced.trans (by simp [Entries.insert])

theorem entries_erase (table : Table α β) (key : α) :
    (table.erase key).entries = table.entries.filter fun entry => entry.1 ≠ key :=
  Entries.erase_eq_filter key table.distinct

omit [DecidableEq α] in
theorem eq_of_entries {left right : Table α β} (same : left.entries = right.entries) :
    left = right := by
  cases left
  cases right
  cases same
  rfl

omit [DecidableEq α] in
theorem mapValues_mapValues {δ : Type} (table : Table α β) (first : β → γ) (second : γ → δ) :
    (table.mapValues first).mapValues second = table.mapValues (second ∘ first) := by
  refine eq_of_entries ?_
  simp [mapValues, Function.comp_def]

theorem insert_eq_self {table : Table α β} {key : α} {value : β}
    (found : table.get? key = some value) : table.insert key value = table :=
  eq_of_entries (Entries.insert_eq_self found)

theorem modify_eq_self {table : Table α β} {key : α} {change : β → β}
    (same : ∀ value, table.get? key = some value → change value = value) :
    table.modify key change = table :=
  eq_of_entries (Entries.modify_eq_self same)

theorem mem_entries_iff (table : Table α β) (key : α) (value : β) :
    (key, value) ∈ table.entries ↔ table.get? key = some value :=
  (Entries.get?_eq_some_iff table.distinct).symm

theorem mem_keys_of_get? {table : Table α β} {key : α} {value : β}
    (found : table.get? key = some value) : key ∈ table.keys :=
  (table.mem_keys_iff key).mpr ⟨value, found⟩

theorem not_mem_keys_iff (table : Table α β) (key : α) :
    key ∉ table.keys ↔ table.get? key = none :=
  (Entries.get?_eq_none_iff key table.entries).symm

omit [DecidableEq α] in
theorem mem_keys_of_lastKey? {table : Table α β} {key : α} (last : table.lastKey? = some key) :
    key ∈ table.keys := by
  obtain ⟨entry, isLast, same⟩ := Option.map_eq_some_iff.mp last
  exact same ▸ List.mem_map_of_mem (List.mem_of_getLast? isLast)

theorem get?_upsert (table : Table α β) (key other : α) (start : β) (change : β → β) :
    (table.upsert key start change).get? other =
      if key = other then some (change ((table.get? key).getD start)) else table.get? other :=
  table.get?_insert key other _

theorem mem_keys_insert (table : Table α β) (key other : α) (value : β) :
    other ∈ (table.insert key value).keys ↔ other = key ∨ other ∈ table.keys := by
  simp only [mem_keys_iff, get?_insert]
  by_cases same : key = other
  · simp [same]
  · simp [same, Ne.symm same]

theorem mem_keys_modify (table : Table α β) (key other : α) (change : β → β) :
    other ∈ (table.modify key change).keys ↔ other ∈ table.keys := by
  simp only [keys, modify, Entries.keys_modify]

theorem swapErase_of_not_mem {table : Table α β} {key : α} (missing : key ∉ table.keys) :
    table.swapErase key = table := by
  rcases table with ⟨entries, distinct⟩
  simp only [swapErase, Entries.swapErase_of_not_mem missing]

theorem get?_foldl_modify (table : Table α β) (change : β → β) {keys : List α}
    (distinct : keys.Nodup) (other : α) :
    (keys.foldl (fun changed key => changed.modify key change) table).get? other =
      if other ∈ keys then (table.get? other).map change else table.get? other := by
  induction keys generalizing table with
  | nil => simp
  | cons key rest ih =>
    rw [List.nodup_cons] at distinct
    rw [List.foldl_cons, ih _ distinct.2, get?_modify]
    simp only [List.mem_cons]
    by_cases same : key = other
    · subst same
      simp [distinct.1]
    · simp [same, Ne.symm same]

theorem mem_keys_swapErase (table : Table α β) (key other : α) :
    other ∈ (table.swapErase key).keys ↔ other ≠ key ∧ other ∈ table.keys := by
  simp only [mem_keys_iff, get?_swapErase]
  by_cases same : key = other
  · simp [same]
  · simp [same, Ne.symm same]

end Table

end SoftSimplex
