/-!
Tables that remember the order in which their keys came. Replacing a value keeps its key's place.
A key can be erased in two ways: `erase` closes the gap, `swapErase` moves the last entry into it.
-/

namespace SoftSimplex

namespace Entries

variable {α β : Type} [DecidableEq α]

def get? (key : α) : List (α × β) → Option β
  | [] => none
  | entry :: rest => if entry.1 = key then some entry.2 else get? key rest

def insert (key : α) (value : β) : List (α × β) → List (α × β)
  | [] => [(key, value)]
  | entry :: rest => if entry.1 = key then (key, value) :: rest else entry :: insert key value rest

def modify (key : α) (change : β → β) : List (α × β) → List (α × β)
  | [] => []
  | entry :: rest =>
    if entry.1 = key then (key, change entry.2) :: rest else entry :: modify key change rest

def erase (key : α) : List (α × β) → List (α × β)
  | [] => []
  | entry :: rest => if entry.1 = key then rest else entry :: erase key rest

def swapErase (key : α) : List (α × β) → List (α × β)
  | [] => []
  | entry :: rest =>
    if entry.1 = key then
      match rest.getLast? with
      | none => []
      | some last => last :: rest.dropLast
    else entry :: swapErase key rest

theorem keys_insert (key : α) (value : β) (entries : List (α × β)) :
    (insert key value entries).map Prod.fst =
      if key ∈ entries.map Prod.fst then entries.map Prod.fst
      else entries.map Prod.fst ++ [key] := by
  induction entries with
  | nil => simp [insert]
  | cons entry rest ih =>
    by_cases same : entry.1 = key
    · simp [insert, same]
    · have other : ¬ key = entry.1 := fun equal => same equal.symm
      simp only [insert, same, if_false, List.map_cons, ih, List.mem_cons, other, false_or]
      split <;> simp

theorem keys_modify (key : α) (change : β → β) (entries : List (α × β)) :
    (modify key change entries).map Prod.fst = entries.map Prod.fst := by
  induction entries with
  | nil => rfl
  | cons entry rest ih =>
    by_cases same : entry.1 = key
    · simp [modify, same]
    · simp [modify, same, ih]

theorem erase_sublist (key : α) (entries : List (α × β)) :
    (erase key entries).Sublist entries := by
  induction entries with
  | nil => exact List.Sublist.refl []
  | cons entry rest ih =>
    by_cases same : entry.1 = key
    · simp [erase, same]
    · simp [erase, same, ih]

theorem swapErase_perm (key : α) (entries : List (α × β)) :
    (swapErase key entries).Perm (erase key entries) := by
  induction entries with
  | nil => exact List.Perm.refl []
  | cons entry rest ih =>
    by_cases same : entry.1 = key
    · simp only [swapErase, erase, same, if_true]
      split
      · rename_i noLast
        rw [List.getLast?_eq_none_iff.mp noLast]
      · rename_i last found
        obtain ⟨front, shape⟩ := List.getLast?_eq_some_iff.mp found
        subst shape
        simpa using (List.perm_append_singleton last front).symm
    · simpa [swapErase, erase, same] using ih

theorem insert_distinct {entries : List (α × β)} (key : α) (value : β)
    (distinct : (entries.map Prod.fst).Nodup) :
    ((insert key value entries).map Prod.fst).Nodup := by
  rw [keys_insert]
  split
  · exact distinct
  · rename_i fresh
    exact List.nodup_append.mpr ⟨distinct, by simp, by
      intro left leftMember right rightMember equal
      simp only [List.mem_singleton] at rightMember
      subst right left
      exact fresh leftMember⟩

theorem modify_distinct {entries : List (α × β)} (key : α) (change : β → β)
    (distinct : (entries.map Prod.fst).Nodup) :
    ((modify key change entries).map Prod.fst).Nodup := by
  rw [keys_modify]
  exact distinct

theorem erase_distinct {entries : List (α × β)} (key : α)
    (distinct : (entries.map Prod.fst).Nodup) :
    ((erase key entries).map Prod.fst).Nodup :=
  List.Pairwise.sublist ((erase_sublist key entries).map Prod.fst) distinct

theorem swapErase_distinct {entries : List (α × β)} (key : α)
    (distinct : (entries.map Prod.fst).Nodup) :
    ((swapErase key entries).map Prod.fst).Nodup :=
  ((swapErase_perm key entries).map Prod.fst).nodup_iff.mpr (erase_distinct key distinct)

end Entries

/-- Entries in order of arrival, no key twice. -/
structure Table (α β : Type) where
  entries : List (α × β)
  distinct : (entries.map Prod.fst).Nodup

namespace Table

variable {α β γ : Type}

def empty : Table α β := ⟨[], List.nodup_nil⟩

instance : EmptyCollection (Table α β) := ⟨empty⟩
instance : Inhabited (Table α β) := ⟨empty⟩

def keys (table : Table α β) : List α := table.entries.map Prod.fst

def values (table : Table α β) : List β := table.entries.map Prod.snd

def size (table : Table α β) : Nat := table.entries.length

def isEmpty (table : Table α β) : Bool := table.entries.isEmpty

def mapValues (change : β → γ) (table : Table α β) : Table α γ where
  entries := table.entries.map fun entry => (entry.1, change entry.2)
  distinct := by simpa [Function.comp_def] using table.distinct

def lastKey? (table : Table α β) : Option α := table.entries.getLast?.map Prod.fst

def dropLast (table : Table α β) : Table α β where
  entries := table.entries.dropLast
  distinct := List.Pairwise.sublist (table.entries.dropLast_sublist.map Prod.fst) table.distinct

variable [DecidableEq α]

def get? (table : Table α β) (key : α) : Option β := Entries.get? key table.entries

def contains (table : Table α β) (key : α) : Bool := (table.get? key).isSome

def insert (table : Table α β) (key : α) (value : β) : Table α β :=
  ⟨Entries.insert key value table.entries, Entries.insert_distinct key value table.distinct⟩

def modify (table : Table α β) (key : α) (change : β → β) : Table α β :=
  ⟨Entries.modify key change table.entries, Entries.modify_distinct key change table.distinct⟩

def erase (table : Table α β) (key : α) : Table α β :=
  ⟨Entries.erase key table.entries, Entries.erase_distinct key table.distinct⟩

def swapErase (table : Table α β) (key : α) : Table α β :=
  ⟨Entries.swapErase key table.entries, Entries.swapErase_distinct key table.distinct⟩

def upsert (table : Table α β) (key : α) (start : β) (change : β → β) : Table α β :=
  table.insert key (change ((table.get? key).getD start))

end Table

end SoftSimplex
