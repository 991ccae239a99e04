import SoftSimplex.Proofs.Symbols
import SoftSimplex.Tableau

/-!
The index of a tableau. `Indexed` says that rows and columns agree, that a basic symbol has no
column, that the lists of external symbols are exact and that queued rows exist; the operations on
rows and columns keep it, whatever the numbers are.
-/

namespace SoftSimplex

namespace Tableau

variable {K : Type}

def Occurs (tableau : Tableau K) (symbol basic : Symbol) : Prop :=
  ∃ row, tableau.row? basic = some row ∧ symbol ∈ row.symbols

def ListsBasic (tableau : Tableau K) (symbol : Symbol) : Prop :=
  symbol ∈ tableau.basicExternals.keys ↔ symbol.isExternal = true ∧ tableau.isBasic symbol = true

def ListsParametric (tableau : Tableau K) (symbol : Symbol) : Prop :=
  symbol ∈ tableau.parametricExternals.keys ↔
    symbol.isExternal = true ∧ tableau.hasColumn symbol = true

/-- Pending symbols may be listed as basic before they have a row. -/
structure IndexedBut (tableau : Tableau K) (pending : Symbol → Prop) : Prop where
  agrees : ∀ symbol basic, basic ∈ tableau.column symbol ↔ tableau.Occurs symbol basic
  parametric : ∀ basic, tableau.isBasic basic = true → tableau.hasColumn basic = false
  listsBasic : ∀ symbol, ¬ pending symbol → tableau.ListsBasic symbol
  listsParametric : ∀ symbol, tableau.ListsParametric symbol
  queued : ∀ symbol ∈ tableau.infeasible.keys,
    symbol.isRestricted = true ∧ tableau.isBasic symbol = true

abbrev Indexed (tableau : Tableau K) : Prop := tableau.IndexedBut fun _ => False

theorem IndexedBut.weaken {tableau : Tableau K} {pending more : Symbol → Prop}
    (indexed : tableau.IndexedBut pending) (weaker : ∀ symbol, pending symbol → more symbol) :
    tableau.IndexedBut more :=
  { indexed with
    listsBasic := fun symbol free => indexed.listsBasic symbol fun held => free (weaker symbol held) }

theorem isBasic_iff (tableau : Tableau K) (basic : Symbol) :
    tableau.isBasic basic = true ↔ ∃ row, tableau.row? basic = some row := by
  rw [isBasic, Table.contains_iff, Table.mem_keys_iff, row?]

theorem isBasic_of_row? {tableau : Tableau K} {basic : Symbol} {row : Expression K}
    (found : tableau.row? basic = some row) : tableau.isBasic basic = true :=
  (tableau.isBasic_iff basic).mpr ⟨row, found⟩

theorem not_isBasic_iff (tableau : Tableau K) (basic : Symbol) :
    tableau.isBasic basic = false ↔ tableau.row? basic = none := by
  rw [← Bool.not_eq_true, isBasic_iff]
  cases tableau.row? basic <;> simp

theorem occurs_iff_of_row? {tableau : Tableau K} {basic : Symbol} {row : Expression K}
    (found : tableau.row? basic = some row) (symbol : Symbol) :
    tableau.Occurs symbol basic ↔ symbol ∈ row.symbols := by
  constructor
  · rintro ⟨other, foundOther, member⟩
    rw [found] at foundOther
    cases foundOther
    exact member
  · exact fun member => ⟨row, found, member⟩

theorem not_occurs_of_row? {tableau : Tableau K} {basic : Symbol}
    (missing : tableau.row? basic = none) (symbol : Symbol) : ¬ tableau.Occurs symbol basic := by
  rintro ⟨row, found, _⟩
  rw [missing] at found
  cases found

theorem hasColumn_of_mem_column {tableau : Tableau K} {symbol basic : Symbol}
    (member : basic ∈ tableau.column symbol) : tableau.hasColumn symbol = true := by
  rw [hasColumn, Table.contains_iff, Table.mem_keys_iff]
  unfold column at member
  cases found : tableau.columns.get? symbol with
  | none =>
    rw [found] at member
    cases member
  | some rows => exact ⟨rows, rfl⟩

namespace IndexedBut

variable {tableau : Tableau K} {pending : Symbol → Prop}

theorem hasColumn_of_occurs (indexed : tableau.IndexedBut pending) {symbol basic : Symbol}
    (occurs : tableau.Occurs symbol basic) : tableau.hasColumn symbol = true :=
  hasColumn_of_mem_column ((indexed.agrees symbol basic).mpr occurs)

theorem not_basic_of_occurs (indexed : tableau.IndexedBut pending) {symbol basic : Symbol}
    (occurs : tableau.Occurs symbol basic) : tableau.isBasic symbol = false := by
  rw [← Bool.not_eq_true]
  intro isBasic
  have column := indexed.hasColumn_of_occurs occurs
  rw [indexed.parametric symbol isBasic] at column
  cases column

theorem not_basic_of_mem (indexed : tableau.IndexedBut pending) {symbol basic : Symbol}
    {row : Expression K} (found : tableau.row? basic = some row) (member : symbol ∈ row.symbols) :
    tableau.isBasic symbol = false :=
  indexed.not_basic_of_occurs ⟨row, found, member⟩

theorem not_mem_of_basic (indexed : tableau.IndexedBut pending) {symbol basic : Symbol}
    {row : Expression K} (isBasic : tableau.isBasic symbol = true)
    (found : tableau.row? basic = some row) : symbol ∉ row.symbols := by
  intro member
  rw [indexed.not_basic_of_mem found member] at isBasic
  cases isBasic

end IndexedBut

/-! Entries of the index -/

section Notes

variable (tableau : Tableau K) (basic symbol : Symbol)

theorem mem_column_noteInserted (other row : Symbol) :
    row ∈ (tableau.noteInserted basic symbol).column other ↔
      row = basic ∧ other = symbol ∨ row ∈ tableau.column other := by
  simp only [noteInserted, column, Table.get?_upsert]
  by_cases same : symbol = other
  · subst same
    simp [Table.mem_keys_insert]
  · simp [same, Ne.symm same]

theorem hasColumn_noteInserted (other : Symbol) :
    (tableau.noteInserted basic symbol).hasColumn other = true ↔
      other = symbol ∨ tableau.hasColumn other = true := by
  simp only [noteInserted, hasColumn, Table.contains_iff, Table.upsert, Table.mem_keys_insert]

theorem mem_column_noteRemoved (other row : Symbol) :
    row ∈ (tableau.noteRemoved basic symbol).column other ↔
      ¬ (row = basic ∧ other = symbol) ∧ row ∈ tableau.column other := by
  simp only [noteRemoved, column, Table.get?_modify]
  by_cases same : symbol = other
  · subst same
    cases tableau.columns.get? symbol with
    | none => simp [Table.keys, EmptyCollection.emptyCollection, Table.empty]
    | some rows => simp [Table.mem_keys_swapErase]
  · simp [same, Ne.symm same]

theorem hasColumn_noteRemoved (other : Symbol) :
    (tableau.noteRemoved basic symbol).hasColumn other = tableau.hasColumn other := by
  rw [Bool.eq_iff_iff]
  simp only [noteRemoved, hasColumn, Table.contains_iff, Table.mem_keys_modify]

theorem listsParametric_noteInserted {other : Symbol} (listed : tableau.ListsParametric other) :
    (tableau.noteInserted basic symbol).ListsParametric other := by
  unfold ListsParametric at listed ⊢
  rw [hasColumn_noteInserted]
  simp only [noteInserted]
  by_cases same : other = symbol
  · subst same
    split
    · rename_i isExternal
      simp [isExternal, Table.mem_keys_insert]
    · rename_i isInternal
      simp [listed, isInternal]
  · split
    · simp [Table.mem_keys_insert, same, listed]
    · simp [same, listed]

theorem listsParametric_noteRemoved {other : Symbol} (listed : tableau.ListsParametric other) :
    (tableau.noteRemoved basic symbol).ListsParametric other := by
  unfold ListsParametric at listed ⊢
  rw [hasColumn_noteRemoved]
  exact listed

end Notes

structure SameRows (before after : Tableau K) : Prop where
  rows : after.rows = before.rows
  infeasible : after.infeasible = before.infeasible
  basicExternals : after.basicExternals = before.basicExternals

namespace SameRows

variable {before middle after : Tableau K}

theorem refl (tableau : Tableau K) : SameRows tableau tableau := ⟨rfl, rfl, rfl⟩

theorem trans (first : SameRows before middle) (second : SameRows middle after) :
    SameRows before after :=
  ⟨second.rows.trans first.rows, second.infeasible.trans first.infeasible,
    second.basicExternals.trans first.basicExternals⟩

theorem row? (same : SameRows before after) (basic : Symbol) :
    after.row? basic = before.row? basic := by
  rw [Tableau.row?, Tableau.row?, same.rows]

end SameRows

theorem sameRows_noteInserted (tableau : Tableau K) (basic symbol : Symbol) :
    SameRows tableau (tableau.noteInserted basic symbol) := ⟨rfl, rfl, rfl⟩

theorem sameRows_noteChange (tableau : Tableau K) (basic symbol : Symbol) (change : TermChange) :
    SameRows tableau (tableau.noteChange basic symbol change) := by
  cases change <;> exact ⟨rfl, rfl, rfl⟩

theorem mem_column_noteChange (tableau : Tableau K) (basic symbol : Symbol) (change : TermChange)
    (other row : Symbol) :
    row ∈ (tableau.noteChange basic symbol change).column other ↔
      if row = basic ∧ other = symbol then change.after (basic ∈ tableau.column symbol)
      else row ∈ tableau.column other := by
  by_cases here : row = basic ∧ other = symbol
  · obtain ⟨sameRow, sameSymbol⟩ := here
    subst sameRow sameSymbol
    cases change <;>
      simp [noteChange, mem_column_noteInserted, mem_column_noteRemoved, TermChange.after]
  · cases change <;>
      simp [noteChange, mem_column_noteInserted, mem_column_noteRemoved, here]

theorem hasColumn_noteChange (tableau : Tableau K) (basic symbol : Symbol) (change : TermChange)
    (other : Symbol) :
    (tableau.noteChange basic symbol change).hasColumn other = true ↔
      other = symbol ∧ change = .inserted ∨ tableau.hasColumn other = true := by
  cases change <;> simp [noteChange, hasColumn_noteInserted, hasColumn_noteRemoved]

theorem listsParametric_noteChange (tableau : Tableau K) (basic symbol : Symbol)
    (change : TermChange) {other : Symbol} (listed : tableau.ListsParametric other) :
    (tableau.noteChange basic symbol change).ListsParametric other := by
  cases change with
  | inserted => exact tableau.listsParametric_noteInserted basic symbol listed
  | removed => exact tableau.listsParametric_noteRemoved basic symbol listed
  | updated => exact listed
  | unchanged => exact listed

end Tableau

end SoftSimplex
