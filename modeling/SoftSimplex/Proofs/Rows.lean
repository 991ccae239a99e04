import SoftSimplex.Proofs.Index
import SoftSimplex.Proofs.Reports

/-!
Rows that come, go and change. Each operation of the tableau has an equation for its rows and keeps
the index, as long as what it enters into a row is parametric.
-/

namespace SoftSimplex

namespace Tableau

variable {K : Type}

theorem row?_setRow (tableau : Tableau K) (basic other : Symbol) (row : Expression K) :
    (tableau.setRow basic row).row? other = if basic = other then some row else tableau.row? other :=
  tableau.rows.get?_insert basic other row

section AddRow

variable (tableau : Tableau K) (basic : Symbol)

theorem sameRows_foldl_noteInserted (symbols : List Symbol) :
    SameRows tableau
      (symbols.foldl (fun current symbol => current.noteInserted basic symbol) tableau) := by
  induction symbols generalizing tableau with
  | nil => exact SameRows.refl tableau
  | cons symbol rest ih => exact (sameRows_noteInserted tableau basic symbol).trans (ih _)

theorem mem_column_foldl_noteInserted (symbols : List Symbol) (other row : Symbol) :
    row ∈ (symbols.foldl (fun current symbol => current.noteInserted basic symbol) tableau).column
        other ↔ row = basic ∧ other ∈ symbols ∨ row ∈ tableau.column other := by
  induction symbols generalizing tableau with
  | nil => simp
  | cons symbol rest ih =>
    rw [List.foldl_cons, ih, mem_column_noteInserted, List.mem_cons]
    by_cases isBasic : row = basic <;> by_cases same : other = symbol <;> simp [isBasic, same]

theorem hasColumn_foldl_noteInserted (symbols : List Symbol) (other : Symbol) :
    (symbols.foldl (fun current symbol => current.noteInserted basic symbol) tableau).hasColumn
        other = true ↔ other ∈ symbols ∨ tableau.hasColumn other = true := by
  induction symbols generalizing tableau with
  | nil => simp
  | cons symbol rest ih =>
    rw [List.foldl_cons, ih, hasColumn_noteInserted, List.mem_cons]
    by_cases same : other = symbol <;> simp [same]

theorem listsParametric_foldl_noteInserted (symbols : List Symbol) {other : Symbol}
    (listed : tableau.ListsParametric other) :
    (symbols.foldl (fun current symbol => current.noteInserted basic symbol)
      tableau).ListsParametric other := by
  induction symbols generalizing tableau with
  | nil => exact listed
  | cons symbol rest ih => exact ih _ (tableau.listsParametric_noteInserted basic symbol listed)

variable (row : Expression K)

theorem row?_addRow (other : Symbol) :
    (tableau.addRow basic row).row? other = if basic = other then some row else tableau.row? other := by
  have same := (sameRows_foldl_noteInserted tableau basic row.symbols).rows
  unfold addRow
  rw [row?_setRow]
  congr 1
  split <;> simp only [row?, same]

theorem isBasic_addRow (other : Symbol) :
    (tableau.addRow basic row).isBasic other = true ↔ other = basic ∨ tableau.isBasic other = true := by
  simp only [isBasic_iff, row?_addRow]
  by_cases same : basic = other
  · simp [same]
  · simp [same, Ne.symm same]

theorem mem_column_addRow (other user : Symbol) :
    user ∈ (tableau.addRow basic row).column other ↔
      user = basic ∧ other ∈ row.symbols ∨ user ∈ tableau.column other := by
  rw [← mem_column_foldl_noteInserted]
  unfold addRow
  split <;> rfl

theorem hasColumn_addRow (other : Symbol) :
    (tableau.addRow basic row).hasColumn other = true ↔
      other ∈ row.symbols ∨ tableau.hasColumn other = true := by
  rw [← hasColumn_foldl_noteInserted tableau basic]
  unfold addRow
  split <;> rfl

theorem occurs_addRow (symbol other : Symbol) :
    (tableau.addRow basic row).Occurs symbol other ↔
      if basic = other then symbol ∈ row.symbols else tableau.Occurs symbol other := by
  unfold Occurs
  rw [row?_addRow]
  split <;> simp

variable {tableau basic row}

theorem listsBasic_addRow {symbol : Symbol} (listed : symbol ≠ basic → tableau.ListsBasic symbol)
    (wasListed : basic ∈ tableau.basicExternals.keys → basic.isExternal = true) :
    (tableau.addRow basic row).ListsBasic symbol := by
  have unchanged := (sameRows_foldl_noteInserted tableau basic row.symbols).basicExternals
  unfold ListsBasic
  rw [isBasic_addRow]
  by_cases same : symbol = basic
  · subst same
    by_cases isExternal : symbol.isExternal = true
    · simp [addRow, isExternal, setRow, Table.mem_keys_insert]
    · have missing : symbol ∉ tableau.basicExternals.keys := fun member =>
        isExternal (wasListed member)
      simp [addRow, isExternal, setRow, unchanged, missing]
  · have before := listed same
    unfold ListsBasic at before
    by_cases isExternal : basic.isExternal = true
    · simp [addRow, isExternal, setRow, Table.mem_keys_insert, unchanged, same, before]
    · simp [addRow, isExternal, setRow, unchanged, same, before]

theorem IndexedBut.addRow (indexed : tableau.IndexedBut (· = basic))
    (wasListed : basic ∈ tableau.basicExternals.keys → basic.isExternal = true)
    (noRow : tableau.isBasic basic = false) (noColumn : tableau.hasColumn basic = false)
    (parametric : ∀ symbol ∈ row.symbols, symbol ≠ basic ∧ tableau.isBasic symbol = false) :
    (tableau.addRow basic row).Indexed where
  agrees symbol user := by
    rw [mem_column_addRow, occurs_addRow, indexed.agrees]
    by_cases same : basic = user
    · subst same
      have unused := not_occurs_of_row? ((tableau.not_isBasic_iff basic).mp noRow) symbol
      simp [unused]
    · simp [same, Ne.symm same]
  parametric user isBasic := by
    rw [← Bool.not_eq_true, hasColumn_addRow]
    rintro (member | column)
    · rcases (isBasic_addRow tableau basic row user).mp isBasic with same | before
      · exact (parametric user member).1 same
      · rw [(parametric user member).2] at before
        cases before
    · rcases (isBasic_addRow tableau basic row user).mp isBasic with same | before
      · rw [same, noColumn] at column
        cases column
      · rw [indexed.parametric user before] at column
        cases column
  listsBasic symbol _ := listsBasic_addRow (indexed.listsBasic symbol) wasListed
  listsParametric symbol := by
    have listed := listsParametric_foldl_noteInserted tableau basic row.symbols
      (indexed.listsParametric symbol)
    unfold Tableau.addRow
    split <;> exact listed
  queued symbol member := by
    have same := (sameRows_foldl_noteInserted tableau basic row.symbols).infeasible
    have queued : symbol ∈ tableau.infeasible.keys := by
      rw [← same]
      unfold Tableau.addRow at member
      split at member <;> exact member
    obtain ⟨restricted, isBasic⟩ := indexed.queued symbol queued
    exact ⟨restricted, (isBasic_addRow tableau basic row symbol).mpr (Or.inr isBasic)⟩

theorem IndexedBut.addFreshRow (indexed : tableau.Indexed)
    (noRow : tableau.isBasic basic = false) (noColumn : tableau.hasColumn basic = false)
    (parametric : ∀ symbol ∈ row.symbols, symbol ≠ basic ∧ tableau.isBasic symbol = false) :
    (tableau.addRow basic row).Indexed :=
  (indexed.weaken fun _ impossible => impossible.elim).addRow
    (fun member => ((indexed.listsBasic basic not_false).mp member).1) noRow noColumn parametric

end AddRow

section RemoveRow

variable (tableau : Tableau K) (basic : Symbol)

theorem sameRows_foldl_noteRemoved (symbols : List Symbol) :
    SameRows tableau
      (symbols.foldl (fun current symbol => current.noteRemoved basic symbol) tableau) := by
  induction symbols generalizing tableau with
  | nil => exact SameRows.refl tableau
  | cons symbol rest ih =>
    exact (sameRows_noteChange tableau basic symbol .removed).trans (ih _)

theorem mem_column_foldl_noteRemoved (symbols : List Symbol) (other row : Symbol) :
    row ∈ (symbols.foldl (fun current symbol => current.noteRemoved basic symbol) tableau).column
        other ↔ ¬ (row = basic ∧ other ∈ symbols) ∧ row ∈ tableau.column other := by
  induction symbols generalizing tableau with
  | nil => simp
  | cons symbol rest ih =>
    rw [List.foldl_cons, ih, mem_column_noteRemoved, List.mem_cons]
    by_cases isBasic : row = basic <;> by_cases same : other = symbol <;> simp [isBasic, same]

theorem hasColumn_foldl_noteRemoved (symbols : List Symbol) (other : Symbol) :
    (symbols.foldl (fun current symbol => current.noteRemoved basic symbol) tableau).hasColumn
        other = tableau.hasColumn other := by
  induction symbols generalizing tableau with
  | nil => rfl
  | cons symbol rest ih => rw [List.foldl_cons, ih, hasColumn_noteRemoved]

theorem listsParametric_foldl_noteRemoved (symbols : List Symbol) {other : Symbol}
    (listed : tableau.ListsParametric other) :
    (symbols.foldl (fun current symbol => current.noteRemoved basic symbol)
      tableau).ListsParametric other := by
  induction symbols generalizing tableau with
  | nil => exact listed
  | cons symbol rest ih => exact ih _ (tableau.listsParametric_noteRemoved basic symbol listed)

theorem removeRow_of_row?_eq_none (missing : tableau.row? basic = none) :
    tableau.removeRow basic = tableau := by
  simp only [removeRow, missing]

theorem row?_removeRow (other : Symbol) :
    (tableau.removeRow basic).row? other = if basic = other then none else tableau.row? other := by
  cases found : tableau.row? basic with
  | none =>
    rw [removeRow_of_row?_eq_none tableau basic found]
    split
    · rename_i same
      rw [← same, found]
    · rfl
  | some row =>
    have same := (sameRows_foldl_noteRemoved
      { tableau with rows := tableau.rows.swapErase basic } basic row.symbols).rows
    simp only [removeRow, found]
    unfold row?
    rw [same]
    exact tableau.rows.get?_swapErase basic other

theorem row?_removeRow_eq_some_iff {other : Symbol} {row : Expression K} :
    (tableau.removeRow basic).row? other = some row ↔
      basic ≠ other ∧ tableau.row? other = some row := by
  rw [row?_removeRow]
  split <;> simp_all

theorem isBasic_removeRow (other : Symbol) :
    (tableau.removeRow basic).isBasic other = true ↔ other ≠ basic ∧ tableau.isBasic other = true := by
  simp only [isBasic_iff, row?_removeRow]
  by_cases same : basic = other
  · simp [same]
  · simp [same, Ne.symm same]

theorem hasColumn_removeRow (other : Symbol) :
    (tableau.removeRow basic).hasColumn other = tableau.hasColumn other := by
  unfold removeRow
  split
  · rfl
  · rename_i row found
    exact hasColumn_foldl_noteRemoved { tableau with rows := tableau.rows.swapErase basic } basic
      row.symbols other

theorem mem_column_removeRow (other user : Symbol) :
    user ∈ (tableau.removeRow basic).column other ↔
      ¬ (user = basic ∧ tableau.Occurs other basic) ∧ user ∈ tableau.column other := by
  cases found : tableau.row? basic with
  | none =>
    rw [removeRow_of_row?_eq_none tableau basic found]
    simp [not_occurs_of_row? found]
  | some row =>
    rw [occurs_iff_of_row? found]
    simp only [removeRow, found]
    exact mem_column_foldl_noteRemoved { tableau with rows := tableau.rows.swapErase basic } basic
      row.symbols other user

theorem occurs_removeRow (symbol other : Symbol) :
    (tableau.removeRow basic).Occurs symbol other ↔ other ≠ basic ∧ tableau.Occurs symbol other := by
  unfold Occurs
  rw [row?_removeRow]
  by_cases same : basic = other
  · simp [same]
  · simp [same, Ne.symm same]

variable {tableau} {pending : Symbol → Prop}

theorem IndexedBut.removeRow (indexed : tableau.IndexedBut pending) :
    (tableau.removeRow basic).IndexedBut pending where
  agrees symbol user := by
    rw [mem_column_removeRow, occurs_removeRow, indexed.agrees]
    by_cases same : user = basic
    · subst same
      simp
    · simp [same]
  parametric user isBasic := by
    rw [hasColumn_removeRow]
    exact indexed.parametric user ((isBasic_removeRow tableau basic user).mp isBasic).2
  listsBasic symbol settled := by
    have listed := indexed.listsBasic symbol settled
    unfold ListsBasic at listed ⊢
    rw [isBasic_removeRow]
    cases found : tableau.row? basic with
    | none =>
      have noRow := (tableau.not_isBasic_iff basic).mpr found
      rw [removeRow_of_row?_eq_none tableau basic found, listed]
      by_cases same : symbol = basic
      · simp [same, noRow]
      · simp [same]
    | some row =>
      have unchanged := (sameRows_foldl_noteRemoved
        { tableau with rows := tableau.rows.swapErase basic } basic row.symbols).basicExternals
      simp only [Tableau.removeRow, found]
      by_cases isExternal : basic.isExternal = true
      · rw [if_pos isExternal, unchanged, Table.mem_keys_swapErase, listed]
        by_cases same : symbol = basic <;> simp [same]
      · rw [if_neg isExternal, unchanged, listed]
        by_cases same : symbol = basic
        · simp [same, isExternal]
        · simp [same]
  listsParametric symbol := by
    have listed := indexed.listsParametric symbol
    unfold Tableau.removeRow
    split
    · exact listed
    · exact listsParametric_foldl_noteRemoved
        { tableau with rows := tableau.rows.swapErase basic } basic _ listed
  queued symbol member := by
    rw [isBasic_removeRow]
    cases found : tableau.row? basic with
    | none =>
      rw [removeRow_of_row?_eq_none tableau basic found] at member
      obtain ⟨restricted, isBasic⟩ := indexed.queued symbol member
      refine ⟨restricted, ?_, isBasic⟩
      rintro rfl
      rw [(tableau.not_isBasic_iff symbol).mpr found] at isBasic
      cases isBasic
    | some row =>
      have unchanged := (sameRows_foldl_noteRemoved
        { tableau with rows := tableau.rows.swapErase basic } basic row.symbols).infeasible
      simp only [Tableau.removeRow, found, unchanged, Table.mem_keys_swapErase] at member
      obtain ⟨restricted, isBasic⟩ := indexed.queued symbol member.2
      exact ⟨restricted, member.1, isBasic⟩

end RemoveRow

section RemoveColumn

variable {tableau : Tableau K} {pending : Symbol → Prop}

theorem column_nodup (tableau : Tableau K) (symbol : Symbol) : (tableau.column symbol).Nodup :=
  ((tableau.columns.get? symbol).getD ∅).distinct

theorem row?_removeColumn (indexed : tableau.IndexedBut pending) (symbol basic : Symbol) :
    (tableau.removeColumn symbol).row? basic = (tableau.row? basic).map (·.removeTerm symbol) := by
  simp only [removeColumn, row?]
  rw [Table.get?_foldl_modify _ _ (tableau.column_nodup symbol)]
  split
  · rfl
  · rename_i unused
    cases found : tableau.rows.get? basic with
    | none => rfl
    | some row =>
      have missing : symbol ∉ row.symbols := fun member =>
        unused ((indexed.agrees symbol basic).mpr ⟨row, found, member⟩)
      rw [Option.map_some, Expression.removeTerm_of_not_mem missing]

theorem isBasic_removeColumn (indexed : tableau.IndexedBut pending) (symbol basic : Symbol) :
    (tableau.removeColumn symbol).isBasic basic = tableau.isBasic basic := by
  rw [Bool.eq_iff_iff]
  simp only [isBasic_iff, row?_removeColumn indexed]
  cases tableau.row? basic <;> simp

theorem hasColumn_removeColumn (tableau : Tableau K) (symbol other : Symbol) :
    (tableau.removeColumn symbol).hasColumn other = true ↔
      other ≠ symbol ∧ tableau.hasColumn other = true := by
  simp only [removeColumn, hasColumn, Table.contains_iff, Table.mem_keys_swapErase]

theorem mem_column_removeColumn (tableau : Tableau K) (symbol other basic : Symbol) :
    basic ∈ (tableau.removeColumn symbol).column other ↔
      other ≠ symbol ∧ basic ∈ tableau.column other := by
  simp only [removeColumn, column, Table.get?_swapErase]
  by_cases same : symbol = other
  · simp [same, Table.keys, EmptyCollection.emptyCollection, Table.empty]
  · simp [same, Ne.symm same]

theorem occurs_removeColumn (indexed : tableau.IndexedBut pending) (symbol other basic : Symbol) :
    (tableau.removeColumn symbol).Occurs other basic ↔
      other ≠ symbol ∧ tableau.Occurs other basic := by
  unfold Occurs
  rw [row?_removeColumn indexed]
  cases tableau.row? basic <;> simp [Expression.mem_symbols_removeTerm]

theorem IndexedBut.removeColumn (indexed : tableau.IndexedBut pending) {symbol : Symbol}
    (isInternal : symbol.isExternal = false) : (tableau.removeColumn symbol).IndexedBut pending where
  agrees other basic := by
    rw [mem_column_removeColumn, occurs_removeColumn indexed, indexed.agrees]
  parametric basic isBasic := by
    rw [isBasic_removeColumn indexed] at isBasic
    rw [← Bool.not_eq_true, hasColumn_removeColumn, indexed.parametric basic isBasic]
    simp
  listsBasic other settled := by
    have listed := indexed.listsBasic other settled
    unfold ListsBasic at listed ⊢
    rw [isBasic_removeColumn indexed]
    simpa [Tableau.removeColumn, isInternal] using listed
  listsParametric other := by
    have listed := indexed.listsParametric other
    unfold ListsParametric at listed ⊢
    rw [hasColumn_removeColumn]
    simp only [Tableau.removeColumn, isInternal]
    by_cases same : other = symbol
    · subst same
      simp [listed, isInternal]
    · simpa [same] using listed
  queued other member := by
    rw [isBasic_removeColumn indexed]
    exact indexed.queued other member

end RemoveColumn

section Reports

variable (tableau : Tableau K) (basic : Symbol)

theorem sameRows_noteReport (report : TermChange.Report) :
    SameRows tableau (tableau.noteReport basic report) := by
  induction report generalizing tableau with
  | nil => exact SameRows.refl tableau
  | cons entry rest ih => exact (sameRows_noteChange tableau basic entry.1 entry.2).trans (ih _)

theorem mem_column_noteReport_of_ne (report : TermChange.Report) {other user : Symbol}
    (different : user ≠ basic) :
    user ∈ (tableau.noteReport basic report).column other ↔ user ∈ tableau.column other := by
  induction report generalizing tableau with
  | nil => rfl
  | cons entry rest ih =>
    rw [noteReport, List.foldl_cons]
    refine (ih _).trans ?_
    rw [mem_column_noteChange, if_neg fun same => different same.1]

theorem hasColumn_of_noteReport {report : TermChange.Report} {other : Symbol}
    (column : (tableau.noteReport basic report).hasColumn other = true) :
    other ∈ report.map Prod.fst ∨ tableau.hasColumn other = true := by
  induction report generalizing tableau with
  | nil => exact Or.inr column
  | cons entry rest ih =>
    rcases ih _ column with member | earlier
    · exact Or.inl (List.mem_cons_of_mem _ member)
    · rcases (hasColumn_noteChange tableau basic entry.1 entry.2 other).mp earlier with new | old
      · exact Or.inl (by simp [new.1])
      · exact Or.inr old

theorem listsParametric_noteReport (report : TermChange.Report) {other : Symbol}
    (listed : tableau.ListsParametric other) :
    (tableau.noteReport basic report).ListsParametric other := by
  induction report generalizing tableau with
  | nil => exact listed
  | cons entry rest ih =>
    exact ih _ (tableau.listsParametric_noteChange basic entry.1 entry.2 listed)

/-- Entering a report replays it: what the row is listed for beforehand, as a set of symbols,
becomes what the replay makes of that set. -/
theorem mem_column_noteReport_replay {known : Finset Symbol}
    (agrees : ∀ symbol, basic ∈ tableau.column symbol ↔ symbol ∈ known)
    (report : TermChange.Report) (symbol : Symbol) :
    basic ∈ (tableau.noteReport basic report).column symbol ↔ symbol ∈ report.replay known := by
  induction report generalizing tableau known with
  | nil => exact agrees symbol
  | cons entry rest ih =>
    refine ih (tableau.noteChange basic entry.1 entry.2) fun other => ?_
    rw [mem_column_noteChange, TermChange.mem_apply]
    simp only [true_and, agrees]

variable [Scalar K] [Add K] [Mul K] {factor : K} {added : List (Symbol × K)}
  {expression : Expression K}

theorem mem_added_of_report {symbol : Symbol}
    (reported : symbol ∈ (Expression.addTerms factor added expression).2.map Prod.fst) :
    symbol ∈ added.map Prod.fst :=
  (Expression.reported_sublist factor added expression).subset reported

theorem mem_column_noteReport
    (agrees : ∀ symbol, basic ∈ tableau.column symbol ↔ symbol ∈ expression.symbols)
    (symbol : Symbol) :
    basic ∈ (tableau.noteReport basic
        (Expression.addTerms factor added expression).2).column symbol ↔
      symbol ∈ (Expression.addTerms factor added expression).1.symbols := by
  have known : ∀ other, basic ∈ tableau.column other ↔ other ∈ expression.occurring :=
    fun other => (agrees other).trans Expression.mem_occurring.symm
  rw [mem_column_noteReport_replay tableau basic known, ← Expression.occurring_addTerms,
    Expression.mem_occurring]

end Reports

section Updates

variable {tableau after : Tableau K} {pending : Symbol → Prop} {basic : Symbol}
  {row next : Expression K}

namespace SameRows

variable {symbol user : Symbol} (same : SameRows (tableau.setRow basic next) after)

include same

theorem row?_of_setRow (user : Symbol) :
    after.row? user = if basic = user then some next else tableau.row? user := by
  rw [same.row?, row?_setRow]

theorem occurs_of_setRow :
    after.Occurs symbol user ↔
      if basic = user then symbol ∈ next.symbols else tableau.Occurs symbol user := by
  unfold Occurs
  rw [same.row?_of_setRow]
  split <;> simp

theorem isBasic_of_setRow (found : tableau.row? basic = some row) (user : Symbol) :
    after.isBasic user = tableau.isBasic user := by
  rw [Bool.eq_iff_iff, isBasic_iff, isBasic_iff, same.row?_of_setRow]
  by_cases isHere : basic = user
  · subst isHere
    simp [found]
  · simp [isHere]

end SameRows

theorem IndexedBut.replaceRow (indexed : tableau.IndexedBut pending)
    (found : tableau.row? basic = some row) (same : SameRows (tableau.setRow basic next) after)
    (agrees : ∀ symbol, basic ∈ after.column symbol ↔ symbol ∈ next.symbols)
    (others : ∀ symbol user, user ≠ basic →
      (user ∈ after.column symbol ↔ user ∈ tableau.column symbol))
    (columns : ∀ symbol, after.hasColumn symbol = true →
      tableau.hasColumn symbol = true ∨ tableau.isBasic symbol = false)
    (listed : ∀ symbol, after.ListsParametric symbol) : after.IndexedBut pending := by
  have bases := same.isBasic_of_setRow found
  constructor
  · intro symbol user
    rw [same.occurs_of_setRow]
    by_cases isHere : basic = user
    · subst isHere
      rw [agrees, if_pos rfl]
    · rw [if_neg isHere, others symbol user (Ne.symm isHere), indexed.agrees]
  · intro user isBasic
    rw [bases] at isBasic
    rw [← Bool.not_eq_true]
    intro column
    rcases columns user column with before | notBasic
    · rw [indexed.parametric user isBasic] at before
      cases before
    · rw [isBasic] at notBasic
      cases notBasic
  · intro symbol settled
    unfold ListsBasic
    rw [bases, same.basicExternals]
    exact indexed.listsBasic symbol settled
  · exact listed
  · intro symbol member
    rw [same.infeasible] at member
    rw [bases]
    exact indexed.queued symbol member

theorem IndexedBut.changeTerm (indexed : tableau.IndexedBut pending)
    (found : tableau.row? basic = some row) {symbol : Symbol} {change : TermChange}
    (notBasic : tableau.isBasic symbol = false)
    (members : ∀ other, other ∈ next.symbols ↔
      if other = symbol then change.after (symbol ∈ row.symbols) else other ∈ row.symbols) :
    ((tableau.setRow basic next).noteChange basic symbol change).IndexedBut pending := by
  have agreed : ∀ other, basic ∈ tableau.column other ↔ other ∈ row.symbols := by
    intro other
    rw [indexed.agrees, occurs_iff_of_row? found]
  refine indexed.replaceRow found (sameRows_noteChange _ _ _ _) ?_ ?_ ?_ ?_
  · intro other
    rw [mem_column_noteChange, members]
    by_cases same : other = symbol
    · subst same
      have current : basic ∈ (tableau.setRow basic next).column other ↔ other ∈ row.symbols :=
        agreed other
      simp [current]
    · have current : basic ∈ (tableau.setRow basic next).column other ↔ other ∈ row.symbols :=
        agreed other
      simp [same, current]
  · intro other user different
    rw [mem_column_noteChange, if_neg fun same => different same.1]
    rfl
  · intro other column
    rcases (hasColumn_noteChange _ _ _ _ _).mp column with new | old
    · exact Or.inr (new.1 ▸ notBasic)
    · exact Or.inl old
  · intro other
    exact listsParametric_noteChange _ _ _ _ (indexed.listsParametric other)

variable [Scalar K]

theorem row?_setTermInRow (tableau : Tableau K) (basic symbol other : Symbol) (value : K) :
    (tableau.setTermInRow basic symbol value).row? other =
      if basic = other then (tableau.row? basic).map fun row => (row.setTerm symbol value).1
      else tableau.row? other := by
  unfold setTermInRow
  cases found : tableau.row? basic with
  | none =>
    by_cases same : basic = other
    · simp [← same, found]
    · simp [same]
  | some row =>
    simp only [(sameRows_noteChange _ _ _ _).row?, row?_setRow, Option.map_some]

theorem row?_addTermToRow [Add K] (tableau : Tableau K) (basic symbol other : Symbol)
    (amount : K) :
    (tableau.addTermToRow basic symbol amount).row? other =
      if basic = other then (tableau.row? basic).map fun row => (row.addTerm symbol amount).1
      else tableau.row? other := by
  unfold addTermToRow
  cases found : tableau.row? basic with
  | none =>
    by_cases same : basic = other
    · simp [← same, found]
    · simp [same]
  | some row =>
    simp only [(sameRows_noteChange _ _ _ _).row?, row?_setRow, Option.map_some]

theorem row?_addScaledToRow [Add K] [Mul K] (tableau : Tableau K) (basic other : Symbol)
    (expression : Expression K) (factor : K) :
    (tableau.addScaledToRow basic expression factor).row? other =
      if basic = other then (tableau.row? basic).map fun row => row.addScaled expression factor
      else tableau.row? other := by
  unfold addScaledToRow
  cases found : tableau.row? basic with
  | none =>
    by_cases same : basic = other
    · simp [← same, found]
    · simp [same]
  | some row =>
    simp only [(sameRows_noteReport _ _ _).row?, row?_setRow, Option.map_some]
    rfl

theorem IndexedBut.setTermInRow (indexed : tableau.IndexedBut pending) {symbol : Symbol}
    (notBasic : tableau.isBasic symbol = false) (value : K) :
    (tableau.setTermInRow basic symbol value).IndexedBut pending := by
  unfold Tableau.setTermInRow
  split
  · exact indexed
  · rename_i row found
    exact indexed.changeTerm found notBasic fun other => row.mem_symbols_setTerm symbol other value

theorem IndexedBut.addTermToRow [Add K] (indexed : tableau.IndexedBut pending) {symbol : Symbol}
    (notBasic : tableau.isBasic symbol = false) (amount : K) :
    (tableau.addTermToRow basic symbol amount).IndexedBut pending := by
  unfold Tableau.addTermToRow
  split
  · exact indexed
  · rename_i row found
    exact indexed.changeTerm found notBasic fun other => row.mem_symbols_addTerm symbol other amount

theorem IndexedBut.addScaledToRow [Add K] [Mul K] (indexed : tableau.IndexedBut pending)
    {expression : Expression K}
    (parametric : ∀ symbol ∈ expression.symbols, tableau.isBasic symbol = false) (factor : K) :
    (tableau.addScaledToRow basic expression factor).IndexedBut pending := by
  unfold Tableau.addScaledToRow
  split
  · exact indexed
  · rename_i row found
    refine indexed.replaceRow found (sameRows_noteReport _ _ _) ?_ ?_ ?_ ?_
    · have agrees : ∀ symbol, basic ∈ tableau.column symbol ↔
          symbol ∈ (row.increaseConstant (expression.constant * factor)).symbols :=
        fun symbol => (indexed.agrees symbol basic).trans (occurs_iff_of_row? found symbol)
      exact mem_column_noteReport _ _ agrees
    · intro symbol user different
      exact mem_column_noteReport_of_ne _ _ _ different
    · intro symbol column
      rcases hasColumn_of_noteReport _ _ column with reported | before
      · exact Or.inr (parametric symbol (mem_added_of_report reported))
      · exact Or.inl before
    · intro symbol
      exact listsParametric_noteReport _ _ _ (indexed.listsParametric symbol)

end Updates

end Tableau

end SoftSimplex
