import SoftSimplex.Proofs.Exchanging
import SoftSimplex.Proofs.Queue

/-!
What lasts in a tableau. An external symbol that has a row or a column goes on having one of them:
a pivot turns the one into the other, and a row that goes leaves the columns of its symbols behind,
with nothing in them if need be. Only an equation brings external symbols in.
-/

namespace SoftSimplex

namespace Tableau

/-! Columns that stay -/

section Columns

variable {K : Type} [Zero K] [Add K] [Mul K] [LT K] [DecidableLT K] [Scalar K]
  {tableau : Tableau K} {other : Symbol}

def Contains (tableau : Tableau K) (symbol : Symbol) : Prop :=
  tableau.isBasic symbol = true ∨ tableau.hasColumn symbol = true

omit [Zero K] [Add K] [Mul K] [LT K] [DecidableLT K] [Scalar K] in
theorem hasColumn_noteReport (column : tableau.hasColumn other = true) (basic : Symbol)
    (report : TermChange.Report) : (tableau.noteReport basic report).hasColumn other = true := by
  induction report generalizing tableau with
  | nil => exact column
  | cons entry rest ih => exact ih ((hasColumn_noteChange _ _ _ _ _).mpr (.inr column))

theorem hasColumn_substituteInRow (column : tableau.hasColumn other = true) (symbol : Symbol)
    (replacement : Expression K) (basic : Symbol) :
    (tableau.substituteInRow symbol replacement basic).hasColumn other = true := by
  have checked : ∀ current : Tableau K, current.hasColumn other = true → ∀ constant,
      (current.checkFeasible basic constant).hasColumn other = true := by
    intro current column constant
    unfold checkFeasible
    split <;> exact column
  unfold substituteInRow
  split
  · exact column
  · split
    · exact checked _ column _
    · refine checked _ (hasColumn_noteReport ?_ _ _) _
      exact column

theorem hasColumn_eliminate (column : tableau.hasColumn other = true) {symbol : Symbol}
    (different : other ≠ symbol) (replacement : Expression K) :
    (tableau.eliminate symbol replacement).hasColumn other = true := by
  have swept : ∀ (users : List Symbol) (current : Tableau K), current.hasColumn other = true →
      (users.foldl (fun current basic => current.substituteInRow symbol replacement basic)
        current).hasColumn other = true := by
    intro users
    induction users with
    | nil => exact fun _ column => column
    | cons basic rest ih =>
      exact fun current column => ih _ (hasColumn_substituteInRow column symbol replacement basic)
  have start : ({ tableau with columns := tableau.columns.swapErase symbol } :
      Tableau K).hasColumn other = true := by
    simp only [hasColumn, Table.contains_iff, Table.mem_keys_swapErase] at column ⊢
    exact ⟨different, column⟩
  unfold eliminate
  split <;> exact swept _ _ start

theorem pivot_columns [One K] [Neg K] [Div K] (entering leaving : Symbol) (limit : Nat)
    (before : Tableau K) :
    (pivot entering leaving limit before).Meets
      (fun _ after => ∀ symbol, symbol ≠ entering → before.hasColumn symbol = true →
        after.hasColumn symbol = true) fun _ _ => True := by
  refine pivot_reaches.imp ?_ fun _ _ _ => trivial
  rintro _ _ ⟨solved, rfl⟩ symbol different column
  refine (hasColumn_addRow _ _ _ _).mpr (.inr (hasColumn_eliminate ?_ different solved))
  rwa [hasColumn_removeRow]

end Columns

/-! Pivots -/

variable {K : Type} [Field K] [LinearOrder K] {before after : Tableau K}
  {entering leaving objective marker : Symbol} {inside : Symbol → Prop} {limit : Nat}

/-- A tableau in order, without zero coefficients, and the external symbols that it contains. -/
structure HasExternals (tableau : Tableau K) (inside : Symbol → Prop) : Prop where
  indexed : tableau.Indexed
  pruned : tableau.Pruned
  contains : ∀ symbol, symbol.isExternal = true → (tableau.Contains symbol ↔ inside symbol)

theorem Pivots.contains_iff {row solved : Expression K}
    (pivots : before.Pivots entering leaving row solved after) (indexed : before.Indexed)
    (pruned : before.Pruned)
    (columns : ∀ symbol, symbol ≠ entering → before.hasColumn symbol = true →
      after.hasColumn symbol = true) (symbol : Symbol) :
    after.Contains symbol ↔ before.Contains symbol := by
  constructor
  · have within : before.Within before.Contains := fun _ contained => contained
    exact pivots.within indexed within symbol
  · rintro (isBasic | column)
    · by_cases isLeaving : symbol = leaving
      · subst isLeaving
        have member := pivots.leaving_mem indexed (pivots.coefficient_ne_zero pruned)
        have found : after.row? entering = some solved := by rw [pivots.row?_after, if_pos rfl]
        exact .inr (pivots.indexed.hasColumn_of_occurs ⟨solved, found, member⟩)
      · exact .inl ((pivots.isBasic_after symbol).mpr (.inr ⟨isLeaving, isBasic⟩))
    · by_cases isEntering : symbol = entering
      · exact .inl ((pivots.isBasic_after symbol).mpr (.inl isEntering))
      · exact .inr (columns symbol isEntering column)

namespace HasExternals

theorem pivot (externals : before.HasExternals inside) (occurs : before.Occurs entering leaving) :
    (Tableau.pivot entering leaving limit before).Meets (fun _ after => after.HasExternals inside)
      fun _ _ => False := by
  refine ((pivot_meets externals.indexed occurs).and (pivot_columns entering leaving limit before)).imp
    ?_ fun _ _ never => never.1
  rintro _ after ⟨⟨row, solved, pivots⟩, columns⟩
  exact ⟨pivots.indexed, pivots.pruned_after externals.pruned, fun symbol isExternal =>
    (pivots.contains_iff externals.indexed externals.pruned columns symbol).trans
      (externals.contains symbol isExternal)⟩

theorem improve (externals : before.HasExternals inside) (objective : Symbol) :
    (Tableau.improve objective limit before).Meets (fun _ after => after.HasExternals inside)
      fun _ after => after.HasExternals inside := by
  unfold Tableau.improve
  rw [Action.meets_bind, Action.meets_get]
  cases before.row? objective with
  | none => exact externals
  | some costs =>
    dsimp only
    cases enteringSymbol? costs with
    | none => exact externals
    | some entering =>
      dsimp only
      cases leaves : before.leavingSymbol? entering with
      | none => exact externals
      | some leaving =>
        have occurs := (externals.indexed.agrees entering leaving).mp (leaving_mem leaves).1
        exact (Action.meets_bind _ _ _).mpr
          ((externals.pivot occurs).imp (fun _ _ kept => kept) fun _ _ never => never.elim)

theorem minimize (externals : before.HasExternals inside) (objective : Symbol) :
    (Tableau.minimize objective limit before).Meets (fun _ after => after.HasExternals inside)
      fun _ after => after.HasExternals inside := by
  refine Action.meets_loop (fun current => current.HasExternals inside)
    (fun current reached => ?_) externals
  refine (reached.improve objective).imp (fun again _ kept => ?_) fun _ _ kept => kept
  split <;> exact kept

omit [LinearOrder K] in
theorem dequeued (externals : before.HasExternals inside) : before.dequeued.HasExternals inside :=
  ⟨indexed_dequeued externals.indexed, externals.pruned, externals.contains⟩

theorem repairLast (externals : before.HasExternals inside) (objective : Symbol) :
    (Tableau.repairLast objective limit before).Meets (fun _ after => after.HasExternals inside)
      fun _ after => after.HasExternals inside := by
  have queued := externals.dequeued
  unfold Tableau.repairLast
  rw [Action.meets_bind, Action.meets_get]
  cases before.infeasible.lastKey? with
  | none => exact externals
  | some leaving =>
    dsimp only
    rw [Action.meets_bind, Action.meets_modify]
    cases found : before.row? leaving with
    | none => exact queued
    | some row =>
      dsimp only
      split
      · exact queued
      · cases before.row? objective with
        | none => exact queued
        | some costs =>
          dsimp only
          cases chosen : repairingSymbol? costs row with
          | none => exact queued
          | some entering =>
            have occurs : before.dequeued.Occurs entering leaving :=
              ⟨row, found, (repairing_mem chosen).1⟩
            exact (Action.meets_bind _ _ _).mpr
              ((queued.pivot occurs).imp (fun _ _ kept => kept) fun _ _ never => never.elim)

theorem repair (externals : before.HasExternals inside) (objective : Symbol) :
    (Tableau.repair objective limit before).Meets (fun _ after => after.HasExternals inside)
      fun _ after => after.HasExternals inside := by
  refine Action.meets_loop (fun current => current.HasExternals inside)
    (fun current reached => ?_) externals
  refine (reached.repairLast objective).imp (fun again _ kept => ?_) fun _ _ kept => kept
  split <;> exact kept

/-! Internal symbols that go -/

section Internal

variable {symbol : Symbol} (internal : symbol.isExternal = false)

include internal

omit [LinearOrder K] in
theorem removeRow (externals : before.HasExternals inside) :
    (before.removeRow symbol).HasExternals inside := by
  refine ⟨externals.indexed.removeRow symbol, externals.pruned.removeRow symbol,
    fun other isExternal => ?_⟩
  have different : other ≠ symbol := Symbol.ne_of_external isExternal internal
  rw [← externals.contains other isExternal, Contains, isBasic_removeRow, hasColumn_removeRow]
  simp only [different, ne_eq, not_false_eq_true, true_and, Contains]

omit [LinearOrder K] in
theorem removeColumn (externals : before.HasExternals inside) :
    (before.removeColumn symbol).HasExternals inside := by
  have indexed := externals.indexed
  refine ⟨indexed.removeColumn internal, externals.pruned.removeColumn indexed symbol,
    fun other isExternal => ?_⟩
  have different : other ≠ symbol := Symbol.ne_of_external isExternal internal
  rw [← externals.contains other isExternal, Contains, isBasic_removeColumn indexed,
    hasColumn_removeColumn]
  simp only [different, ne_eq, not_false_eq_true, true_and, Contains]

end Internal

omit [LinearOrder K] in
theorem removeColumns {symbols : List Symbol} (externals : before.HasExternals inside)
    (internal : ∀ symbol ∈ symbols, symbol.isExternal = false) :
    (symbols.foldl Tableau.removeColumn before).HasExternals inside := by
  induction symbols generalizing before with
  | nil => exact externals
  | cons symbol rest ih =>
    exact ih (externals.removeColumn (internal symbol List.mem_cons_self))
      fun other member => internal other (List.mem_cons_of_mem _ member)

theorem dropMarker (externals : before.HasExternals inside) (internal : marker.isExternal = false) :
    (Tableau.dropMarker marker limit before).Meets (fun _ after => after.HasExternals inside)
      fun _ _ => False := by
  unfold Tableau.dropMarker
  rw [Action.meets_bind, Action.meets_get]
  split
  · exact externals.removeRow internal
  · cases chosen : before.exitFor? marker with
    | none => exact externals.removeColumn internal
    | some leaving =>
      have occurs := (externals.indexed.agrees marker leaving).mp (exit_mem_column chosen)
      exact (Action.meets_bind _ _ _).mpr ((externals.pivot occurs).imp
        (fun _ _ kept => kept.removeRow internal) fun _ _ never => never.elim)

/-! Equations that come in -/

section Entering

variable {subject artificial : Symbol} {row : Expression K}

theorem addSolved (externals : before.HasExternals inside) (rowPruned : row.Pruned)
    (occurs : subject ∈ row.symbols)
    (parametric : ∀ symbol ∈ row.symbols, before.isBasic symbol = false) :
    (Tableau.addSolved subject row limit before).Meets
      (fun _ after => after.HasExternals fun symbol => inside symbol ∨ symbol ∈ row.symbols)
      fun _ _ => False := by
  have columns : (Tableau.addSolved subject row limit before).Meets
      (fun _ after => ∀ symbol, symbol ∈ row.symbols ∧ symbol ≠ subject ∨
        before.hasColumn symbol = true ∧ symbol ≠ subject → after.hasColumn symbol = true)
      fun _ _ => True := by
    unfold Tableau.addSolved
    cases solves : row.solveFor? subject with
    | none => trivial
    | some result =>
      obtain ⟨reciprocal, solved⟩ := result
      intro symbol present
      refine (hasColumn_addRow _ _ _ _).mpr (present.imp (fun inRow => ?_) fun old => ?_)
      · exact (Expression.mem_symbols_solveFor solves symbol).mpr ⟨inRow.2, inRow.1⟩
      · split
        · exact hasColumn_eliminate old.1 old.2 solved
        · exact old.1
  refine ((addSolved_meets externals.indexed occurs parametric).and columns).imp ?_
    fun _ _ never => never.1
  rintro _ after ⟨⟨solved, introduces⟩, columns⟩
  refine ⟨introduces.defines.indexed, introduces.pruned rowPruned externals.pruned,
    fun symbol isExternal => ?_⟩
  rw [← externals.contains symbol isExternal]
  constructor
  · have within : before.Within fun other => before.Contains other ∨ other ∈ row.symbols :=
      fun _ contained => .inl contained
    exact introduces.within within (.inr occurs) (fun _ member => .inr member) symbol
  · intro present
    by_cases isSubject : symbol = subject
    · exact .inl ((introduces.defines.isBasic symbol).mpr (.inl isSubject))
    · rcases present with (isBasic | column) | inRow
      · exact .inl ((introduces.defines.isBasic symbol).mpr (.inr isBasic))
      · exact .inr (columns symbol (.inr ⟨column, isSubject⟩))
      · exact .inr (columns symbol (.inl ⟨inRow, isSubject⟩))

variable (entry : before.Entry artificial objective row)

include entry

omit [LinearOrder K] in
theorem withArtificial (externals : before.HasExternals inside) (rowPruned : row.Pruned) :
    (before.withArtificial artificial objective row).HasExternals
      fun symbol => inside symbol ∨ symbol ∈ row.symbols := by
  refine ⟨entry.indexed_withArtificial, pruned_withArtificial externals.pruned rowPruned,
    fun symbol isExternal => ?_⟩
  have notArtificial : symbol ≠ artificial :=
    Symbol.ne_of_external isExternal (Symbol.internal_of_kind entry.isArtificial rfl)
  have notObjective : symbol ≠ objective :=
    Symbol.ne_of_external isExternal (Symbol.internal_of_kind entry.isObjective rfl)
  rw [← externals.contains symbol isExternal]
  simp only [Contains, Tableau.withArtificial, isBasic_addRow, hasColumn_addRow, notArtificial,
    notObjective, false_or]
  tauto

theorem addByArtificial (externals : before.HasExternals inside) (rowPruned : row.Pruned) :
    (Tableau.addByArtificial artificial objective row limit before).Meets
      (fun _ after => after.HasExternals fun symbol => inside symbol ∨ symbol ∈ row.symbols)
      fun _ _ => True := by
  have isArtificial : artificial.isExternal = false :=
    Symbol.internal_of_kind entry.isArtificial rfl
  have isObjective : objective.isExternal = false :=
    Symbol.internal_of_kind entry.isObjective rfl
  unfold Tableau.addByArtificial
  simp only [Action.meets_bind, Action.meets_report, Action.meets_modify, Action.meets_get]
  refine ((externals.withArtificial entry rowPruned).minimize objective).imp ?_ fun _ _ _ => trivial
  intro _ reached kept
  cases reached.row? objective with
  | none => trivial
  | some least =>
    dsimp only
    split
    · trivial
    · unfold expelArtificial
      rw [Action.meets_bind, Action.meets_get]
      cases found : reached.row? artificial with
      | none => exact (kept.removeColumn isArtificial).removeRow isObjective
      | some stays =>
        dsimp only
        split
        · exact (kept.removeRow isArtificial).removeRow isObjective
        · cases enters : stays.firstPivotable? with
          | none => trivial
          | some entering =>
            have occurs : reached.Occurs entering artificial :=
              ⟨stays, found, List.mem_of_find?_eq_some enters⟩
            exact (Action.meets_bind _ _ _).mpr ((kept.pivot occurs).imp
              (fun _ _ pivoted => (pivoted.removeColumn isArtificial).removeRow isObjective)
              fun _ _ never => never.elim)

end Entering

end HasExternals

end Tableau

end SoftSimplex
