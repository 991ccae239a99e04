import SoftSimplex.Proofs.Renaming

/-!
Renaming the ids of a tableau. Every change of a tableau and every choice among its symbols turns on
kinds, on numbers and on the order of arrival, so that it carries over to new names.
-/

namespace SoftSimplex

theorem least?_map {K α β : Type} [LT K] [DecidableLT K] (accept : K → Bool) (change : α → β)
    (candidates : List (α × K)) :
    least? accept (candidates.map (Prod.map change id)) =
      (least? accept candidates).map (Prod.map change id) := by
  have step : ∀ (best : Option (α × K)) (candidate : α × K),
      keepLeast accept (best.map (Prod.map change id)) (Prod.map change id candidate) =
        (keepLeast accept best candidate).map (Prod.map change id) := by
    intro best candidate
    cases best with
    | none =>
      simp only [keepLeast, Option.map_none, Prod.map_snd, id_eq]
      split <;> rfl
    | some held =>
      simp only [keepLeast, Option.map_some, Prod.map_snd, id_eq]
      split <;> rfl
  have start : (none : Option (β × K)) = (none : Option (α × K)).map (Prod.map change id) := rfl
  unfold least?
  rw [start]
  exact foldl_map_alike (Option.map (Prod.map change id)) step candidates none

namespace Renaming

variable {K : Type} (names : Renaming)

def tableau (tableau : Tableau K) : Tableau K where
  rows := tableau.rows.relabel names.symbol names.expression
  columns := tableau.columns.relabel names.symbol names.set
  infeasible := names.set tableau.infeasible
  basicExternals := names.set tableau.basicExternals
  parametricExternals := names.set tableau.parametricExternals

variable (tableau : Tableau K) (basic symbol : Symbol) (row : Expression K)

/-! Sets -/

section Sets

variable (set : SymbolSet)

@[simp]
theorem empty_set : names.set ∅ = ∅ := rfl

@[simp]
theorem keys_set : (names.set set).keys = set.keys.map names.symbol := Table.keys_relabel set

@[simp]
theorem insert_set : (names.set set).insert (names.symbol symbol) () =
    names.set (set.insert symbol ()) :=
  (Table.relabel_insert set symbol ()).symm

@[simp]
theorem swapErase_set : (names.set set).swapErase (names.symbol symbol) =
    names.set (set.swapErase symbol) :=
  (Table.relabel_swapErase set symbol).symm

@[simp]
theorem dropLast_set : (names.set set).dropLast = names.set set.dropLast :=
  (Table.relabel_dropLast set).symm

@[simp]
theorem lastKey?_set : (names.set set).lastKey? = set.lastKey?.map names.symbol :=
  Table.lastKey?_relabel set

end Sets

/-! Reading a tableau -/

@[simp]
theorem row?_tableau :
    (names.tableau tableau).row? (names.symbol basic) = (tableau.row? basic).map names.expression :=
  Table.get?_relabel tableau.rows basic

@[simp]
theorem isBasic_tableau :
    (names.tableau tableau).isBasic (names.symbol symbol) = tableau.isBasic symbol :=
  Table.contains_relabel tableau.rows symbol

@[simp]
theorem hasColumn_tableau :
    (names.tableau tableau).hasColumn (names.symbol symbol) = tableau.hasColumn symbol :=
  Table.contains_relabel tableau.columns symbol

@[simp]
theorem column_tableau :
    (names.tableau tableau).column (names.symbol symbol) =
      (tableau.column symbol).map names.symbol := by
  unfold Tableau.column Renaming.tableau
  rw [Table.get?_relabel]
  cases tableau.columns.get? symbol with
  | none => rfl
  | some rows => exact names.keys_set rows

@[simp]
theorem infeasible_tableau :
    (names.tableau tableau).infeasible = names.set tableau.infeasible := rfl

@[simp]
theorem basicExternals_tableau :
    (names.tableau tableau).basicExternals = names.set tableau.basicExternals := rfl

@[simp]
theorem parametricExternals_tableau :
    (names.tableau tableau).parametricExternals = names.set tableau.parametricExternals := rfl

/-! Changing a tableau -/

@[simp]
theorem setRow_tableau :
    (names.tableau tableau).setRow (names.symbol basic) (names.expression row) =
      names.tableau (tableau.setRow basic row) := by
  simp [Tableau.setRow, Renaming.tableau]

@[simp]
theorem markInfeasible_tableau :
    (names.tableau tableau).markInfeasible (names.symbol basic) =
      names.tableau (tableau.markInfeasible basic) := by
  simp [Tableau.markInfeasible, Renaming.tableau]

@[simp]
theorem clearInfeasible_tableau :
    (names.tableau tableau).clearInfeasible = names.tableau tableau.clearInfeasible := rfl

@[simp]
theorem noteInserted_tableau :
    (names.tableau tableau).noteInserted (names.symbol basic) (names.symbol symbol) =
      names.tableau (tableau.noteInserted basic symbol) := by
  have columns : (tableau.columns.upsert symbol ∅ (·.insert basic ())).relabel names.symbol
      names.set = (tableau.columns.relabel names.symbol names.set).upsert (names.symbol symbol)
        (names.set ∅) (·.insert (names.symbol basic) ()) :=
    Table.relabel_upsert (names.insert_set basic) tableau.columns symbol ∅
  simp only [Tableau.noteInserted, Renaming.tableau, isExternal_symbol, insert_set, columns,
    empty_set]
  split <;> rfl

@[simp]
theorem noteRemoved_tableau :
    (names.tableau tableau).noteRemoved (names.symbol basic) (names.symbol symbol) =
      names.tableau (tableau.noteRemoved basic symbol) := by
  have columns : (tableau.columns.modify symbol (·.swapErase basic)).relabel names.symbol
      names.set = (tableau.columns.relabel names.symbol names.set).modify (names.symbol symbol)
        (·.swapErase (names.symbol basic)) :=
    Table.relabel_modify (names.swapErase_set basic) tableau.columns symbol
  simp only [Tableau.noteRemoved, Renaming.tableau, columns]

@[simp]
theorem noteChange_tableau (change : TermChange) :
    (names.tableau tableau).noteChange (names.symbol basic) (names.symbol symbol) change =
      names.tableau (tableau.noteChange basic symbol change) := by
  cases change <;> simp [Tableau.noteChange]

@[simp]
theorem noteReport_tableau (report : TermChange.Report) :
    (names.tableau tableau).noteReport (names.symbol basic) (names.report report) =
      names.tableau (tableau.noteReport basic report) := by
  exact foldl_map_alike names.tableau
    (fun current entry => names.noteChange_tableau current basic entry.1 entry.2) report tableau

@[simp]
theorem addRow_tableau :
    (names.tableau tableau).addRow (names.symbol basic) (names.expression row) =
      names.tableau (tableau.addRow basic row) := by
  have indexed : (row.symbols.map names.symbol).foldl
      (fun current symbol => current.noteInserted (names.symbol basic) symbol)
      (names.tableau tableau) = names.tableau
        (row.symbols.foldl (fun current symbol => current.noteInserted basic symbol) tableau) :=
    foldl_map_alike names.tableau
      (fun current symbol => names.noteInserted_tableau current basic symbol) _ _
  unfold Tableau.addRow
  rw [symbols_expression, indexed, isExternal_symbol, ← setRow_tableau]
  split <;> simp [Renaming.tableau]

@[simp]
theorem removeRow_tableau :
    (names.tableau tableau).removeRow (names.symbol basic) =
      names.tableau (tableau.removeRow basic) := by
  unfold Tableau.removeRow
  rw [row?_tableau]
  cases tableau.row? basic with
  | none => rfl
  | some row =>
    have cut : (row.symbols.map names.symbol).foldl
        (fun current symbol => current.noteRemoved (names.symbol basic) symbol)
        (names.tableau { tableau with rows := tableau.rows.swapErase basic }) = names.tableau
          (row.symbols.foldl (fun current symbol => current.noteRemoved basic symbol)
            { tableau with rows := tableau.rows.swapErase basic }) :=
      foldl_map_alike names.tableau
        (fun current symbol => names.noteRemoved_tableau current basic symbol) _ _
    have erased : ({ names.tableau tableau with
        rows := (names.tableau tableau).rows.swapErase (names.symbol basic) } : Tableau K) =
          names.tableau { tableau with rows := tableau.rows.swapErase basic } := by
      simp [Renaming.tableau]
    simp only [Option.map_some, symbols_expression, erased, cut, isExternal_symbol]
    split <;> simp [Renaming.tableau]

@[simp]
theorem removeColumn_tableau :
    (names.tableau tableau).removeColumn (names.symbol symbol) =
      names.tableau (tableau.removeColumn symbol) := by
  have rows : ((tableau.column symbol).map names.symbol).foldl
      (fun rows basic => rows.modify basic (·.removeTerm (names.symbol symbol)))
      (tableau.rows.relabel names.symbol names.expression) =
        ((tableau.column symbol).foldl (fun rows basic => rows.modify basic (·.removeTerm symbol))
          tableau.rows).relabel names.symbol names.expression :=
    foldl_map_alike (Table.relabel names.symbol names.expression) (fun rows basic =>
      (Table.relabel_modify (names.removeTerm_expression · symbol) rows basic).symm) _ _
  unfold Tableau.removeColumn
  rw [column_tableau, isExternal_symbol]
  split <;> simp [Renaming.tableau, rows]

section Terms

variable [Scalar K] (amount : K)

@[simp]
theorem addTermToRow_tableau [Add K] :
    (names.tableau tableau).addTermToRow (names.symbol basic) (names.symbol symbol) amount =
      names.tableau (tableau.addTermToRow basic symbol amount) := by
  unfold Tableau.addTermToRow
  rw [row?_tableau]
  cases tableau.row? basic <;> simp [Prod.map]

@[simp]
theorem setTermInRow_tableau :
    (names.tableau tableau).setTermInRow (names.symbol basic) (names.symbol symbol) amount =
      names.tableau (tableau.setTermInRow basic symbol amount) := by
  unfold Tableau.setTermInRow
  rw [row?_tableau]
  cases tableau.row? basic <;> simp [Prod.map]

@[simp]
theorem addScaledToRow_tableau [Add K] [Mul K] (factor : K) :
    (names.tableau tableau).addScaledToRow (names.symbol basic) (names.expression row) factor =
      names.tableau (tableau.addScaledToRow basic row factor) := by
  unfold Tableau.addScaledToRow
  rw [row?_tableau]
  cases tableau.row? basic <;> simp [Prod.map]

end Terms

section Constants

variable [Zero K] [LT K] [DecidableLT K]

@[simp]
theorem checkFeasible_tableau (constant : K) :
    (names.tableau tableau).checkFeasible (names.symbol basic) constant =
      names.tableau (tableau.checkFeasible basic constant) := by
  unfold Tableau.checkFeasible
  rw [isRestricted_symbol]
  split <;> simp

@[simp]
theorem substituteInRow_tableau [Add K] [Mul K] [Scalar K] :
    (names.tableau tableau).substituteInRow (names.symbol symbol) (names.expression row)
        (names.symbol basic) =
      names.tableau (tableau.substituteInRow symbol row basic) := by
  unfold Tableau.substituteInRow
  rw [row?_tableau]
  cases tableau.row? basic with
  | none => rfl
  | some present =>
    simp only [Option.map_some, substituteReporting?_expression]
    cases present.substituteReporting? symbol row <;> simp

@[simp]
theorem eliminate_tableau [Add K] [Mul K] [Scalar K] :
    (names.tableau tableau).eliminate (names.symbol symbol) (names.expression row) =
      names.tableau (tableau.eliminate symbol row) := by
  have swept : ((tableau.column symbol).map names.symbol).foldl
      (fun current basic =>
        current.substituteInRow (names.symbol symbol) (names.expression row) basic)
      (names.tableau { tableau with columns := tableau.columns.swapErase symbol }) = names.tableau
        ((tableau.column symbol).foldl
          (fun current basic => current.substituteInRow symbol row basic)
          { tableau with columns := tableau.columns.swapErase symbol }) :=
    foldl_map_alike names.tableau
      (fun current basic => names.substituteInRow_tableau current basic symbol row) _ _
  have erased : ({ names.tableau tableau with
      columns := (names.tableau tableau).columns.swapErase (names.symbol symbol) } : Tableau K) =
        names.tableau { tableau with columns := tableau.columns.swapErase symbol } := by
    simp [Renaming.tableau]
  unfold Tableau.eliminate
  rw [column_tableau, erased, swept, isExternal_symbol]
  split <;> simp [Renaming.tableau]

end Constants

/-! Choosing what to pivot -/

section Choosing

variable [Zero K] [LT K] [DecidableLT K] (objective : Expression K)

@[simp]
theorem enteringSymbol?_expression [Scalar K] :
    Tableau.enteringSymbol? (names.expression objective) =
      (Tableau.enteringSymbol? objective).map names.symbol := by
  have candidates : (names.expression objective).terms.entries.filter (·.1.isPivotable) =
      (objective.terms.entries.filter (·.1.isPivotable)).map (Prod.map names.symbol id) := by
    simp [List.filter_map, Function.comp_def]
  unfold Tableau.enteringSymbol?
  simp only [candidates, least?_map]
  cases least? (fun value : K => value < 0)
      (objective.terms.entries.filter (·.1.isPivotable)) with
  | none => rfl
  | some least =>
    simp only [Option.map_some, Prod.map_apply', id_eq]
    split <;> rfl

variable [Div K]

theorem repairCosts_expression :
    Tableau.repairCosts (names.expression objective) (names.expression row) =
      (Tableau.repairCosts objective row).map (Prod.map names.symbol id) := by
  unfold Tableau.repairCosts
  rw [terms_expression, Table.entries_relabel]
  refine filterMap_map_alike (fun entry => ?_) _
  simp only [Prod.map_fst, Prod.map_snd, id_eq, isPivotable_symbol, coefficient_expression]
  split <;> rfl

@[simp]
theorem repairingSymbol?_expression [Scalar K] :
    Tableau.repairingSymbol? (names.expression objective) (names.expression row) =
      (Tableau.repairingSymbol? objective row).map names.symbol := by
  simp [Tableau.repairingSymbol?, repairCosts_expression, least?_map, Function.comp_def]

variable [Neg K]

theorem growthLimits_tableau :
    (names.tableau tableau).growthLimits (names.symbol symbol) =
      (tableau.growthLimits symbol).map (Prod.map names.symbol id) := by
  unfold Tableau.growthLimits
  rw [column_tableau]
  refine filterMap_map_alike (fun basic => ?_) _
  simp only [isPivotable_symbol, row?_tableau]
  cases tableau.row? basic with
  | none => split <;> rfl
  | some row =>
    simp only [Option.map_some, coefficient_expression, constant_expression]
    split
    · split <;> rfl
    · rfl

@[simp]
theorem leavingSymbol?_tableau [Scalar K] :
    (names.tableau tableau).leavingSymbol? (names.symbol symbol) =
      (tableau.leavingSymbol? symbol).map names.symbol := by
  simp [Tableau.leavingSymbol?, growthLimits_tableau, least?_map, Function.comp_def]

omit [LT K] [DecidableLT K] [Div K] [Neg K] in
theorem restrictedUses_tableau :
    (names.tableau tableau).restrictedUses (names.symbol symbol) =
      (tableau.restrictedUses symbol).map (Prod.map names.symbol id) := by
  unfold Tableau.restrictedUses
  rw [column_tableau]
  refine filterMap_map_alike (fun basic => ?_) _
  simp only [isRestricted_symbol, row?_tableau]
  split
  · cases tableau.row? basic <;> simp
  · rfl

def shrinkingRatios (uses : List (Symbol × K × K)) : List (Symbol × K) :=
  uses.filterMap fun use => if use.2.1 < 0 then some (use.1, -use.2.2 / use.2.1) else none

def ratios (uses : List (Symbol × K × K)) : List (Symbol × K) :=
  uses.map fun use => (use.1, use.2.2 / use.2.1)

theorem exitFor?_eq (marker : Symbol) : tableau.exitFor? marker =
    ((least? (fun _ : K => true) (shrinkingRatios (tableau.restrictedUses marker))).map Prod.fst).or
      (((least? (fun _ : K => true) (ratios (tableau.restrictedUses marker))).map Prod.fst).or
        ((tableau.column marker).find? fun basic => basic.kind != .objective)) := by
  unfold Tableau.exitFor? shrinkingRatios ratios
  dsimp only
  generalize least? (fun _ : K => true) (List.filterMap _ _) = first
  generalize least? (fun _ : K => true) (List.map _ _) = second
  cases first with
  | some found => rfl
  | none => cases second <;> rfl

theorem shrinkingRatios_map (uses : List (Symbol × K × K)) :
    shrinkingRatios (uses.map (Prod.map names.symbol id)) =
      (shrinkingRatios uses).map (Prod.map names.symbol id) := by
  refine filterMap_map_alike (fun use => ?_) uses
  simp only [Prod.map_fst, Prod.map_snd, id_eq]
  split <;> rfl

omit [Zero K] [LT K] [DecidableLT K] [Neg K] in
theorem ratios_map (uses : List (Symbol × K × K)) :
    ratios (uses.map (Prod.map names.symbol id)) =
      (ratios uses).map (Prod.map names.symbol id) := by
  unfold ratios
  rw [List.map_map, List.map_map]
  rfl

@[simp]
theorem exitFor?_tableau :
    (names.tableau tableau).exitFor? (names.symbol symbol) =
      (tableau.exitFor? symbol).map names.symbol := by
  simp only [exitFor?_eq, restrictedUses_tableau, shrinkingRatios_map, ratios_map, least?_map,
    column_tableau, List.find?_map, Option.map_or, Option.map_map]
  simp [Function.comp_def]

end Choosing

end Renaming

end SoftSimplex
