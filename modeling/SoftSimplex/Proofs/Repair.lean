import SoftSimplex.Proofs.Feasible
import SoftSimplex.Proofs.Queue

/-!
Repairing a tableau of which only the constants are wrong. As long as it has a proper solution, some
symbol can raise a row below zero, and the choice by least ratio keeps the costs from going
negative; when the queue is empty the tableau is feasible again.
-/

namespace SoftSimplex

variable {K : Type} [Field K] [LinearOrder K]

/-! Coefficients -/

namespace Expression

variable {expression solved : Expression K}

omit [LinearOrder K] in
theorem coefficient_times (expression : Expression K) (factor : K) (symbol : Symbol) :
    (expression.times factor).coefficient symbol = expression.coefficient symbol * factor := by
  unfold coefficient times
  rw [Table.get?_mapValues]
  cases expression.terms.get? symbol with
  | none => exact (zero_mul factor).symm
  | some value => rfl

theorem coefficient_substitute (expression replacement : Expression K) (symbol other : Symbol) :
    (expression.substitute symbol replacement).coefficient other =
      expression.coefficient other + expression.coefficient symbol *
        (replacement.coefficient other - if symbol = other then 1 else 0) := by
  have raised := expression.valueAt_substitute (Function.update (fun _ => 0) other 1) symbol
    replacement
  have rest := expression.constant_substitute symbol replacement
  simp only [Tableau.valueAt_update_one, Function.update_apply] at raised
  linear_combination raised - rest

theorem coefficient_exchange {leaving entering : Symbol}
    (solves : expression.exchange? leaving entering = some solved)
    (missing : leaving ∉ expression.symbols) (nonzero : expression.coefficient entering ≠ 0)
    (other : Symbol) :
    expression.coefficient entering * (solved.coefficient other - if entering = other then 1 else 0) =
      (if leaving = other then 1 else 0) - expression.coefficient other := by
  have raised := valueAt_exchange (Function.update (fun _ => 0) other 1) solves missing nonzero
  have rest := constant_exchange solves missing nonzero
  simp only [Tableau.valueAt_update_one, Function.update_apply] at raised
  linear_combination raised - rest

end Expression

namespace Tableau

variable {before after : Tableau K} {objective entering leaving : Symbol}
  {costs row solved : Expression K}

/-! The choice of a symbol that raises a row -/

theorem mem_repairCosts {symbol : Symbol} {ratio : K} :
    (symbol, ratio) ∈ repairCosts costs row ↔ 0 < row.coefficient symbol ∧
      symbol.isPivotable = true ∧ ratio = costs.coefficient symbol / row.coefficient symbol := by
  unfold repairCosts
  rw [List.mem_filterMap]
  constructor
  · rintro ⟨⟨other, value⟩, member, taken⟩
    split at taken
    · rename_i raises
      cases taken
      rw [Expression.coefficient_of_mem_entries member]
      exact ⟨raises.1, raises.2, rfl⟩
    · cases taken
  · rintro ⟨positive, pivotable, rfl⟩
    cases found : row.terms.get? symbol with
    | none => simp [Expression.coefficient, found] at positive
    | some value =>
      have member := (row.terms.mem_entries_iff symbol value).mpr found
      have same := Expression.coefficient_of_mem_entries member
      refine ⟨(symbol, value), member, ?_⟩
      rw [if_pos ⟨same ▸ positive, pivotable⟩, same]

theorem repairing_least (chosen : repairingSymbol? costs row = some entering) :
    0 < row.coefficient entering ∧ entering.isPivotable = true ∧
      ∀ symbol : Symbol, symbol.isPivotable = true → 0 < row.coefficient symbol →
        costs.coefficient entering / row.coefficient entering ≤
          costs.coefficient symbol / row.coefficient symbol := by
  obtain ⟨⟨_, ratio⟩, least, rfl⟩ := Option.map_eq_some_iff.mp chosen
  obtain ⟨positive, pivotable, rfl⟩ := mem_repairCosts.mp (least?_mem least)
  exact ⟨positive, pivotable, fun symbol other raises =>
    least?_le least (mem_repairCosts.mpr ⟨raises, other, rfl⟩) rfl⟩

theorem not_raised (stuck : repairingSymbol? costs row = none) {symbol : Symbol}
    (pivotable : symbol.isPivotable = true) : row.coefficient symbol ≤ 0 := by
  by_contra positive
  have candidate : (symbol, costs.coefficient symbol / row.coefficient symbol) ∈
      repairCosts costs row := mem_repairCosts.mpr ⟨not_le.mp positive, pivotable, rfl⟩
  have rejected := rejected_of_least?_eq_none (Option.map_eq_none_iff.mp stuck) candidate
  cases rejected

variable [IsStrictOrderedRing K]

theorem valueAt_le_constant (stuck : repairingSymbol? costs row = none)
    (enclosed : ∀ symbol ∈ row.symbols, symbol.isRestricted = true) {assignment : Symbol → K}
    (proper : Proper assignment) : row.valueAt assignment ≤ row.constant := by
  have turned : (row.times (-1)).constant ≤ (row.times (-1)).valueAt assignment := by
    refine constant_le_valueAt assignment ?_ ?_ (fun symbol _ => proper.nonneg symbol) proper.dummies
    · intro symbol pivotable
      rw [row.coefficient_times, mul_neg_one]
      exact neg_nonneg.mpr (not_raised stuck pivotable)
    · rwa [row.symbols_times]
  rw [row.valueAt_times, mul_neg_one] at turned
  exact neg_le_neg_iff.mp ((mul_neg_one row.constant).symm.trans_le turned)

theorem not_lastUnrepairable (indexed : before.Indexed) (layered : before.Layered)
    {assignment : Symbol → K}
    (proper : Proper assignment) (solves : before.Solves assignment) :
    ¬ before.LastUnrepairable objective := by
  rintro ⟨costs, leaving, row, isLast, found, _, negative, stuck⟩
  have restricted := (indexed.queued leaving (Table.mem_keys_of_lastKey? isLast)).1
  rcases pivotable_or_dummy restricted with pivotable | isDummy
  · have below := valueAt_le_constant stuck ((layered leaving row found).enclosed restricted) proper
    have notObjective : leaving.kind ≠ .objective := by
      rintro kind
      simp [Symbol.isPivotable, kind, SymbolKind.isPivotable] at pivotable
    rw [← solves leaving row found notObjective] at below
    exact negative ((proper.nonneg leaving pivotable).trans below)
  · exact negative ((layered leaving row found).rests isDummy).1.ge

theorem Pivots.dualFeasible (pivots : before.Pivots entering leaving row solved after)
    (indexed : before.Indexed) (isObjective : objective.kind = .objective)
    (found : before.row? objective = some costs)
    (chosen : repairingSymbol? costs row = some entering)
    (dual : before.DualFeasible objective) : after.DualFeasible objective := by
  obtain ⟨positive, enters, least⟩ := repairing_least chosen
  have missing := pivots.leaving_not_mem indexed
  intro next isRow symbol pivotable
  rcases pivots.row_cases isRow with ⟨rfl, _⟩ | ⟨_, _, old, was, rfl⟩
  · simp [Symbol.isPivotable, isObjective, SymbolKind.isPivotable] at enters
  · rw [found] at was
    cases was
    rw [costs.coefficient_substitute]
    have exchanged := Expression.coefficient_exchange pivots.solves missing positive.ne' symbol
    set step := solved.coefficient symbol - if entering = symbol then 1 else 0
    have enteringCosts := dual costs found entering enters
    have symbolCosts := dual costs found symbol pivotable
    rcases lt_or_ge 0 (row.coefficient symbol) with raises | lowers
    · have different : leaving ≠ symbol := by
        rintro rfl
        rw [row.coefficient_eq_zero missing] at raises
        exact lt_irrefl 0 raises
      rw [if_neg different, zero_sub] at exchanged
      have crossed := (div_le_div_iff₀ positive raises).mp (least symbol pivotable raises)
      have scaled : row.coefficient entering *
          (costs.coefficient symbol + costs.coefficient entering * step) =
            costs.coefficient symbol * row.coefficient entering -
              costs.coefficient entering * row.coefficient symbol := by
        linear_combination costs.coefficient entering * exchanged
      exact nonneg_of_mul_nonneg_right (scaled ▸ sub_nonneg.mpr crossed) positive
    · have forward : 0 ≤ row.coefficient entering * step := by
        rw [exchanged]
        split <;> linarith
      exact add_nonneg symbolCosts
        (mul_nonneg enteringCosts (nonneg_of_mul_nonneg_right forward positive))

/-! Repairs -/

/-- What is lost when constants move, and all that a repair keeps until it is regained. -/
structure KeptByRepair (objective : Symbol) (before after : Tableau K) : Prop where
  restates : before.Restates after
  layered : after.Layered
  flagged : after.Flagged
  dual : before.DualFeasible objective → after.DualFeasible objective
  /-- Where nothing is below zero, nothing but the queue changes. -/
  idle : before.Feasible → after.rows = before.rows ∧ after.columns = before.columns

omit [IsStrictOrderedRing K] in
theorem KeptByRepair.trans {middle : Tableau K} (first : before.KeptByRepair objective middle)
    (second : middle.KeptByRepair objective after) : before.KeptByRepair objective after := by
  refine ⟨first.restates.trans second.restates, second.layered, second.flagged,
    fun dual => second.dual (first.dual dual), fun feasible => ?_⟩
  obtain ⟨sameRows, sameColumns⟩ := first.idle feasible
  have middleFeasible : middle.Feasible := by
    unfold Feasible row?
    rw [sameRows]
    exact feasible
  obtain ⟨rows, columns⟩ := second.idle middleFeasible
  exact ⟨rows.trans sameRows, columns.trans sameColumns⟩

theorem Repairs.keptByRepair (repairs : before.Repairs objective after)
    (isObjective : objective.kind = .objective) (indexed : before.Indexed) (pruned : before.Pruned)
    (layered : before.Layered) (flagged : before.Flagged) : before.KeptByRepair objective after := by
  cases repairs with
  | @drop last isLast settled =>
    refine ⟨⟨pruned, fun _ => Iff.rfl, fun _ _ _ _ => rfl⟩, layered, ?_, id, fun _ => ⟨rfl, rfl⟩⟩
    refine (flagged.dequeue isLast).flagged ?_
    rintro _ row rfl found
    exact not_lt.mpr (settled row found)
  | @pivot costs entering leaving row solved after isLast found negative chosen pivots kept =>
    have indexedNow := indexed_dequeued indexed
    obtain ⟨positive, enters, _⟩ := repairing_least chosen
    have restricted := (indexed.queued leaving (Table.mem_keys_of_lastKey? isLast)).1
    have leaves : leaving.isPivotable = true := by
      refine (pivotable_or_dummy restricted).resolve_right fun isDummy => negative ?_
      exact ((layered leaving row pivots.leaves).rests isDummy).1.ge
    have isSymbol : ∀ symbol : Symbol, symbol.isPivotable = true → symbol.kind ≠ .objective := by
      intro symbol pivotable kind
      simp [Symbol.isPivotable, kind, SymbolKind.isPivotable] at pivotable
    have restates := pivots.restates indexedNow pruned (isSymbol _ leaves) (isSymbol _ enters)
    have layeredNow : before.dequeued.Layered := layered
    refine ⟨⟨restates.pruned, restates.solves, restates.objectives⟩,
      layeredNow.pivot pivots leaves enters, ?_, ?_, fun feasible => absurd ?_ negative⟩
    · refine (kept flagged).flagged ?_
      rintro basic next same isRow
      subst same
      have raised : 0 < row.coefficient basic * solved.constant := by
        rw [(pivots.constant indexedNow pruned).2]
        exact neg_pos.mpr (not_le.mp negative)
      rw [pivots.row?_after, if_pos rfl] at isRow
      cases isRow
      exact not_lt.mpr (pos_of_mul_pos_right raised positive.le).le
    · exact pivots.dualFeasible indexedNow isObjective found chosen
    · exact (feasible leaving row pivots.leaves).constant_nonneg restricted

/-- A repair ends with no restricted row below zero, and gives up only if there is no proper
solution. -/
theorem repair_keptByRepair {bound limit : Nat} (fits : before.Fits bound) (pruned : before.Pruned)
    (layered : before.Layered) (flagged : before.Flagged) {assignment : Symbol → K}
    (proper : Proper assignment) (solves : before.Solves assignment) :
    (repair .mainObjective limit before).Meets
      (fun _ after => after.Fits bound ∧ before.KeptByRepair .mainObjective after ∧ after.Feasible)
      (fun _ _ => False) := by
  refine Action.meets_loop
    (fun current => current.Fits bound ∧ before.KeptByRepair .mainObjective current) ?_
    ⟨fits, .refl pruned, layered, flagged, id, fun _ => ⟨rfl, rfl⟩⟩
  rintro current ⟨currentFits, keptByRepair⟩
  refine (repairLast_meets currentFits.indexed).imp ?_ ?_
  · intro again after met
    cases again with
    | true =>
      exact ⟨Repairs.fits met currentFits,
        keptByRepair.trans (Repairs.keptByRepair met rfl currentFits.indexed
        keptByRepair.restates.pruned keptByRepair.layered keptByRepair.flagged)⟩
    | false =>
      obtain ⟨rfl, empty⟩ := met
      refine ⟨currentFits, keptByRepair, keptByRepair.layered.feasible ?_⟩
      intro basic row found pivotable
      exact not_lt.mp (keptByRepair.flagged.nonneg empty found (restricted_of_pivotable pivotable))
  · rintro fault after ⟨_, ⟨_, missing⟩ | ⟨_, lastUnrepairable⟩⟩
    · have present := currentFits.objective
      rw [(current.not_isBasic_iff _).mpr missing] at present
      cases present
    · exact not_lastUnrepairable currentFits.indexed keptByRepair.layered proper
        ((keptByRepair.restates.solves _).mpr solves) lastUnrepairable

end Tableau

end SoftSimplex
