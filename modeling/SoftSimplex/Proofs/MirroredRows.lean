import SoftSimplex.Proofs.Mirroring

/-!
Computations on a tableau mirror themselves under new names: pivots, both loops, and what brings a
row in or takes a marker out. None of them gives out an id.
-/

namespace SoftSimplex

variable {K : Type}

def Renaming.tableaux (names : Renaming) (bound : Nat) : Likeness (Tableau K) where
  alike tableau image := image = names.tableau tableau
  total _ := ⟨_, rfl⟩
  nextId _ := bound

namespace Tableau

variable {names : Renaming} {bound limit : Nat} (tableau : Tableau K)

theorem mirrors_change {change : Tableau K → Tableau K} {mirror : Tableau K → Tableau K}
    (alike : mirror (names.tableau tableau) = names.tableau (change tableau)) :
    Mirrors names (names.tableaux bound) id limit tableau (names.tableau tableau)
      (Action.modify change : Action K (Tableau K) Unit) (Action.modify mirror) :=
  mirrors_modify (Nat.le_refl bound) alike

section Pivoting

variable [Zero K] [One K] [Add K] [Neg K] [Mul K] [Div K] [LT K] [DecidableLT K] [Scalar K]

theorem mirrors_pivot (entering leaving : Symbol) :
    Mirrors names (names.tableaux bound) id limit tableau (names.tableau tableau)
      (pivot entering leaving) (pivot (names.symbol entering) (names.symbol leaving)) := by
  refine mirrors_report_bind [.pivot entering leaving] (mirrors_get_bind ?_)
  rw [names.row?_tableau]
  cases tableau.row? leaving with
  | none => exact mirrors_fail rfl _
  | some row =>
    refine mirrors_modify_bind (Nat.le_refl bound) ?_
    rw [names.exchange?_expression, names.removeRow_tableau]
    cases row.exchange? leaving entering with
    | none => exact mirrors_fail rfl _
    | some solved => exact mirrors_change _ (by simp)

theorem mirrors_improve (objective : Symbol) :
    Mirrors names (names.tableaux bound) id limit tableau (names.tableau tableau)
      (improve objective) (improve (names.symbol objective)) := by
  refine mirrors_get_bind ?_
  rw [names.row?_tableau]
  cases tableau.row? objective with
  | none => exact mirrors_fail rfl _
  | some row =>
    dsimp only [Option.map_some]
    rw [names.enteringSymbol?_expression]
    cases enteringSymbol? row with
    | none => exact mirrors_pure rfl false
    | some entering =>
      dsimp only [Option.map_some]
      rw [names.leavingSymbol?_tableau]
      cases tableau.leavingSymbol? entering with
      | none => exact mirrors_fail rfl _
      | some leaving =>
        exact mirrors_bind (mirrors_pivot tableau entering leaving) fun _ _ _ alike =>
          mirrors_pure alike true

theorem mirrors_minimize (objective : Symbol) :
    Mirrors names (names.tableaux bound) id limit tableau (names.tableau tableau)
      (minimize objective) (minimize (names.symbol objective)) :=
  mirrors_loop (fun reached _ alike => alike ▸ mirrors_improve reached objective) rfl

theorem mirrors_repairLast [LE K] [DecidableLE K] (objective : Symbol) :
    Mirrors names (names.tableaux bound) id limit tableau (names.tableau tableau)
      (repairLast objective) (repairLast (names.symbol objective)) := by
  refine mirrors_get_bind ?_
  rw [names.infeasible_tableau, names.lastKey?_set]
  cases tableau.infeasible.lastKey? with
  | none => exact mirrors_pure rfl false
  | some leaving =>
    refine mirrors_modify_bind (Nat.le_refl bound) ?_
    have queued : ({ names.tableau tableau with
        infeasible := (names.tableau tableau).infeasible.dropLast } : Tableau K) =
          names.tableau { tableau with infeasible := tableau.infeasible.dropLast } := by
      simp [Renaming.tableau]
    rw [queued, names.row?_tableau]
    cases tableau.row? leaving with
    | none => exact mirrors_pure rfl true
    | some row =>
      dsimp only [Option.map_some]
      rw [names.constant_expression]
      by_cases feasible : 0 ≤ row.constant
      · rw [if_pos feasible, if_pos feasible]
        exact mirrors_pure rfl true
      · rw [if_neg feasible, if_neg feasible, names.row?_tableau]
        cases tableau.row? objective with
        | none => exact mirrors_fail rfl _
        | some objectiveRow =>
          dsimp only [Option.map_some]
          rw [names.repairingSymbol?_expression]
          cases repairingSymbol? objectiveRow row with
          | none => exact mirrors_fail rfl _
          | some entering =>
            exact mirrors_bind (mirrors_pivot _ entering leaving) fun _ _ _ alike =>
              mirrors_pure alike true

theorem mirrors_repair [LE K] [DecidableLE K] (objective : Symbol) :
    Mirrors names (names.tableaux bound) id limit tableau (names.tableau tableau)
      (repair objective) (repair (names.symbol objective)) :=
  mirrors_loop (fun reached _ alike => alike ▸ mirrors_repairLast reached objective) rfl

theorem mirrors_addSolved (subject : Symbol) (row : Expression K) :
    Mirrors names (names.tableaux bound) id limit tableau (names.tableau tableau)
      (addSolved subject row) (addSolved (names.symbol subject) (names.expression row)) := by
  unfold addSolved
  rw [names.solveFor?_expression]
  cases row.solveFor? subject with
  | none => exact mirrors_fail rfl _
  | some found =>
    refine mirrors_change tableau ?_
    dsimp only [Prod.map]
    rw [names.hasColumn_tableau]
    split <;> simp

theorem mirrors_expelArtificial (artificial objective : Symbol) :
    Mirrors names (names.tableaux bound) id limit tableau (names.tableau tableau)
      (expelArtificial artificial objective)
      (expelArtificial (names.symbol artificial) (names.symbol objective)) := by
  refine mirrors_get_bind ?_
  rw [names.row?_tableau]
  cases tableau.row? artificial with
  | none => exact mirrors_change tableau (by simp)
  | some row =>
    dsimp only [Option.map_some]
    rw [names.isConstant_expression, names.firstPivotable?_expression]
    split
    · exact mirrors_change tableau (by simp)
    · cases row.firstPivotable? with
      | none => exact mirrors_fail rfl _
      | some entering =>
        refine mirrors_bind (mirrors_pivot tableau entering artificial) ?_
        rintro _ reached _ rfl
        exact mirrors_change reached (by simp)

theorem mirrors_addByArtificial (artificial objective : Symbol) (row : Expression K) :
    Mirrors names (names.tableaux bound) id limit tableau (names.tableau tableau)
      (addByArtificial artificial objective row)
      (addByArtificial (names.symbol artificial) (names.symbol objective)
        (names.expression row)) := by
  refine mirrors_report_bind [.artificial artificial row objective]
    (mirrors_modify_bind (Nat.le_refl bound) ?_)
  rw [names.addRow_tableau, names.addRow_tableau]
  refine mirrors_bind (mirrors_minimize _ objective) ?_
  rintro _ reached _ rfl
  refine mirrors_get_bind ?_
  rw [names.row?_tableau]
  cases reached.row? objective with
  | none => exact mirrors_fail rfl _
  | some least =>
    dsimp only [Option.map_some]
    rw [names.constant_expression]
    split
    · exact mirrors_modify_bind (Nat.le_refl bound)
        (mirrors_fail (by simp [Renaming.tableaux]) .requiredFailure)
    · exact mirrors_expelArtificial reached artificial objective

theorem mirrors_dropMarker (marker : Symbol) :
    Mirrors names (names.tableaux bound) id limit tableau (names.tableau tableau)
      (dropMarker marker) (dropMarker (names.symbol marker)) := by
  refine mirrors_get_bind ?_
  rw [names.isBasic_tableau, names.exitFor?_tableau]
  split
  · exact mirrors_change tableau (by simp)
  · cases tableau.exitFor? marker with
    | none => exact mirrors_change tableau (by simp)
    | some leaving =>
      refine mirrors_bind (mirrors_pivot tableau marker leaving) ?_
      rintro _ reached _ rfl
      exact mirrors_change reached (by simp)

end Pivoting

end Tableau

end SoftSimplex
