import SoftSimplex.Proofs.Exchanging

/-!
Dropping a marker from a linked tableau in which no restricted basic symbol is below zero. Whatever
signs the marker has in its column, the row chosen to exchange it with is no objective, is missed
only where objectives alone mention the marker, and leaves all restricted rows at zero or above.
-/

namespace SoftSimplex

namespace Tableau

variable {K : Type}

/-! Likeness -/

section Likeness

variable [Zero K] [Neg K] [Div K] [LT K] [DecidableLT K] {left right : Tableau K}
  (alike : left.Alike right) (marker : Symbol)

include alike

omit [Neg K] [Div K] [LT K] [DecidableLT K] in
theorem Alike.restrictedUses : left.restrictedUses marker = right.restrictedUses marker := by
  unfold Tableau.restrictedUses
  rw [alike.column]
  refine congrArg (List.filterMap · _) (funext fun basic => ?_)
  rw [alike.row?]

theorem Alike.exitFor? : left.exitFor? marker = right.exitFor? marker := by
  unfold Tableau.exitFor?
  rw [alike.restrictedUses, alike.column]

end Likeness

variable [Field K] [LinearOrder K]

instance (tableau : Tableau K) : Decidable tableau.RestrictedFeasible :=
  decidable_of_iff _ (tableau.forall_row?_iff fun basic row =>
    basic.isRestricted = true → 0 ≤ row.constant).symm

theorem Alike.restrictedFeasible {left right : Tableau K} (alike : left.Alike right)
    (feasible : right.RestrictedFeasible) : left.RestrictedFeasible := by
  intro basic row found
  rw [alike.row?] at found
  exact feasible basic row found

/-! Dropping a marker -/

section Dropping

variable [IsStrictOrderedRing K] {before : Tableau K} {marker : Symbol}

theorem pivot_exit (linked : before.Linked) (pruned : before.Pruned)
    (feasible : before.RestrictedFeasible) {leaving : Symbol}
    (chosen : before.exitFor? marker = some leaving) (limit : Nat) :
    ∃ after events, pivot marker leaving limit before = .done () after events ∧
      (after.removeRow marker).RestrictedFeasible := by
  have occurs := (linked.agrees marker leaving).mp (exit_mem_column chosen)
  have meets : (pivot marker leaving limit before).Meets _ _ := linked.pivot_meets occurs
  obtain ⟨_, after, events, ran, twin, echo, row, solved, pivots⟩ :=
    meets.returns (pivot_ends marker leaving limit before)
  have twinFeasible : before.reindexed.RestrictedFeasible := feasible
  have kept := twinFeasible.exchange linked.indexed_reindexed pruned
    ((linked.alike_reindexed.exitFor? marker).symm.trans chosen) pivots
  exact ⟨after, events, ran, (echo.removeRow marker).restrictedFeasible kept⟩

/-- The exit of a marker is never an objective and is there unless only objectives mention the
marker. Exchanging the two and dropping the marker's row keeps restricted basic symbols from going
below zero. -/
theorem exit_keeps_restricted (linked : before.Linked) (pruned : before.Pruned)
    (feasible : before.RestrictedFeasible) (limit : Nat) :
    (∀ leaving, before.exitFor? marker = some leaving → leaving.kind ≠ .objective) ∧
      (before.exitFor? marker = none →
        ∀ basic, before.Occurs marker basic → basic.kind = .objective) ∧
      ∀ leaving, before.exitFor? marker = some leaving →
        ∃ after events, pivot marker leaving limit before = .done () after events ∧
          (after.removeRow marker).RestrictedFeasible := by
  refine ⟨fun leaving => exit_not_objective, ?_, fun leaving chosen =>
    pivot_exit linked pruned feasible chosen limit⟩
  intro noExit basic occurs
  exact objective_of_no_exit noExit ((linked.agrees marker basic).mpr occurs)

/-- All restricted rows grow with the marker, two at the same rate for their size. The marker goes
down to minus two, and the three stay at or above zero. -/
theorem exit_keeps_restricted_growing :
    let grown (constant coefficient : ℚ) :=
      (Expression.ofSymbol ⟨1, .slack⟩ coefficient).withConstant constant
    let start := ((((addRow ∅ .mainObjective (grown 0 2)).addRow ⟨2, .slack⟩ (grown 4 2)).addRow
      ⟨3, .dummy⟩ (grown 6 3)).addRow ⟨4, .external⟩ (grown (-1) (-1))).addRow ⟨5, .slack⟩
      (grown 5 1)
    let pivoted := (pivot ⟨1, .slack⟩ ⟨2, .slack⟩ 0 start).state?
    start.exitFor? ⟨1, .slack⟩ = some ⟨2, .slack⟩ ∧
      (pivoted.bind (·.row? ⟨1, .slack⟩)).map (·.constant) = some (-2) ∧
      (pivoted.bind (·.row? ⟨3, .dummy⟩)).map (·.constant) = some 0 ∧
      (∀ leaving, start.exitFor? ⟨1, .slack⟩ = some leaving → leaving.kind ≠ .objective) ∧
      (start.exitFor? ⟨1, .slack⟩ = none →
        ∀ basic, start.Occurs ⟨1, .slack⟩ basic → basic.kind = .objective) ∧
      ∀ leaving, start.exitFor? ⟨1, .slack⟩ = some leaving →
        ∃ after events, pivot ⟨1, .slack⟩ leaving 0 start = .done () after events ∧
          (after.removeRow ⟨1, .slack⟩).RestrictedFeasible := by
  intro grown start pivoted
  have linked : start.Linked := by decide +kernel
  have pruned : start.Pruned := by decide +kernel
  have feasible : start.RestrictedFeasible := by decide +kernel
  exact ⟨by decide +kernel, by decide +kernel, by decide +kernel,
    exit_keeps_restricted linked pruned feasible 0⟩

end Dropping

end Tableau

end SoftSimplex
