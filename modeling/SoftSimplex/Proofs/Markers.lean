import SoftSimplex.Proofs.Assembly
import SoftSimplex.Proofs.Judging

/-!
Markers stay in the tableau as long as the constraint is in the solver, so that its equation can be
taken out by them. With exact comparisons nothing else is possible: a marker that no row mentions
could have any value, but its constraint ties it to the variables. A tolerance can lose it, when a
pivot turns a large coefficient into a reciprocal too small to be kept.
-/

namespace SoftSimplex

variable {K : Type} [Field K] [LinearOrder K]

namespace Tableau

/-- The symbol is basic or occurs in the row of a symbol that is no objective. -/
def InConstraintRows (tableau : Tableau K) (symbol : Symbol) : Prop :=
  tableau.isBasic symbol = true ∨ ∃ basic, basic.kind ≠ .objective ∧ tableau.Occurs symbol basic

variable {tableau : Tableau K} {symbol : Symbol} {assignment : Symbol → K}

omit [LinearOrder K] in
theorem solves_update_loose (loose : ¬ tableau.InConstraintRows symbol)
    (solves : tableau.Solves assignment)
    (value : K) : tableau.Solves (Function.update assignment symbol value) := by
  obtain ⟨notBasic, unmentioned⟩ := not_or.mp loose
  intro basic row found notObjective
  have different : basic ≠ symbol := by
    rintro rfl
    exact notBasic (isBasic_of_row? found)
  have missing : symbol ∉ row.symbols := fun member =>
    unmentioned ⟨basic, notObjective, row, found, member⟩
  rw [valueAt_update_fresh missing, Function.update_of_ne different]
  exact solves basic row found notObjective

end Tableau

omit [LinearOrder K] in
theorem Installed.balance_marker_injective {entry : Installed K} {assignment : Symbol → K}
    {left right : K} (same : entry.balance (Function.update assignment entry.marker left) =
      entry.balance (Function.update assignment entry.marker right)) : left = right := by
  have different := entry.marker_ne_error
  unfold balance at same
  simp only [Function.update_self, Function.update_of_ne (Ne.symm different)] at same
  split at same
  · split at same
    · exact same
    · exact neg_injective same
  · exact sub_left_injective same

namespace Solver

variable {solver : Solver K} {offsets : Nat → K} {key : Nat} {entry : Installed K}

theorem Encodes.inConstraintRows (encodes : solver.Encodes offsets) (sound : solver.Sound)
    (found : solver.installed.get? key = some entry) :
      solver.tableau.InConstraintRows entry.marker := by
  by_contra loose
  have solves : solver.tableau.Solves solver.tableau.basicSolution :=
    Tableau.solves_completed sound.fits.indexed _
  have missing := not_mem_expression sound found found entry.marker_mem_symbols
  have balances : ∀ value, entry.constraint.expression.valueAt solver.tableau.basicSolution +
      offsets key =
        entry.balance (Function.update solver.tableau.basicSolution entry.marker value) := by
    intro value
    have balanced := (encodes.solves _).mp (Tableau.solves_update_loose loose solves value)
    rw [← balanced key entry found, Tableau.valueAt_update_fresh missing]
  exact zero_ne_one
    (Installed.balance_marker_injective ((balances 0).symm.trans (balances 1)))

end Solver

namespace Session

variable {session : Session K}

theorem encodes_of_exactly (exactly : RunsExactly (fun _ request _ => request.External) session) :
    session.solver.Sound ∧ ∃ offsets, session.solver.Encodes offsets := by
  have reachable : session.Reachable := exactly
  exact ⟨reachable.encodes.1.solver, reachable.encodes.2⟩

/-- As long as the tolerance makes no difference, every installed marker is basic or in a row, and
the solutions of the rows are those of the installed equations: one that is taken out is gone. -/
theorem inConstraintRows_of_judged [Scalar K]
    (run : Runs (fun session request outcome => request.External ∧
      session.JudgedExactly request outcome) session) :
    (∀ key entry, session.solver.installed.get? key = some entry →
      session.solver.tableau.InConstraintRows entry.marker) ∧
      ∃ offsets, session.solver.Encodes offsets := by
  obtain ⟨sound, offsets, encodes⟩ := encodes_of_exactly run.exactly
  exact ⟨fun key entry found => encodes.inConstraintRows sound found, offsets, encodes⟩

section Coded

attribute [local instance] Scalar.coded

/-- A lower bound and a scaled upper bound share a row; the upper one goes again. -/
theorem inConstraintRows_of_judged_bounded :
    let session : Session ℚ := (start (.withConfig .standard) .log).replay 8
      [.newVariable none 0, .make (.atLeast (.ofVariable ⟨1⟩) (.ofConstant 0) .required),
        .make (.atMost (.ofTerm ⟨1⟩ 1000) (.ofConstant 5000) .required),
        .make (.equal (.ofVariable ⟨1⟩) (.ofConstant 100) .weak), .add 0, .add 1, .add 2, .remove 1]
    session.solver.value ⟨1⟩ = 100 ∧ session.solver.constraintCount = 2 ∧
      (∀ key entry, session.solver.installed.get? key = some entry →
        session.solver.tableau.InConstraintRows entry.marker) ∧
      ∃ offsets, session.solver.Encodes offsets := by
  intro session
  have scaled : (Demand.atMost (.ofTerm ⟨1⟩ 1000) (.ofConstant 5000) .required :
      Demand ℚ).External := by decide +kernel
  refine ⟨by decide +kernel, by decide +kernel, inConstraintRows_of_judged ((Runs.fresh _ _).replay
    ⟨⟨trivial, 8, ?_⟩, ⟨Demand.external_lowerBound ⟨1⟩ 0 .required, 8, ?_⟩, ⟨scaled, 8, ?_⟩,
      ⟨Demand.external_lowerBound ⟨1⟩ 100 .weak, 8, ?_⟩, ⟨trivial, 8, ?_⟩, ⟨trivial, 8, ?_⟩,
      ⟨trivial, 8, ?_⟩, ⟨trivial, 8, ?_⟩, trivial⟩)⟩
  all_goals decide +kernel

/-- With a coefficient of a billion the marker of the upper bound is lost when the bound becomes
tight, and the bound goes on after it has been removed. -/
theorem inConstraintRows_lost_scaled :
    let session : Session ℚ := (start (.withConfig .standard) .log).replay 8
      [.newVariable none 0, .make (.atLeast (.ofVariable ⟨1⟩) (.ofConstant 0) .required),
        .make (.atMost (.ofTerm ⟨1⟩ 1000000000) (.ofConstant 5000000000) .required),
        .make (.equal (.ofVariable ⟨1⟩) (.ofConstant 100) .weak), .add 0, .add 1, .add 2]
    let next := session.replay 8 [.remove 1]
    Runs (fun session request outcome => request.Assembles (fun _ _ => True) session ∧
      outcome.fault? = none) session ∧
      session.solver.config.autoSolve = true ∧
      (session.solver.installed.get? 1).any (fun entry =>
        !session.solver.tableau.isBasic entry.marker &&
          session.solver.tableau.rows.values.all fun row => !row.contains entry.marker) = true ∧
      (perform (.remove 1) 8 session).state?.isSome = true ∧
      (perform (.remove 1) 8 session).fault? = none ∧ next.solver.constraintCount = 2 ∧
      next.solver.value ⟨1⟩ = 5 := by
  intro session next
  have scaled : (Demand.atMost (.ofTerm ⟨1⟩ 1000000000) (.ofConstant 5000000000) .required :
      Demand ℚ).External := by decide +kernel
  refine ⟨(Runs.fresh _ _).replay ⟨⟨rfl, ?_⟩,
    ⟨⟨Demand.external_lowerBound ⟨1⟩ 0 .required, zero_le_one⟩, ?_⟩, ⟨⟨scaled, zero_le_one⟩, ?_⟩,
    ⟨⟨Demand.external_lowerBound ⟨1⟩ 100 .weak, zero_le_one⟩, ?_⟩, ⟨trivial, ?_⟩, ⟨trivial, ?_⟩,
    ⟨trivial, ?_⟩, trivial⟩, ?_, ?_, ?_, ?_, ?_, ?_⟩
  all_goals decide +kernel

end Coded

end Session

end SoftSimplex
