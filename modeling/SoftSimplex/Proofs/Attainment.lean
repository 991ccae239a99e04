import Mathlib.Order.Bounds.Basic
import SoftSimplex.Proofs.Feasible
import SoftSimplex.Proofs.Linkage

/-!
What minimization finds, from any linked tableau whose pivotable basic symbols are not below zero.
Its pivots keep the assignments that the tableau admits; where they end the objective has its least
value on them, and where they get stuck it has no lower bound.
-/

namespace SoftSimplex

namespace Tableau

variable {K : Type} [Field K] [LinearOrder K] {before after twin : Tableau K} {objective : Symbol}

/-- A solution of all rows with no pivotable symbol below zero and every other parametric symbol at
zero. -/
structure Admits (tableau : Tableau K) (assignment : Symbol → K) : Prop where
  rows : ∀ basic row, tableau.row? basic = some row → assignment basic = row.valueAt assignment
  nonneg : ∀ symbol : Symbol, symbol.isPivotable = true → 0 ≤ assignment symbol
  rests : ∀ symbol : Symbol, symbol.isPivotable = false → tableau.isBasic symbol = false →
    assignment symbol = 0

def attainable (tableau : Tableau K) (objective : Symbol) : Set K :=
  {value | ∃ assignment, tableau.Admits assignment ∧ assignment objective = value}

instance (tableau : Tableau K) : Decidable tableau.PrimalFeasible :=
  decidable_of_iff _ (tableau.forall_row?_iff fun basic row =>
    basic.isPivotable = true → 0 ≤ row.constant).symm

/-! Likeness -/

section Likeness

variable (alike : before.Alike after)

include alike

theorem Alike.admits (assignment : Symbol → K) :
    before.Admits assignment ↔ after.Admits assignment := by
  constructor
  · rintro ⟨rows, nonneg, rests⟩
    refine ⟨fun basic row found => rows basic row ?_, nonneg, fun symbol fixed notBasic =>
      rests symbol fixed ?_⟩
    · rw [alike.row?, found]
    · rw [alike.isBasic, notBasic]
  · rintro ⟨rows, nonneg, rests⟩
    refine ⟨fun basic row found => rows basic row ?_, nonneg, fun symbol fixed notBasic =>
      rests symbol fixed ?_⟩
    · rw [← alike.row?, found]
    · rw [← alike.isBasic, notBasic]

theorem Alike.attainable (objective : Symbol) :
    before.attainable objective = after.attainable objective := by
  unfold Tableau.attainable
  simp only [alike.admits]

theorem Alike.primal (primal : after.PrimalFeasible) : before.PrimalFeasible := by
  intro basic row found
  rw [alike.row?] at found
  exact primal basic row found

end Likeness

/-! Pivots keep what is admitted -/

section Keeping

theorem Improves.admits (improves : before.Improves objective after) (indexed : before.Indexed)
    (assignment : Symbol → K) : after.Admits assignment ↔ before.Admits assignment := by
  obtain ⟨costs, entering, leaving, row, solved, found, enters, leaves, pivots⟩ := improves
  have shrinks := (leaving_limits indexed leaves pivots.leaves).1
  have equations := pivots.equations_iff assignment indexed shrinks.ne (fun _ => True) trivial
    trivial
  have fixed : ∀ symbol : Symbol, symbol.isPivotable = false →
      (after.isBasic symbol = false ↔ before.isBasic symbol = false) := by
    intro symbol fixed
    have same := Improves.isBasic_iff_of_not_pivotable
      ⟨costs, entering, leaving, row, solved, found, enters, leaves, pivots⟩ fixed
    rw [← Bool.not_eq_true, ← Bool.not_eq_true, same]
  constructor
  · rintro ⟨rows, nonneg, rests⟩
    exact ⟨fun basic old was => equations.mp (fun _ _ isRow _ => rows _ _ isRow) basic old was trivial,
      nonneg, fun symbol other notBasic => rests symbol other ((fixed symbol other).mpr notBasic)⟩
  · rintro ⟨rows, nonneg, rests⟩
    exact ⟨fun basic next isRow =>
        equations.mpr (fun _ _ was _ => rows _ _ was) basic next isRow trivial, nonneg,
      fun symbol other notBasic => rests symbol other ((fixed symbol other).mp notBasic)⟩

variable [IsStrictOrderedRing K]

theorem attainable_of_improvements
    (improved : Relation.ReflTransGen (Improves objective) before after) (indexed : before.Indexed)
    (primal : before.PrimalFeasible) :
    after.Indexed ∧ after.PrimalFeasible ∧
      after.attainable objective = before.attainable objective := by
  refine improvements_keep (fun current => current.Indexed ∧ current.PrimalFeasible ∧
    current.attainable objective = before.attainable objective) improved ?_ ⟨indexed, primal, rfl⟩
  rintro earlier later improves ⟨earlierIndexed, earlierPrimal, same⟩
  refine ⟨improves.indexed, earlierPrimal.improves earlierIndexed improves, ?_⟩
  rw [← same]
  unfold attainable
  simp only [improves.admits earlierIndexed]

end Keeping

/-! Where the pivots end -/

section Ending

variable (indexed : before.Indexed) (primal : before.PrimalFeasible) {costs : Expression K}
  (found : before.row? objective = some costs)

include indexed

theorem admits_completed (parametric : Symbol → K)
    (nonneg : ∀ basic row, before.row? basic = some row → basic.isPivotable = true →
      0 ≤ row.valueAt parametric)
    (parametricNonneg : ∀ symbol : Symbol, symbol.isPivotable = true → 0 ≤ parametric symbol)
    (rests : ∀ symbol : Symbol, symbol.isPivotable = false → parametric symbol = 0) :
    before.Admits (before.completed parametric) := by
  constructor
  · intro basic row isRow
    rw [row_valueAt_completed indexed isRow]
    simp only [completed, isRow]
  · intro symbol pivotable
    cases isRow : before.row? symbol with
    | none =>
      simp only [completed, isRow]
      exact parametricNonneg symbol pivotable
    | some row =>
      simp only [completed, isRow]
      exact nonneg symbol row isRow pivotable
  · intro symbol fixed notBasic
    rw [completed_of_not_basic notBasic]
    exact rests symbol fixed

include primal found

/-- Without negative costs nothing that is admitted costs less than the basic solution. -/
theorem isLeast_of_settled [IsStrictOrderedRing K] (settled : enteringSymbol? costs = none) :
    IsLeast (before.attainable objective) costs.constant := by
  constructor
  · refine ⟨before.basicSolution, admits_completed indexed _ ?_ (fun _ _ => le_rfl) fun _ _ => rfl,
      basicSolution_of_row found⟩
    intro basic row isRow pivotable
    rw [row.valueAt_zero]
    exact primal basic row isRow pivotable
  · rintro _ ⟨assignment, admits, rfl⟩
    rw [admits.rows objective costs found]
    refine constant_le_of_products fun symbol member => ?_
    cases pivotable : symbol.isPivotable with
    | true =>
      exact mul_nonneg (settled_nonneg settled symbol pivotable)
        (admits.nonneg symbol pivotable)
    | false =>
      rw [admits.rests symbol pivotable (indexed.not_basic_of_mem found member), mul_zero]

omit found in
theorem admits_raised [IsStrictOrderedRing K] {entering : Symbol}
    (pivotable : entering.isPivotable = true) (unlimited : before.leavingSymbol? entering = none)
    {amount : K} (forward : 0 ≤ amount) :
    before.Admits (before.completed (Function.update (fun _ => 0) entering amount)) := by
  refine admits_completed indexed _ ?_ ?_ ?_
  · intro basic row isRow basicPivotable
    rw [valueAt_update]
    exact add_nonneg (primal basic row isRow basicPivotable)
      (mul_nonneg (not_lt.mp fun shrinks =>
        leaving_of_shrinking indexed basicPivotable isRow shrinks unlimited) forward)
  · intro symbol _
    rw [Function.update_apply]
    split
    · exact forward
    · exact le_rfl
  · rintro symbol fixed
    refine Function.update_of_ne ?_ _ _
    rintro rfl
    rw [pivotable] at fixed
    cases fixed

theorem not_bddBelow_of_unlimited [IsStrictOrderedRing K] {entering : Symbol}
    (enters : enteringSymbol? costs = some entering)
    (unlimited : before.leavingSymbol? entering = none) :
    ¬ BddBelow (before.attainable objective) := by
  rintro ⟨bound, isBound⟩
  have negative := entering_negative enters
  have reached : ∀ amount, 0 ≤ amount →
      bound ≤ costs.constant + costs.coefficient entering * amount := by
    intro amount forward
    have admits := admits_raised indexed primal (entering_mem enters).2 unlimited forward
    refine isBound ⟨_, admits, ?_⟩
    rw [admits.rows objective costs found, row_valueAt_completed indexed found, valueAt_update]
  have start := reached 0 le_rfl
  rw [mul_zero, add_zero] at start
  set amount := (bound - costs.constant - 1) / costs.coefficient entering
  have far := reached amount (div_nonneg_of_nonpos (by linarith) negative.le)
  rw [mul_div_cancel₀ _ negative.ne] at far
  linarith

end Ending

/-! Minimization -/

section Minimizing

variable [IsStrictOrderedRing K]

/-- From any linked tableau that is not below zero, minimization stays there and ends at the least
value of the objective on all that the tableau admits; it gives up only if there is no lower
bound. -/
theorem minimize_attains (linked : before.Linked) (primal : before.PrimalFeasible)
    (isObjective : objective.kind = .objective) (isBasic : before.isBasic objective = true)
    (limit : Nat) :
    (minimize objective limit before).Meets
      (fun _ after => after.PrimalFeasible ∧ ∃ least, after.row? objective = some least ∧
        IsLeast (before.attainable objective) least.constant)
      (fun fault _ => fault = .internal .objectiveUnbounded ∧
        ¬ BddBelow (before.attainable objective)) := by
  have alike := linked.alike_reindexed
  have start := linked.indexed_reindexed
  have startPrimal : before.reindexed.PrimalFeasible := primal
  have along := fun {twin : Tableau K}
      (improved : Relation.ReflTransGen (Improves objective) before.reindexed twin) =>
    attainable_of_improvements improved start startPrimal
  rw [alike.attainable]
  refine linked.minimize_meets.imp ?_ ?_
  · rintro _ after ⟨twin, same, least, minimized⟩
    obtain ⟨indexed, twinPrimal, values⟩ := along minimized.improved
    refine ⟨same.primal twinPrimal, least, (same.row? objective).trans minimized.row, ?_⟩
    rw [← values]
    exact isLeast_of_settled indexed twinPrimal minimized.row minimized.settled
  · rintro fault after ⟨twin, _, improved, ⟨_, missing⟩ | ⟨rfl, _, costs, entering, found, enters,
      unlimited⟩⟩
    · have fixed : objective.isPivotable = false := by
        rw [Symbol.isPivotable, isObjective]
        rfl
      have present := (isBasic_of_improvements improved fixed).mpr isBasic
      rw [(twin.not_isBasic_iff objective).mpr missing] at present
      cases present
    · obtain ⟨indexed, twinPrimal, values⟩ := along improved
      refine ⟨rfl, ?_⟩
      rw [← values]
      exact not_bddBelow_of_unlimited indexed twinPrimal found enters unlimited

/-- A symbol that gains two a unit grows to its limit of four, whatever is queued. -/
theorem minimize_attains_capped :
    let gains : Expression ℚ := .ofSymbol ⟨1, .slack⟩ (-2)
    let capacity := (Expression.ofSymbol ⟨1, .slack⟩ (-1 : ℚ)).withConstant 4
    let start := ((addRow ∅ .mainObjective gains).addRow ⟨2, .slack⟩ capacity).markInfeasible
      ⟨3, .external⟩
    ((minimize .mainObjective 2 start).state?.bind (·.row? .mainObjective)).map (·.constant) =
        some (-8) ∧
      (minimize .mainObjective 2 start).Meets
        (fun _ after => after.PrimalFeasible ∧ ∃ least, after.row? .mainObjective = some least ∧
          IsLeast (start.attainable .mainObjective) least.constant)
        (fun fault _ => fault = .internal .objectiveUnbounded ∧
          ¬ BddBelow (start.attainable .mainObjective)) := by
  intro gains capacity start
  have linked : start.Linked := by decide +kernel
  have primal : start.PrimalFeasible := by decide +kernel
  exact ⟨by decide +kernel, minimize_attains linked primal rfl (by decide +kernel) 2⟩

end Minimizing

end Tableau

end SoftSimplex
