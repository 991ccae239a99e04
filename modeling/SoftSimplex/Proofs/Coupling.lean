import SoftSimplex.Proofs.Markers

/-!
The two symbols of a constraint that is not required. Its equation knows only their difference, so
that both can be raised by one amount without leaving the solutions. In every row their coefficients
therefore cancel, but for the row of one of the two itself: there the other one has the coefficient
one, and it occurs in no other row.
-/

namespace SoftSimplex

namespace Tableau

variable {K : Type} [Field K] {tableau : Tableau K} {left right : Symbol}

/-! Symbols that can be raised together -/

def raised (left right : Symbol) (amount : K) (assignment : Symbol → K) : Symbol → K :=
  Function.update (Function.update assignment left (assignment left + amount)) right
    (assignment right + amount)

def Tied (tableau : Tableau K) (left right : Symbol) : Prop :=
  ∀ amount assignment, tableau.Solves assignment →
    tableau.Solves (raised left right amount assignment)

theorem raised_apply (left right : Symbol) (amount : K) (assignment : Symbol → K)
    (symbol : Symbol) : raised left right amount assignment symbol =
      assignment symbol + if symbol = left ∨ symbol = right then amount else 0 := by
  unfold raised
  by_cases isRight : symbol = right
  · rw [isRight, Function.update_self, if_pos (.inr rfl)]
  · rw [Function.update_of_ne isRight]
    by_cases isLeft : symbol = left
    · rw [isLeft, Function.update_self, if_pos (.inl rfl)]
    · rw [Function.update_of_ne isLeft, if_neg (not_or.mpr ⟨isLeft, isRight⟩), add_zero]

theorem valueAt_raised (apart : left ≠ right) (expression : Expression K) (amount : K)
    (assignment : Symbol → K) :
    expression.valueAt (raised left right amount assignment) = expression.valueAt assignment +
      (expression.coefficient left + expression.coefficient right) * amount := by
  rw [raised, Expression.valueAt_update, Expression.valueAt_update,
    Function.update_of_ne (Ne.symm apart)]
  ring

theorem coefficient_of_basic (indexed : tableau.Indexed) {symbol basic : Symbol}
    (isBasic : tableau.isBasic symbol = true) {row : Expression K}
    (found : tableau.row? basic = some row) : row.coefficient symbol = 0 :=
  row.coefficient_eq_zero (indexed.not_mem_of_basic isBasic found)

theorem Tied.coefficients (tied : tableau.Tied left right) (apart : left ≠ right)
    (indexed : tableau.Indexed) {basic : Symbol} {row : Expression K}
    (found : tableau.row? basic = some row) (notObjective : basic.kind ≠ .objective) :
    row.coefficient left + row.coefficient right =
      if basic = left ∨ basic = right then 1 else 0 := by
  have solves : tableau.Solves tableau.basicSolution := solves_completed indexed _
  have holds := solves basic row found notObjective
  have raisedHolds := tied 1 _ solves basic row found notObjective
  rw [raised_apply, valueAt_raised apart, ← holds, mul_one] at raisedHolds
  exact (add_left_cancel raisedHolds).symm

theorem Tied.not_both (tied : tableau.Tied left right) (apart : left ≠ right)
    (indexed : tableau.Indexed) (notObjective : left.kind ≠ .objective)
    (leftBasic : tableau.isBasic left = true) : tableau.isBasic right = false := by
  rw [Bool.eq_false_iff]
  intro rightBasic
  obtain ⟨row, found⟩ := (tableau.isBasic_iff left).mp leftBasic
  have sum := tied.coefficients apart indexed found notObjective
  rw [coefficient_of_basic indexed leftBasic found, coefficient_of_basic indexed rightBasic found,
    add_zero, if_pos (.inl rfl)] at sum
  exact zero_ne_one sum

/-! Couples -/

/-- A parametric symbol stands in the row of a basic one with the coefficient one, and in no other
row but those of objectives. -/
structure Attached (tableau : Tableau K) (parametric basic : Symbol) : Prop where
  here : ∃ row, tableau.row? basic = some row ∧ row.terms.get? parametric = some 1
  elsewhere : ∀ other row, tableau.row? other = some row → other.kind ≠ .objective →
    other ≠ basic → parametric ∉ row.symbols

structure Coupled (tableau : Tableau K) (plus minus : Symbol) : Prop where
  oneBasic : ¬ (tableau.isBasic plus = true ∧ tableau.isBasic minus = true)
  opposite : tableau.isBasic plus = false → tableau.isBasic minus = false →
    ∀ basic row, tableau.row? basic = some row → basic.kind ≠ .objective →
      row.coefficient plus = -row.coefficient minus
  used : tableau.isBasic plus = false → tableau.isBasic minus = false →
    ∃ basic row, tableau.row? basic = some row ∧ basic.kind ≠ .objective ∧
      row.coefficient plus ≠ 0
  plusBasic : tableau.isBasic plus = true → tableau.Attached minus plus
  minusBasic : tableau.isBasic minus = true → tableau.Attached plus minus

theorem Tied.symm (tied : tableau.Tied left right) : tableau.Tied right left := by
  intro amount assignment solves
  have same : raised right left amount assignment = raised left right amount assignment := by
    funext symbol
    rw [raised_apply, raised_apply]
    simp only [or_comm]
  exact same ▸ tied amount assignment solves

theorem Tied.attached (tied : tableau.Tied left right) (apart : left ≠ right)
    (indexed : tableau.Indexed) (pruned : tableau.Pruned) (notObjective : left.kind ≠ .objective)
    (leftBasic : tableau.isBasic left = true) : tableau.Attached right left := by
  have coefficient : ∀ {basic row}, tableau.row? basic = some row → basic.kind ≠ .objective →
      row.coefficient right = if basic = left ∨ basic = right then 1 else 0 := by
    intro basic row found nonObjective
    rw [← tied.coefficients apart indexed found nonObjective,
      coefficient_of_basic indexed leftBasic found, zero_add]
  constructor
  · obtain ⟨row, found⟩ := (tableau.isBasic_iff left).mp leftBasic
    have one := coefficient found notObjective
    rw [if_pos (.inl rfl)] at one
    refine ⟨row, found, ?_⟩
    cases stored : row.terms.get? right with
    | none => simp [Expression.coefficient, stored] at one
    | some value => simpa [Expression.coefficient, stored] using one
  · intro other row found nonObjective different member
    have rightParametric := tied.not_both apart indexed notObjective leftBasic
    have notRight : other ≠ right := by
      rintro rfl
      rw [isBasic_of_row? found] at rightParametric
      cases rightParametric
    refine (pruned other row found).coefficient_ne_zero member ?_
    rw [coefficient found nonObjective, if_neg (not_or.mpr ⟨different, notRight⟩)]

theorem Tied.coupled (tied : tableau.Tied left right) (apart : left ≠ right)
    (indexed : tableau.Indexed) (pruned : tableau.Pruned) (leftInternal : left.kind ≠ .objective)
    (rightInternal : right.kind ≠ .objective) (anchored : tableau.InConstraintRows left) :
    tableau.Coupled left right where
  oneBasic := by
    rintro ⟨leftBasic, rightBasic⟩
    rw [tied.not_both apart indexed leftInternal leftBasic] at rightBasic
    cases rightBasic
  opposite := by
    intro leftParametric rightParametric basic row found notObjective
    have other : ¬ (basic = left ∨ basic = right) := by
      have isBasic := isBasic_of_row? found
      rintro (rfl | rfl)
      · exact Bool.false_ne_true (leftParametric.symm.trans isBasic)
      · exact Bool.false_ne_true (rightParametric.symm.trans isBasic)
    have sum := tied.coefficients apart indexed found notObjective
    rw [if_neg other] at sum
    exact eq_neg_of_add_eq_zero_left sum
  used := by
    intro leftParametric _
    rcases anchored with leftBasic | ⟨basic, notObjective, row, found, member⟩
    · exact absurd (leftParametric.symm.trans leftBasic) Bool.false_ne_true
    · exact ⟨basic, row, found, notObjective, (pruned basic row found).coefficient_ne_zero member⟩
  plusBasic := tied.attached apart indexed pruned leftInternal
  minusBasic := tied.symm.attached (Ne.symm apart) indexed pruned rightInternal

end Tableau

namespace Solver

variable {K : Type} [Field K] [LinearOrder K] {solver : Solver K} {offsets : Nat → K} {key : Nat}
  {entry : Installed K}

theorem Encodes.tied (encodes : solver.Encodes offsets) (sound : solver.Sound)
    (found : solver.installed.get? key = some entry) (soft : entry.constraint.isRequired = false) :
    solver.tableau.Tied entry.marker entry.error := by
  intro amount assignment solves
  have balanced := (encodes.solves assignment).mp solves
  have marker := entry.marker_mem_symbols
  have error := Installed.error_mem_symbols soft
  refine (encodes.solves _).mpr fun other owner owned => ?_
  have holds := balanced other owner owned
  rw [Tableau.raised, Tableau.valueAt_update_fresh (not_mem_expression sound owned found error),
    Tableau.valueAt_update_fresh (not_mem_expression sound owned found marker), holds]
  by_cases same : other = key
  · subst same
    have sameEntry : owner = entry := Option.some.inj (owned.symm.trans found)
    subst sameEntry
    simp only [Installed.balance, soft, Bool.false_eq_true, if_false, Function.update_self,
      Function.update_of_ne owner.marker_ne_error]
    ring
  · rw [Installed.balance_update (not_mem_symbols sound owned found same error),
      Installed.balance_update (not_mem_symbols sound owned found same marker)]

theorem Encodes.coupled (encodes : solver.Encodes offsets) (sound : solver.Sound)
    (found : solver.installed.get? key = some entry) (soft : entry.constraint.isRequired = false) :
    solver.tableau.Coupled entry.marker entry.error := by
  have enters := sound.books.entries key entry found
  have marker := (enters.symbol_known entry.marker_mem_symbols).2.2
  have error := (enters.symbol_known (Installed.error_mem_symbols soft)).2.2
  exact (encodes.tied sound found soft).coupled entry.marker_ne_error sound.fits.indexed
    encodes.pruned marker error (encodes.inConstraintRows sound found)

end Solver

namespace Session

/-- A constraint that is not required is charged for through the second of its two symbols, an
equation also through the first. The two symbols are coupled in every session that calls reach. -/
theorem coupled_of_reachable {K : Type} [Field K] [LinearOrder K] {session : Session K}
    (reachable : session.Reachable) :
    ∀ key entry, session.solver.installed.get? key = some entry →
      entry.constraint.isRequired = false →
        (∃ cost, session.solver.charges.get? key = some cost ∧
          cost.symbols = if entry.constraint.isInequality then [entry.error]
            else [entry.error, entry.marker]) ∧
          session.solver.tableau.Coupled entry.marker entry.error := by
  obtain ⟨sound, offsets, encodes⟩ := reachable.encodes
  intro key entry found soft
  have enters := sound.solver.books.entries key entry found
  refine ⟨⟨_, enters.soft_charge soft, ?_⟩, encodes.coupled sound.solver found soft⟩
  rw [← enters.marker_of_soft soft]

/-- A variable is held at ten. Of one unmet wish the slack is basic, of another the error, and the
two symbols of the last one share a row. -/
theorem coupled_of_reachable_placed :
    let session : Session ℚ := (start (.withConfig .standard) .log).replay 8
      [.newVariable none 0, .newVariable none 0,
        .make (.equal (.ofVariable ⟨1⟩) (.ofConstant 10) .required),
        .make (.equal (.ofVariable ⟨1⟩) (.ofConstant 30) .weak),
        .make (.atLeast (.ofVariable ⟨1⟩) (.ofConstant 5) .medium),
        .make (.equal (.ofVariable ⟨2⟩) (.ofVariable ⟨1⟩) .weak), .add 0, .add 1, .add 2, .add 3]
    session.Reachable ∧
      session.solver.installed.values.map (·.symbols.map (·.text)) =
        [["d3"], ["s4", "s5"], ["s6", "s7"], ["s8", "s9"]] ∧
      session.solver.tableau.rows.keys.map (·.text) = ["z0", "v1", "s5", "s6", "v2"] ∧
      ∀ key entry, session.solver.installed.get? key = some entry →
        entry.constraint.isRequired = false →
          session.solver.tableau.Coupled entry.marker entry.error := by
  intro session
  have follows : (Demand.equal (.ofVariable ⟨2⟩) (.ofVariable ⟨1⟩) .weak : Demand ℚ).External := by
    decide +kernel
  have reachable : session.Reachable :=
    (Runs.fresh _ _).replay
      ⟨trivial, trivial, Demand.external_lowerBound ⟨1⟩ 10 .required,
        Demand.external_lowerBound ⟨1⟩ 30 .weak, Demand.external_lowerBound ⟨1⟩ 5 .medium, follows,
        trivial, trivial, trivial, trivial, trivial⟩
  exact ⟨reachable, by decide +kernel, by decide +kernel, fun key entry found soft =>
    (coupled_of_reachable reachable key entry found soft).2⟩

end Session

end SoftSimplex
