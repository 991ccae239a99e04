import SoftSimplex.Proofs.Refusal
import SoftSimplex.Proofs.Repair
import SoftSimplex.Proofs.Runs

/-!
The equation that a constraint becomes. Forming it gives out ids and changes nothing else. Up to a
sign, for which its constant is not negative, the equation is worth what the expression of the
constraint is worth together with the symbols made for it, whatever the rows of basic variables have
put in and whatever has cancelled.
-/

namespace SoftSimplex

variable {K : Type}

/-- The symbols made for a demand, with their coefficients. A slack is taken off an inequality and a
dummy is added to a required equality; if the demand is not required, there are errors both ways. -/
def Demand.balancers [One K] [Neg K] (demand : Demand K) (start : Nat) : List (Symbol × K) :=
  if demand.isRequired then
    if demand.isInequality then [(⟨start, .slack⟩, -1)] else [(⟨start, .dummy⟩, 1)]
  else [(⟨start, .slack⟩, -1), (⟨start + 1, .slack⟩, 1)]

def Demand.balanced [Field K] (demand : Demand K) (start : Nat) (assignment : Symbol → K) : K :=
  demand.expression.valueAt assignment +
    ((demand.balancers start).map fun entry => entry.2 * assignment entry.1).sum

namespace Solver

variable [Zero K] [One K] [Add K] [Neg K] [Mul K] [Div K] [LT K] [DecidableLT K] [Scalar K]

/-- Forms the equation of a demand and gives out the ids of the symbols made for it. -/
def form (demand : Demand K) : Action K (Solver K) (Equation K) := do
  let solver ← Action.get
  let equation := solver.tableau.equationOf solver.nextId demand
  Action.modify ({ · with nextId := equation.nextId })
  return equation

omit [Div K] in
theorem form_done (demand : Demand K) (limit : Nat) (before : Solver K) :
    form demand limit before = .done (before.tableau.equationOf before.nextId demand)
      { before with nextId := (before.tableau.equationOf before.nextId demand).nextId } [] :=
  rfl

theorem add_eq_form (constraint : Constraint K) : add constraint = (do
    let solver ← Action.get
    match solver.objection? constraint with
    | some fault => Action.fail fault
    | none =>
      Action.report [.adding constraint]
      let equation ← form constraint.toDemand
      match solver.tableau.choosePlacement? equation.row with
      | none =>
        Action.report [.contradicted constraint]
        Action.fail .requiredFailure
      | some placement =>
        match ← place equation placement with
        | .error fault =>
          Action.report [.refused constraint fault]
          Action.fail fault
        | .ok () =>
          Action.modify (·.record constraint equation)
          autoOptimize) := by
  funext limit before
  unfold add
  rw [Action.get_bind, Action.get_bind]
  cases before.objection? constraint with
  | some fault => rfl
  | none =>
    dsimp only
    rw [Action.report_bind, Action.report_bind, Action.modify_bind]
    have formed := form_done constraint.toDemand limit before
    refine congrArg (Outcome.after [.adding constraint]) (Eq.symm ?_)
    exact (Action.bind_done formed).trans (Outcome.after_nil _)

end Solver

namespace Tableau

/-- What the equation of a demand must be, in a tableau that has no symbols from a given id on. -/
structure Forms [Field K] [LinearOrder K] (tableau : Tableau K) (start : Nat) (demand : Demand K)
    (equation : Equation K) : Prop where
  made : equation.MadeFor demand start
  nonneg : 0 ≤ equation.row.constant
  parametric : ∀ symbol ∈ equation.row.symbols, tableau.isBasic symbol = false
  fresh : ∀ entry ∈ demand.balancers start, tableau.isBasic entry.1 = false ∧
    tableau.hasColumn entry.1 = false ∧ entry.1 ∉ demand.expression.symbols
  signed : ∃ sign : K, (sign = 1 ∨ sign = -1) ∧
    (∀ entry ∈ demand.balancers start, equation.row.coefficient entry.1 = sign * entry.2) ∧
    ∀ assignment, tableau.Solves assignment →
      equation.row.valueAt assignment = sign * demand.balanced start assignment

theorem kind_of_balancers [One K] [Neg K] {demand : Demand K} {start : Nat} {entry : Symbol × K}
    (member : entry ∈ demand.balancers start) :
    (entry.1.kind = .slack ∨ entry.1.kind = .dummy) ∧ start ≤ entry.1.id := by
  unfold Demand.balancers at member
  split at member
  · split at member <;> simp only [List.mem_singleton] at member <;> subst member <;> simp
  · simp only [List.mem_cons, List.not_mem_nil, or_false] at member
    rcases member with rfl | rfl <;> simp

variable [Field K] [LinearOrder K] {tableau : Tableau K} {start : Nat} {demand : Demand K}

theorem equationOf_signed (tableau : Tableau K) (start : Nat) (demand : Demand K) :
    ∃ sign : K, (sign = 1 ∨ sign = -1) ∧
      (∀ symbol, (tableau.equationOf start demand).row.coefficient symbol =
        sign * (tableau.rawEquation start demand).row.coefficient symbol) ∧
      ∀ assignment, (tableau.equationOf start demand).row.valueAt assignment =
        sign * (tableau.rawEquation start demand).row.valueAt assignment := by
  unfold equationOf
  dsimp only
  split
  · refine ⟨-1, Or.inr rfl, fun symbol => ?_, fun assignment => ?_⟩
    · rw [Expression.coefficient_times, mul_comm]
    · rw [Expression.valueAt_times, mul_comm]
  · exact ⟨1, Or.inl rfl, fun symbol => (one_mul _).symm, fun assignment => (one_mul _).symm⟩

theorem valueAt_rawEquation_balanced (fits : tableau.Fits start) (external : demand.External)
    {assignment : Symbol → K} (solves : tableau.Solves assignment) :
    (tableau.rawEquation start demand).row.valueAt assignment =
      demand.balanced start assignment := by
  let entry : Installed K := ⟨⟨demand, 0⟩, ⟨start, demand.markerKind⟩⟩
  have raw : (tableau.rawEquation start demand).row.valueAt assignment =
      demand.expression.valueAt assignment - entry.balance assignment :=
    valueAt_rawEquation fits (show entry.constraint.External from external) solves
  have balance : ((demand.balancers start).map fun entry => entry.2 * assignment entry.1).sum =
      -entry.balance assignment := by
    simp only [entry, Installed.balance, Installed.error, Demand.balancers, Demand.markerKind]
    cases inequality : demand.isInequality <;> cases required : demand.isRequired <;>
      simp <;> ring
  rw [raw, Demand.balanced, balance, sub_eq_add_neg]

variable [IsStrictOrderedRing K]

theorem coefficient_rawEquation {entry : Symbol × K} (member : entry ∈ demand.balancers start) :
    (tableau.rawEquation start demand).row.coefficient entry.1 = entry.2 := by
  have one : Scalar.negligible (1 : K) = false := Solver.exact_units.one_kept
  have minus : Scalar.negligible (-1 : K) = false := Solver.exact_units.minus_kept
  unfold Demand.balancers at member
  unfold rawEquation Expression.coefficient
  cases inequality : demand.isInequality <;> cases required : demand.isRequired <;>
    simp only [inequality, required, if_true, Bool.false_eq_true, if_false, List.mem_cons,
      List.not_mem_nil, or_false, Expression.get?_setTerm _ _ _ one,
      Expression.get?_setTerm _ _ _ minus] at member ⊢
  · rcases member with rfl | rfl <;> simp
  · rw [member, if_pos rfl, Option.getD_some]
  · rcases member with rfl | rfl <;> simp
  · rw [member, if_pos rfl, Option.getD_some]

theorem equationOf_forms (fits : tableau.Fits start) (external : demand.External) :
    tableau.Forms start demand (tableau.equationOf start demand) := by
  obtain ⟨sign, isSign, coefficients, values⟩ := tableau.equationOf_signed start demand
  refine ⟨madeFor_equationOf _ _ _, equationOf_constant_nonneg _ _ _,
    fun symbol member => (mem_symbols_of_equationOf fits external member).1, ?_,
    sign, isSign, ?_, ?_⟩
  · intro entry member
    obtain ⟨kind, later⟩ := kind_of_balancers member
    have isInternal : entry.1.isExternal = false := by
      rcases kind with isSlack | isDummy
      · rw [Symbol.isExternal, isSlack]
        rfl
      · rw [Symbol.isExternal, isDummy]
        rfl
    have notObjective : entry.1 ≠ .mainObjective := by
      intro same
      rw [same] at kind
      rcases kind with kind | kind <;> cases kind
    obtain ⟨notBasic, noColumn⟩ := fits.fresh later notObjective isInternal
    refine ⟨notBasic, noColumn, fun mentioned => ?_⟩
    rw [external entry.1 mentioned] at isInternal
    cases isInternal
  · intro entry member
    rw [coefficients, coefficient_rawEquation member]
  · intro assignment solves
    rw [values, valueAt_rawEquation_balanced fits external solves]

end Tableau

namespace Session

variable [Field K] [LinearOrder K] [IsStrictOrderedRing K]

/-- In any session that calls can reach, forming the equation of a demand on variables gives out ids
and leaves all else as it is, and what it returns is that demand as an equation. -/
theorem form_of_reachable {session : Session K} (reachable : session.Reachable) {demand : Demand K}
    (external : demand.External) (limit : Nat) :
    ∃ equation, Solver.form demand limit session.solver =
        .done equation { session.solver with nextId := equation.nextId } [] ∧
      session.solver.tableau.Forms session.solver.nextId demand equation := by
  have fits := reachable.sound.solver.fits
  exact ⟨_, Solver.form_done demand limit session.solver, Tableau.equationOf_forms fits external⟩

/-- With a variable bound to one from above, twice the variable is asked to be five at least: in the
slack of the bound the constant would be below zero, so the equation is turned around. -/
theorem form_of_reachable_turned :
    let session : Session ℚ := (start (.withConfig .standard) .log).replay 8
      [.newVariable none 0, .make (.atMost (.ofVariable ⟨1⟩) (.ofConstant 1) .required), .add 0]
    let demand : Demand ℚ :=
      .atLeast ((Expression.ofVariable ⟨1⟩).times 2) (.ofConstant 5) .strong
    session.Reachable ∧ demand.External ∧
      session.solver.tableau.isBasic ⟨1, .external⟩ = true ∧
      (session.solver.tableau.equationOf session.solver.nextId demand).row.constant = 3 ∧
      (session.solver.tableau.equationOf session.solver.nextId demand).row.terms.entries.map
        (fun entry => (entry.1.text, entry.2)) = [("s2", 2), ("s3", 1), ("s4", -1)] ∧
      ∃ equation, Solver.form demand 0 session.solver =
          .done equation { session.solver with nextId := equation.nextId } [] ∧
        session.solver.tableau.Forms session.solver.nextId demand equation := by
  intro session demand
  have reachable : session.Reachable :=
    (Runs.fresh _ _).replay
      ⟨trivial, Demand.external_upperBound ⟨1⟩ 1 .required, trivial, trivial⟩
  have external : demand.External := by decide +kernel
  exact ⟨reachable, external, by decide +kernel, by decide +kernel, by decide +kernel,
    form_of_reachable reachable external 0⟩

end Session

end SoftSimplex
