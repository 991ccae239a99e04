import SoftSimplex.Proofs.Nesting

/-!
What a constraint costs is settled when it comes in. The charge that its addition puts into the
objective is kept beside it, and its removal takes out the charge that is kept, whatever strength
the constraint has by then.
-/

namespace SoftSimplex

variable {K α : Type} [Zero K]

/-- The tableau after the errors of a constraint are taken out of the objective. -/
def Tableau.refunded [Add K] [Neg K] [Mul K] [Scalar K] (tableau : Tableau K) :
    Option (Charge K) → Tableau K
  | none => tableau
  | some charge => charge.symbols.foldl (refundError charge.coefficient) tableau

namespace Solver

open SoftSimplex.Action

theorem withdraw_refunds [Add K] [Neg K] [Mul K] [Scalar K] (solver : Solver K)
    (constraint : Constraint K) : (solver.withdraw constraint).tableau =
      solver.settleStays.tableau.refunded (solver.charges.get? constraint.key) := by
  unfold withdraw
  cases solver.charges.get? constraint.key <;> rfl

variable [One K] [Add K] [Mul K] [Scalar K]

/-- The constraints on record are charged for as they were when they came in, and nothing else is. -/
def Charged (records : Records K) : Prop := ∀ key, records.charges.get? key =
  (records.installed.get? key).bind fun entry => entry.constraint.chargeAt entry.marker.id

variable {before after : Solver K} {constraint : Constraint K}

theorem charged_record (charged : Charged before.records)
    (missing : before.installed.get? constraint.key = none) {equation : Equation K} {start : Nat}
    (made : equation.MadeFor constraint.toDemand start) :
    Charged (before.record constraint equation).records := by
  intro key
  change (before.record constraint equation).charges.get? key =
    ((before.record constraint equation).installed.get? key).bind _
  rw [get?_charges_record, get?_installed_record]
  split
  · have uncharged : before.charges.get? key = none := by
      rw [show before.charges.get? key = _ from charged key, ← ‹constraint.key = key›]
      exact congrArg (Option.bind · _) missing
    rw [uncharged, Option.or_none, made.charge, Option.bind_some, made.marker]
  · exact charged key

variable [Neg K]

theorem charged_withdraw (charged : Charged before.records) (constraint : Constraint K) :
    Charged (before.withdraw constraint).records := by
  intro key
  simp only [records, Solver.withdraw, Table.get?_erase]
  split
  · rfl
  · exact charged key

variable [LT K] [DecidableLT K]

theorem charged_eq (solver : Solver K) (constraint : Constraint K) : solver.charged constraint =
    chargeObjective (constraint.chargeAt solver.nextId) solver.tableau := by
  rw [charged, (solver.equationFor_made constraint).charge]

variable [Div K]

theorem charged_add (constraint : Constraint K) :
    (add constraint).Keeps fun solver => Charged solver.records :=
  keeps_add Charged fun before _ missing same charged => charged_record charged
    ((congrArg (·.installed.get? constraint.key) same).trans missing)
    (before.equationFor_made constraint)

theorem charged_removeEdit (unknown : Variable) :
    (removeEdit unknown : Action K (Solver K) Unit).Keeps fun solver => Charged solver.records :=
  keeps_removeEdit Charged (fun constraint => keeps_remove Charged
    (fun _ charged => charged_withdraw charged constraint) fun _ _ _ charged => charged) unknown

variable [Sub K] [LE K] [DecidableLE K]

theorem charged_of_basic {action : Action K (Solver K) α} (isBasic : Basic α action) :
    action.Keeps fun solver => Charged solver.records := by
  cases isBasic with
  | reserve demand => exact (unrecorded_freshConstraint demand).keeps Charged
  | add constraint => exact charged_add constraint
  | tryAdd constraint => exact keeps_tryAdd Charged (charged_add constraint)
  | remove constraint =>
    exact keeps_remove Charged (fun _ charged => charged_withdraw charged constraint)
      fun _ _ _ charged => charged
  | removeEdit unknown => exact charged_removeEdit unknown
  | suggest unknown target => exact keeps_suggest Charged (fun _ _ charged => charged) unknown target
  | optimize => exact unrecorded_optimize.keeps Charged
  | resolve => exact unrecorded_resolve.keeps Charged
  | beginEdit => exact keeps_beginEdit fun _ charged => charged
  | endEdit =>
    exact keeps_endEdit (unrecorded_resolve.keeps Charged) (fun _ charged => charged)
      (keeps_trimEdits charged_removeEdit)
  | warn warning => exact keeps_report _
  | assign unknown value => exact keeps_modify fun _ charged => charged
  | configure autoSolve => exact keeps_modify fun _ charged => charged

end Solver

theorem Session.charged_perform [One K] [Add K] [Sub K] [Neg K] [Mul K] [Div K] [LT K]
    [DecidableLT K] [LE K] [DecidableLE K] [Scalar K] (request : Call K) :
    (perform request).Keeps fun session => Solver.Charged session.solver.records := by
  refine (performScript request).holds_of_parts (Action.compositional_keeps _ _) fun change => ?_
  cases change with
  | solver script =>
    exact keeps_onSolver
      (script.holds_of_parts (Action.compositional_keeps _ _) Solver.charged_of_basic)
  | create name value => exact fun _ _ charged => charged
  | hold made => exact Action.keeps_modify fun _ charged => charged
  | reset => exact Action.keeps_fail _

end SoftSimplex
