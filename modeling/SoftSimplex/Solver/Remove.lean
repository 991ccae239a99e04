import SoftSimplex.Solver.Install

/-!
Removing constraints. The marker of a constraint is brought into the basis and its row dropped,
which takes the equation out of the tableau; then every symbol made for the constraint goes.
-/

namespace SoftSimplex

namespace Tableau

variable {K : Type} [Zero K] [Neg K] [Div K] [LT K] [DecidableLT K]

def restrictedUses (tableau : Tableau K) (marker : Symbol) : List (Symbol × K × K) :=
  (tableau.column marker).filterMap fun basic =>
    if basic.isRestricted then
      (tableau.row? basic).map fun row => (basic, row.coefficient marker, row.constant)
    else none

/-- The row to exchange a marker with: a restricted row that shrinks with the marker if there is
one, else another restricted row, else any row but an objective. The least ratio decides. -/
def exitFor? (tableau : Tableau K) (marker : Symbol) : Option Symbol :=
  let uses := tableau.restrictedUses marker
  let shrinking := uses.filterMap fun (basic, value, constant) =>
    if value < 0 then some (basic, -constant / value) else none
  let anySign := uses.map fun (basic, value, constant) => (basic, constant / value)
  match least? (fun _ : K => true) shrinking with
  | some (basic, _) => some basic
  | none =>
    match least? (fun _ : K => true) anySign with
    | some (basic, _) => some basic
    | none => (tableau.column marker).find? fun basic => basic.kind != .objective

variable [One K] [Add K] [Mul K] [Scalar K]

def dropMarker (marker : Symbol) : Action K (Tableau K) Unit := do
  let tableau ← Action.get
  if tableau.isBasic marker then
    Action.modify (·.removeRow marker)
  else
    match tableau.exitFor? marker with
    | none => Action.modify (·.removeColumn marker)
    | some leaving =>
      pivot marker leaving
      Action.modify (·.removeRow marker)

def refundError (coefficient : K) (tableau : Tableau K) (symbol : Symbol) : Tableau K :=
  match tableau.row? symbol with
  | some row => tableau.addScaledToRow .mainObjective row (-coefficient)
  | none => tableau.addTermToRow .mainObjective symbol (-coefficient)

end Tableau

namespace Solver

variable {K : Type} [Zero K]

/-- Sets the constant in the row of one of a stay's error symbols to zero, so that the stay prefers
the present value. -/
def settleStay (tableau : Tableau K) (pair : Symbol × Symbol) : Tableau K :=
  let basic := if tableau.isBasic pair.1 then pair.1 else pair.2
  { tableau with rows := tableau.rows.modify basic (·.withConstant 0) }

def settleStays (solver : Solver K) : Solver K :=
  solver.setTableau (solver.stays.foldl settleStay solver.tableau)

def withdraw [Add K] [Neg K] [Mul K] [Scalar K] (solver : Solver K) (constraint : Constraint K) :
    Solver K :=
  let settled := solver.settleStays
  let refunded :=
    match solver.charges.get? constraint.key with
    | none => settled.tableau
    | some charge => charge.symbols.foldl (Tableau.refundError charge.coefficient) settled.tableau
  { settled with
    tableau := refunded
    charges := solver.charges.erase constraint.key
    installed := solver.installed.erase constraint.key
    needsSolving := true }

def dropErrors (solver : Solver K) (marker : Symbol) (charge : Charge K) : Solver K :=
  solver.setTableau
    ((charge.symbols.filter (· != marker)).foldl Tableau.removeColumn solver.tableau)

def dropStay (solver : Solver K) (charge : Charge K) : Solver K :=
  { solver with
    stays := solver.stays.filter fun pair =>
      !charge.symbols.contains pair.1 && !charge.symbols.contains pair.2 }

def dropEdit (solver : Solver K) (constraint : Constraint K) (unknown : Variable) : Solver K :=
  match solver.edits.get? unknown with
  | none => solver
  | some info =>
    if info.constraint == constraint then
      { solver with
        edits := solver.edits.erase unknown
        tableau := solver.tableau.removeColumn info.minus }
    else solver

def clearAway (solver : Solver K) (constraint : Constraint K) (marker : Symbol)
    (charge : Option (Charge K)) : Solver K :=
  let cleared :=
    match charge with
    | none => solver
    | some charge => solver.dropErrors marker charge
  match constraint.kind, charge with
  | .stay _, some charge => cleared.dropStay charge
  | .edit unknown, _ => cleared.dropEdit constraint unknown
  | _, _ => cleared

variable [One K] [Add K] [Neg K] [Mul K] [Div K] [LT K] [DecidableLT K] [Scalar K]

def remove (constraint : Constraint K) : Action K (Solver K) Unit := do
  let solver ← Action.get
  match solver.installed.get? constraint.key with
  | none => Action.fail .constraintNotFound
  | some entry =>
    Action.report [.removing constraint]
    Action.modify (·.withdraw constraint)
    onTableau (Tableau.dropMarker entry.marker)
    Action.modify (·.clearAway constraint entry.marker (solver.charges.get? constraint.key))
    autoOptimize

end Solver

end SoftSimplex
