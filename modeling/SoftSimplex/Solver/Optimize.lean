import SoftSimplex.Solver.State

/-!
Optimization. `minimize` improves a feasible tableau by pivots until its objective is least;
`repair` brings a tableau of least objective back to feasibility. Values are published afterwards.
-/

namespace SoftSimplex

namespace Tableau

variable {K : Type} [Zero K] [Neg K] [Div K] [LT K] [DecidableLT K] [Scalar K]

def enteringSymbol? (objective : Expression K) : Option Symbol :=
  let candidates := objective.terms.entries.filter fun entry => entry.1.isPivotable
  match least? (fun value : K => value < 0) candidates with
  | none => none
  | some (symbol, value) => if Scalar.improving value then some symbol else none

def growthLimits (tableau : Tableau K) (entering : Symbol) : List (Symbol × K) :=
  (tableau.column entering).filterMap fun basic =>
    if basic.isPivotable then
      match tableau.row? basic with
      | none => none
      | some row =>
        if row.coefficient entering < 0 then
          some (basic, -row.constant / row.coefficient entering)
        else none
    else none

def leavingSymbol? (tableau : Tableau K) (entering : Symbol) : Option Symbol :=
  (least? Scalar.bounded (tableau.growthLimits entering)).map Prod.fst

def repairCosts (objective row : Expression K) : List (Symbol × K) :=
  row.terms.entries.filterMap fun entry =>
    if 0 < entry.2 ∧ entry.1.isPivotable then
      some (entry.1, objective.coefficient entry.1 / entry.2)
    else none

def repairingSymbol? (objective row : Expression K) : Option Symbol :=
  (least? Scalar.bounded (repairCosts objective row)).map Prod.fst

variable [One K] [Add K] [Mul K]

def improve (objective : Symbol) : Action K (Tableau K) Bool := do
  let tableau ← Action.get
  match tableau.row? objective with
  | none => Action.fail (.internal .objectiveMissing)
  | some row =>
    match enteringSymbol? row with
    | none => return false
    | some entering =>
      match tableau.leavingSymbol? entering with
      | none => Action.fail (.internal .objectiveUnbounded)
      | some leaving =>
        pivot entering leaving
        return true

def minimize (objective : Symbol) : Action K (Tableau K) Unit :=
  Action.loop (improve objective)

variable [LE K] [DecidableLE K]

/-- Takes the last queued row and pivots it out of the basis if its constant is below zero. -/
def repairLast (objective : Symbol) : Action K (Tableau K) Bool := do
  let tableau ← Action.get
  match tableau.infeasible.lastKey? with
  | none => return false
  | some leaving =>
    Action.modify fun queued => { queued with infeasible := queued.infeasible.dropLast }
    match tableau.row? leaving with
    | none => return true
    | some row =>
      if 0 ≤ row.constant then return true
      else
        match tableau.row? objective with
        | none => Action.fail (.internal .objectiveMissing)
        | some objectiveRow =>
          match repairingSymbol? objectiveRow row with
          | none => Action.fail (.internal .repairStuck)
          | some entering =>
            pivot entering leaving
            return true

def repair (objective : Symbol) : Action K (Tableau K) Unit :=
  Action.loop (repairLast objective)

end Tableau

namespace Solver

variable {K : Type} [Zero K]

def publishValues (solver : Solver K) : Solver K :=
  let parametric := solver.tableau.parametricExternals.keys.filter fun symbol =>
    !solver.tableau.isBasic symbol
  let zeroed := (parametric.filterMap (·.unknown?)).foldl
    (fun current unknown => current.setValue unknown 0) solver
  let solved := solver.tableau.basicExternals.keys.filterMap fun symbol =>
    match symbol.unknown?, solver.tableau.row? symbol with
    | some unknown, some row => some (unknown, row.constant)
    | _, _ => none
  { solved.foldl (fun current entry => current.setValue entry.1 entry.2) zeroed with
    needsSolving := false }

def publish : Action K (Solver K) Unit := do
  let solver ← Action.get
  let confused := solver.tableau.parametricExternals.keys.filter solver.tableau.isBasic
  Action.report ((confused.filterMap (·.unknown?)).map fun unknown =>
    .diagnostic (.parametricIsBasic unknown))
  Action.modify publishValues

variable [One K] [Add K] [Neg K] [Mul K] [Div K] [LT K] [DecidableLT K] [Scalar K]

def optimize : Action K (Solver K) Unit := do
  onTableau (Tableau.minimize .mainObjective)
  publish

def autoOptimize : Action K (Solver K) Unit := do
  let solver ← Action.get
  if solver.config.autoSolve then optimize else return ()

def solve : Action K (Solver K) Unit := do
  let solver ← Action.get
  if solver.needsSolving then optimize else return ()

end Solver

end SoftSimplex
