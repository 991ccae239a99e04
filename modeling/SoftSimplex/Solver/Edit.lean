import SoftSimplex.Solver.Remove

/-!
The edit protocol. An edit variable is held at a target by a constraint of its own. Suggesting
another target shifts row constants, and `resolve` repairs the rows that became infeasible. Sessions
nest; closing one removes the edit variables registered since it was opened.
-/

namespace SoftSimplex

namespace Tableau

variable {K : Type} [Zero K] [Add K] [LT K] [DecidableLT K]

def shiftError (tableau : Tableau K) (basic : Symbol) (row : Expression K) (amount : K) :
    Tableau K :=
  let shifted := tableau.setRow basic (row.increaseConstant amount)
  if row.constant + amount < 0 then shifted.markInfeasible basic else shifted

def shiftUse [Mul K] (minus : Symbol) (delta : K) (tableau : Tableau K) (basic : Symbol) :
    Tableau K :=
  match tableau.row? basic with
  | none => tableau
  | some row =>
    let shifted := row.increaseConstant (row.coefficient minus * delta)
    (tableau.setRow basic shifted).checkFeasible basic shifted.constant

/-- Moves the target of an edit, by the row of whichever of its error symbols is basic, or else by
the rows that mention its minus error. -/
def shiftTarget [Neg K] [Sub K] [Mul K] (tableau : Tableau K) (plus minus : Symbol) (delta : K) :
    Tableau K :=
  match tableau.row? plus, tableau.row? minus with
  | some row, _ => tableau.shiftError plus row delta
  | none, some row => tableau.shiftError minus row (-delta)
  | none, none => (tableau.column minus).foldl (shiftUse minus delta) tableau

end Tableau

namespace Solver

variable {K : Type} [Zero K] [One K] [Add K] [Sub K] [Neg K] [Mul K] [Div K]
  [LT K] [DecidableLT K] [LE K] [DecidableLE K] [Scalar K]

def addEdit (unknown : Variable) (strength : Strength) : Action K (Solver K) Unit := do
  let solver ← Action.get
  let constraint ← freshConstraint (.edit unknown (solver.value unknown) strength)
  (add constraint).mapFault (Fault.replacing .requiredFailure (.internal .editRefused))

def addDefaultEdit (unknown : Variable) : Action K (Solver K) Unit := do
  let solver ← Action.get
  addEdit unknown solver.config.editStrength

def removeEdit (unknown : Variable) : Action K (Solver K) Unit := do
  let solver ← Action.get
  match solver.edits.get? unknown with
  | none => Action.fail .constraintNotFound
  | some info => remove info.constraint

def beginEdit : Action K (Solver K) Unit := do
  let solver ← Action.get
  if solver.edits.isEmpty then Action.fail .noEditVariables
  else
    Action.report [.beginEdit solver.editCount]
    Action.modify fun current =>
      let settled := (current.setTableau current.tableau.clearInfeasible).settleStays
      { settled with depths := current.editCount :: current.depths }

def resolve : Action K (Solver K) Unit := do
  onTableau (Tableau.repair .mainObjective)
  publish
  Action.modify fun solver => (solver.setTableau solver.tableau.clearInfeasible).settleStays

def removeRegistered (unknown : Variable) : Action K (Solver K) Unit :=
  (removeEdit unknown).mapFault
    (Fault.replacing .constraintNotFound (.internal .editConstraintLost))

def trimEdits (count : Nat) : Action K (Solver K) Unit := do
  let solver ← Action.get
  let doomed := (solver.edits.entries.filter fun entry => count ≤ entry.2.index).map Prod.fst
  Action.forEach removeRegistered doomed
  let trimmed ← Action.get
  if trimmed.editCount = count then return ()
  else Action.report [.diagnostic (.editCountMismatch count trimmed.editCount)]

def removeAllEdits : Action K (Solver K) Unit := trimEdits 0

def endEdit : Action K (Solver K) Unit := do
  let solver ← Action.get
  if solver.edits.isEmpty then Action.fail .noEditVariables
  else if solver.depths.length < 2 then Action.fail .noEditSession
  else
    resolve
    Action.modify fun resolved => { resolved with depths := resolved.depths.tail }
    let closed ← Action.get
    let kept := closed.depths.headD 0
    Action.report [.endEdit kept]
    trimEdits kept

def suggest (unknown : Variable) (target : K) : Action K (Solver K) Unit := do
  let solver ← Action.get
  match solver.edits.get? unknown with
  | none =>
    Action.report [.diagnostic (.notAnEditVariable unknown)]
    Action.fail (.notAnEditVariable unknown)
  | some info =>
    Action.modify fun current =>
      { current with
        edits := current.edits.insert unknown { info with target }
        tableau := current.tableau.shiftTarget info.plus info.minus (target - info.target) }

def resolveAt (targets : List K) : Action K (Solver K) Unit := do
  let solver ← Action.get
  let suggestions := solver.edits.entries.filterMap fun entry =>
    targets[entry.2.index]?.map fun target => (entry.1, target)
  Action.forEach (fun suggestion => suggest suggestion.1 suggestion.2) suggestions
  resolve

def setEditedValue (unknown : Variable) (target : K) : Action K (Solver K) Unit := do
  let solver ← Action.get
  if !solver.containsVariable unknown then Action.modify (·.setValue unknown target)
  else if Scalar.close target (solver.value unknown) then return ()
  else
    addDefaultEdit unknown
    beginEdit
    (suggest unknown target).mapFault fun _ => .internal .suggestionRefused
    endEdit

end Solver

end SoftSimplex
