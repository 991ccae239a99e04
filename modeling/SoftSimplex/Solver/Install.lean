import SoftSimplex.Solver.Optimize

/-!
Adding constraints. A constraint becomes an equation over parametric symbols and symbols of its
own. One symbol of the equation becomes basic: at once if there is a fit one, otherwise by way of an
artificial symbol that is minimized out of the basis. A constraint that contradicts the required
ones leaves no trace but used ids.
-/

namespace SoftSimplex

/-- A constraint as the equation `0 = row`, with the symbols made for it. -/
structure Equation (K : Type) where
  row : Expression K
  marker : Symbol
  charge : Option (Charge K)
  /-- The error symbols of an edit or a stay, plus and minus. -/
  pair : Option (Symbol × Symbol)
  nextId : Nat

inductive Placement (K : Type) where
  | direct (subject : Symbol) (row : Expression K)
  | artificial (row : Expression K)

namespace Tableau

variable {K : Type}

section Forming

variable [Scalar K] [Add K] [Mul K]

def addReduced (tableau : Tableau K) (row : Expression K) (entry : Symbol × K) : Expression K :=
  match tableau.row? entry.1 with
  | some definition => row.addScaled definition entry.2
  | none => (row.addTerm entry.1 entry.2).1

def reduce (tableau : Tableau K) (expression : Expression K) : Expression K :=
  expression.terms.entries.foldl tableau.addReduced (.ofConstant expression.constant)

variable [Zero K] [One K] [Neg K] [LT K] [DecidableLT K]

def rawEquation (tableau : Tableau K) (nextId : Nat) (demand : Demand K) : Equation K :=
  let row := tableau.reduce demand.expression
  let coefficient := demand.strength.unitCost demand.weight
  let first : Symbol := ⟨nextId, .slack⟩
  let second : Symbol := ⟨nextId + 1, .slack⟩
  let dummy : Symbol := ⟨nextId, .dummy⟩
  match demand.isInequality, demand.isRequired with
  | true, true => ⟨(row.setTerm first (-1)).1, first, none, none, nextId + 1⟩
  | true, false =>
    ⟨((row.setTerm first (-1)).1.setTerm second 1).1, first, some ⟨[second], coefficient⟩, none,
      nextId + 2⟩
  | false, true => ⟨(row.setTerm dummy 1).1, dummy, none, none, nextId + 1⟩
  | false, false =>
    ⟨((row.setTerm first (-1)).1.setTerm second 1).1, first,
      some ⟨[second, first], coefficient⟩,
      if demand.isEdit ∨ demand.isStay then some (first, second) else none, nextId + 2⟩

/-- The equation of a constraint, its constant not negative. -/
def equationOf (tableau : Tableau K) (nextId : Nat) (demand : Demand K) : Equation K :=
  let raw := tableau.rawEquation nextId demand
  if raw.row.constant < 0 then { raw with row := raw.row.times (-1) } else raw

end Forming

inductive Candidate where
  | nothing
  | restricted (symbol : Symbol)
  | unrestricted (symbol : Symbol)
  /-- Unrestricted, without a column, and not the first unrestricted symbol met. -/
  | settled (symbol : Symbol)
  deriving DecidableEq, Repr

def Candidate.symbol? : Candidate → Option Symbol
  | nothing => none
  | restricted symbol | unrestricted symbol | settled symbol => some symbol

def isUnused (tableau : Tableau K) (symbol : Symbol) : Bool :=
  match tableau.columns.get? symbol with
  | none => true
  | some rows => rows.keys == [.mainObjective]

/-- A restricted symbol is a candidate if nothing else uses it and it can take the constant. -/
def scanTerm [Zero K] [LT K] [DecidableLT K] (tableau : Tableau K) (found : Candidate)
    (entry : Symbol × K) : Candidate :=
  match found with
  | .settled symbol => .settled symbol
  | .unrestricted symbol =>
    if !entry.1.isRestricted && !tableau.hasColumn entry.1 then .settled entry.1
    else .unrestricted symbol
  | .restricted symbol =>
    if entry.1.isRestricted then .restricted symbol else .unrestricted entry.1
  | .nothing =>
    if !entry.1.isRestricted then .unrestricted entry.1
    else if !entry.1.isDummy ∧ entry.2 < 0 ∧ tableau.isUnused entry.1 then .restricted entry.1
    else .nothing

/-- The symbol that can become basic at once, unrestricted ones before restricted ones. -/
def readySubject? [Zero K] [LT K] [DecidableLT K] (tableau : Tableau K) (row : Expression K) :
    Option Symbol :=
  (row.terms.entries.foldl tableau.scanTerm .nothing).symbol?

def freshDummy? (tableau : Tableau K) (row : Expression K) : Option (Symbol × K) :=
  (row.terms.entries.filter fun entry => !tableau.hasColumn entry.1).getLast?

/-- Decides which symbol of an equation becomes basic. None does if the equation is among dummies
alone and its constant is not zero: it contradicts what is required. -/
def choosePlacement? [Zero K] [One K] [Neg K] [Mul K] [LT K] [DecidableLT K] [Scalar K]
    (tableau : Tableau K) (row : Expression K) : Option (Placement K) :=
  match tableau.readySubject? row with
  | some subject => some (.direct subject row)
  | none =>
    if !row.symbols.all (·.isDummy) then some (.artificial row)
    else if !Scalar.close row.constant 0 then none
    else
      match tableau.freshDummy? row with
      | none => some (.artificial row)
      | some (subject, value) =>
        some (.direct subject (if 0 < value then row.times (-1) else row))

variable [Zero K] [One K] [Add K] [Neg K] [Mul K] [Div K] [LT K] [DecidableLT K] [Scalar K]

def addSolved (subject : Symbol) (row : Expression K) : Action K (Tableau K) Unit :=
  match row.solveFor? subject with
  | none => Action.fail (.internal .subjectMissing)
  | some (_, solved) => Action.modify fun tableau =>
    let cleared := if tableau.hasColumn subject then tableau.eliminate subject solved else tableau
    cleared.addRow subject solved

def expelArtificial (artificial objective : Symbol) : Action K (Tableau K) Unit := do
  let tableau ← Action.get
  match tableau.row? artificial with
  | none => Action.modify fun reached => (reached.removeColumn artificial).removeRow objective
  | some row =>
    if row.isConstant then
      Action.modify fun reached => (reached.removeRow artificial).removeRow objective
    else
      match row.firstPivotable? with
      | none => Action.fail (.internal .artificialRowStuck)
      | some entering =>
        pivot entering artificial
        Action.modify fun reached => (reached.removeColumn artificial).removeRow objective

def addByArtificial (artificial objective : Symbol) (row : Expression K) :
    Action K (Tableau K) Unit := do
  Action.report [.artificial artificial row objective]
  Action.modify fun tableau => (tableau.addRow objective row).addRow artificial row
  minimize objective
  let tableau ← Action.get
  match tableau.row? objective with
  | none => Action.fail (.internal .artificialObjectiveMissing)
  | some least =>
    if !Scalar.close least.constant 0 then
      Action.modify fun reached =>
        ((reached.removeRow objective).removeRow artificial).removeColumn artificial
      Action.fail .requiredFailure
    else expelArtificial artificial objective

end Tableau

namespace Solver

variable {K : Type} [Zero K] [One K] [Add K] [Neg K] [Mul K] [Div K] [LT K] [DecidableLT K]
  [Scalar K]

/-- Why a constraint cannot be added as things stand, before any arithmetic. -/
def objection? (solver : Solver K) (constraint : Constraint K) : Option Fault :=
  if solver.hasConstraint constraint then some .duplicateConstraint
  else
    match constraint.kind with
    | .edit unknown =>
      if constraint.isRequired then some (.requiredEditVariable unknown)
      else if solver.edits.contains unknown then some (.duplicateEditVariable unknown)
      else none
    | _ => none

def chargeObjective (charge : Option (Charge K)) (tableau : Tableau K) : Tableau K :=
  match charge with
  | none => tableau
  | some charge => charge.symbols.foldl
    (fun current symbol => current.setTermInRow .mainObjective symbol charge.coefficient) tableau

def record (solver : Solver K) (constraint : Constraint K) (equation : Equation K) :
    Solver K :=
  let charges :=
    match equation.charge with
    | none => solver.charges
    | some charge => solver.charges.insert constraint.key charge
  let recorded :=
    { solver with
      installed := solver.installed.insert constraint.key ⟨constraint, equation.marker⟩
      charges
      needsSolving := true }
  match constraint.kind, equation.pair with
  | .stay _, some pair => { recorded with stays := solver.stays ++ [pair] }
  | .edit unknown, some (plus, minus) =>
    { recorded with
      edits := solver.edits.insert unknown
        ⟨constraint, plus, minus, constraint.expression.constant, solver.edits.size⟩ }
  | _, _ => recorded

def placeByArtificial (restore : Tableau K) (row : Expression K) :
    Action K (Solver K) (Except Fault Unit) := do
  let artificial ← freshSymbol .artificial
  let objective ← freshSymbol .objective
  let outcome ← (onTableau (Tableau.addByArtificial artificial objective row)).attempt
  match outcome with
  | .ok () => return .ok ()
  | .error fault =>
    Action.modify (·.setTableau restore)
    return .error fault

def place (equation : Equation K) (placement : Placement K) :
    Action K (Solver K) (Except Fault Unit) := do
  let solver ← Action.get
  Action.modify fun current =>
    current.setTableau (chargeObjective equation.charge current.tableau)
  match placement with
  | .direct subject row => (onTableau (Tableau.addSolved subject row)).attempt
  | .artificial row => placeByArtificial solver.tableau row

def add (constraint : Constraint K) : Action K (Solver K) Unit := do
  let solver ← Action.get
  match solver.objection? constraint with
  | some fault => Action.fail fault
  | none =>
    Action.report [.adding constraint]
    let equation := solver.tableau.equationOf solver.nextId constraint.toDemand
    Action.modify ({ · with nextId := equation.nextId })
    match solver.tableau.choosePlacement? equation.row with
    | none =>
      Action.report [.contradicted constraint]
      Action.fail .requiredFailure
    | some placement =>
      match ← place equation placement with
      | .error fault =>
        Action.report [.refused constraint fault]
        Action.fail fault
      | .ok () =>
        Action.modify (·.record constraint equation)
        autoOptimize

def tryAdd (constraint : Constraint K) : Action K (Solver K) Bool := do
  match ← (add constraint).attempt with
  | .ok () => return true
  | .error .requiredFailure => return false
  | .error fault => Action.fail fault

def addNew (demand : Demand K) : Action K (Solver K) (Constraint K) := do
  let constraint ← freshConstraint demand
  add constraint
  return constraint

def addLowerBound (unknown : Variable) (lower : K) : Action K (Solver K) (Constraint K) :=
  addNew (.atLeast (.ofVariable unknown) (.ofConstant lower) .required)

def addUpperBound (unknown : Variable) (upper : K) : Action K (Solver K) (Constraint K) :=
  addNew (.atMost (.ofVariable unknown) (.ofConstant upper) .required)

def addBounds (unknown : Variable) (lower upper : K) :
    Action K (Solver K) (Constraint K × Constraint K) := do
  let below ← addLowerBound unknown lower
  let above ← addUpperBound unknown upper
  return (below, above)

end Solver

end SoftSimplex
