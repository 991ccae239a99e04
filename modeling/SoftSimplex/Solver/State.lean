import SoftSimplex.Tableau

/-!
The state of a solver: a tableau, the constraints in it with the symbols made for them, the
variables with the values last published, and the edit protocol's bookkeeping.
-/

namespace SoftSimplex

structure Config (K : Type) where
  /-- Optimize and publish after every change; otherwise only on request. -/
  autoSolve : Bool
  editStrength : Strength
  /-- By what factor the weight grows from one point to the next in a list of point stays. -/
  pointStayGrowth : K

namespace Config

variable {K : Type} [One K] [Add K]

def standard : Config K := ⟨true, .strong, 1 + 1⟩

def batched : Config K := { standard with autoSolve := false }

end Config

structure VariableInfo (K : Type) where
  name : Option String
  value : K

/-- The error symbols of a constraint, and what a unit of each costs in the objective. -/
structure Charge (K : Type) where
  symbols : List Symbol
  coefficient : K

/-- A constraint in the tableau. Its marker is the symbol by which it can be taken out again. -/
structure Installed (K : Type) where
  constraint : Constraint K
  marker : Symbol

structure EditInfo (K : Type) where
  constraint : Constraint K
  plus : Symbol
  minus : Symbol
  target : K
  /-- The position in the order of registration. -/
  index : Nat

structure Solver (K : Type) where
  config : Config K
  tableau : Tableau K
  unknowns : Table Variable (VariableInfo K)
  installed : Table Nat (Installed K)
  /-- What the constraints that are not required cost, by key. -/
  charges : Table Nat (Charge K)
  /-- The error symbols of the stays, plus and minus. -/
  stays : List (Symbol × Symbol)
  edits : Table Variable (EditInfo K)
  /-- How many edit variables each open session began with, the innermost first. -/
  depths : List Nat
  nextId : Nat
  nextKey : Nat
  needsSolving : Bool

namespace Solver

variable {K : Type}

def withConfig [Zero K] (config : Config K) : Solver K where
  config
  tableau := Tableau.addRow ∅ .mainObjective (.ofConstant 0)
  unknowns := ∅
  installed := ∅
  charges := ∅
  stays := []
  edits := ∅
  depths := [0]
  nextId := 1
  nextKey := 0
  needsSolving := false

def new [Zero K] [One K] [Add K] : Solver K := withConfig .standard

def setAutoSolve (solver : Solver K) (autoSolve : Bool) : Solver K :=
  { solver with config := { solver.config with autoSolve } }

def setTableau (solver : Solver K) (tableau : Tableau K) : Solver K := { solver with tableau }

def newVariable (solver : Solver K) (name : Option String) (value : K) : Variable × Solver K :=
  let unknown : Variable := ⟨solver.nextId⟩
  (unknown, { solver with
    unknowns := solver.unknowns.insert unknown ⟨name, value⟩
    nextId := solver.nextId + 1 })

def value [Zero K] (solver : Solver K) (unknown : Variable) : K :=
  ((solver.unknowns.get? unknown).map (·.value)).getD 0

def name? (solver : Solver K) (unknown : Variable) : Option String :=
  (solver.unknowns.get? unknown).bind (·.name)

def setValue (solver : Solver K) (unknown : Variable) (value : K) : Solver K :=
  { solver with
    unknowns := solver.unknowns.upsert unknown ⟨none, value⟩ fun info => { info with value } }

def containsVariable (solver : Solver K) (unknown : Variable) : Bool :=
  solver.tableau.hasColumn unknown.symbol || solver.tableau.isBasic unknown.symbol

def findVariable? (solver : Solver K) (name : String) : Option Variable :=
  ((solver.tableau.columns.keys ++ solver.tableau.rows.keys).filterMap (·.unknown?)).find?
    fun unknown => solver.name? unknown == some name

def constraints (solver : Solver K) : List (Constraint K) :=
  solver.installed.values.map (·.constraint)

def constraintCount (solver : Solver K) : Nat := solver.installed.size

def hasConstraint (solver : Solver K) (constraint : Constraint K) : Bool :=
  solver.installed.contains constraint.key

def editInfo? (solver : Solver K) (unknown : Variable) : Option (EditInfo K) :=
  solver.edits.get? unknown

def editCount (solver : Solver K) : Nat := solver.edits.size

def isEditing (solver : Solver K) : Bool := 1 < solver.depths.length

def onTableau {α : Type} (action : Action K (Tableau K) α) : Action K (Solver K) α :=
  action.within Solver.tableau fun tableau solver => solver.setTableau tableau

def freshSymbol (kind : SymbolKind) : Action K (Solver K) Symbol := do
  let solver ← Action.get
  Action.modify ({ · with nextId := solver.nextId + 1 })
  return ⟨solver.nextId, kind⟩

def freshConstraint (demand : Demand K) : Action K (Solver K) (Constraint K) := do
  let solver ← Action.get
  Action.modify ({ · with nextKey := solver.nextKey + 1 })
  return ⟨demand, solver.nextKey⟩

end Solver

end SoftSimplex
