import SoftSimplex.Solver.Edit
import SoftSimplex.Solver.Stay

/-!
A session: a solver, the constraints that its user holds, and the sink for diagnostics. A held
constraint can change its strength at any time, which counts only when it is added anew. `Call`
lists all that can happen to a session; whatever else there is to ask only reads it.
-/

namespace SoftSimplex

structure Session (K : Type) where
  solver : Solver K
  /-- The constraints made so far, by key, with the strength that each has now. -/
  held : Table Nat (Constraint K)
  sink : Sink

/-- Constraints are named by their keys. -/
inductive Call (K : Type) where
  | newVariable (name : Option String) (value : K)
  | make (demand : Demand K)
  | setStrength (key : Nat) (strength : Strength)
  | add (key : Nat)
  | tryAdd (key : Nat)
  | remove (key : Nat)
  | addLowerBound (unknown : Variable) (lower : K)
  | addUpperBound (unknown : Variable) (upper : K)
  | addBounds (unknown : Variable) (lower upper : K)
  | addStay (unknown : Variable) (strength : Strength) (weight : K)
  | addPointStay (horizontal vertical : Variable) (weight : K)
  | addPointStays (points : List (Variable × Variable))
  | addVariable (unknown : Variable)
  | addEdit (unknown : Variable) (strength : Strength)
  | addDefaultEdit (unknown : Variable)
  | removeEdit (unknown : Variable)
  | trimEdits (count : Nat)
  | removeAllEdits
  | beginEdit
  | endEdit
  | suggest (unknown : Variable) (target : K)
  | resolve
  | resolveAt (targets : List K)
  | setEditedValue (unknown : Variable) (target : K)
  | solve
  | reset
  | setAutoSolve (autoSolve : Bool)

inductive Reply (K : Type) where
  | nothing
  | flag (value : Bool)
  | created (unknown : Variable)
  | constraints (made : List (Constraint K))

namespace Session

variable {K : Type}

def start (solver : Solver K) (sink : Sink) : Session K := ⟨solver, ∅, sink⟩

def current (session : Session K) (constraint : Constraint K) : Constraint K :=
  (session.held.get? constraint.key).getD constraint

def constraints (session : Session K) : List (Constraint K) :=
  session.solver.constraints.map session.current

def writeDiagnostics (events : List (Event K)) (sink : Sink) : Sink :=
  (events.filterMap (·.diagnostic?)).foldl (fun written warning => written.write warning.text) sink

def onSolver {α : Type} (action : Action K (Solver K) α) : Action K (Session K) α :=
  fun limit session =>
    match action limit session.solver with
    | .done value solver events =>
      .done value { session with solver, sink := writeDiagnostics events session.sink } events
    | .failed fault solver events =>
      .failed fault { session with solver, sink := writeDiagnostics events session.sink } events
    | .unfinished => .unfinished

def hold (made : List (Constraint K)) (session : Session K) : Session K :=
  { session with
    held := made.foldl (fun held constraint => held.insert constraint.key constraint) session.held }

def nothing (action : Action K (Solver K) Unit) : Action K (Session K) (Reply K) := do
  onSolver action
  return .nothing

def holding {α : Type} (action : Action K (Solver K) α) (made : α → List (Constraint K)) :
    Action K (Session K) (Reply K) := do
  let value ← onSolver action
  Action.modify (hold (made value))
  return .constraints (made value)

def withHeld {α : Type} (key : Nat) (act : Constraint K → Action K (Session K) α) :
    Action K (Session K) α := do
  let session ← Action.get
  match session.held.get? key with
  | none => Action.fail .constraintNotFound
  | some constraint => act constraint

variable [Zero K] [One K] [Add K] [Sub K] [Neg K] [Mul K] [Div K]
  [LT K] [DecidableLT K] [LE K] [DecidableLE K] [Scalar K]

def perform : Call K → Action K (Session K) (Reply K)
  | .newVariable name value => do
    let session ← Action.get
    let (unknown, solver) := session.solver.newVariable name value
    Action.modify ({ · with solver })
    return .created unknown
  | .make demand => holding (Solver.freshConstraint demand) ([·])
  | .setStrength key strength => withHeld key fun constraint => do
    Action.modify (hold [constraint.withStrength strength])
    return .nothing
  | .add key => withHeld key fun constraint => nothing (Solver.add constraint)
  | .tryAdd key => withHeld key fun constraint => do
    let added ← onSolver (Solver.tryAdd constraint)
    return .flag added
  | .remove key => withHeld key fun constraint => nothing (Solver.remove constraint)
  | .addLowerBound unknown lower => holding (Solver.addLowerBound unknown lower) ([·])
  | .addUpperBound unknown upper => holding (Solver.addUpperBound unknown upper) ([·])
  | .addBounds unknown lower upper =>
    holding (Solver.addBounds unknown lower upper) fun made => [made.1, made.2]
  | .addStay unknown strength weight => holding (Solver.addStay unknown strength weight) ([·])
  | .addPointStay horizontal vertical weight =>
    holding (Solver.addPointStay horizontal vertical weight) fun made => [made.1, made.2]
  | .addPointStays points => holding (Solver.addPointStays points) id
  | .addVariable unknown => nothing (Solver.addVariable unknown)
  | .addEdit unknown strength => nothing (Solver.addEdit unknown strength)
  | .addDefaultEdit unknown => nothing (Solver.addDefaultEdit unknown)
  | .removeEdit unknown => nothing (Solver.removeEdit unknown)
  | .trimEdits count => nothing (Solver.trimEdits count)
  | .removeAllEdits => nothing Solver.removeAllEdits
  | .beginEdit => nothing Solver.beginEdit
  | .endEdit => nothing Solver.endEdit
  | .suggest unknown target => nothing (Solver.suggest unknown target)
  | .resolve => nothing Solver.resolve
  | .resolveAt targets => nothing (Solver.resolveAt targets)
  | .setEditedValue unknown target => nothing (Solver.setEditedValue unknown target)
  | .solve => nothing Solver.solve
  | .reset => Action.fail (.internal .resetUnsupported)
  | .setAutoSolve autoSolve => nothing (Action.modify (·.setAutoSolve autoSolve))

end Session

end SoftSimplex
