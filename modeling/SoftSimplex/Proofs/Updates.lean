import SoftSimplex.Proofs.Composition
import SoftSimplex.Proofs.Calls

/-!
What a call does to the values that are shown, one change after the other. Values change where they
are published, where a variable is set directly and where one is made; a call comes to publish by
the operations that it is put together from, in their order. So the changes that a run comes to can
be listed, each with the solver that it happens to.
-/

namespace SoftSimplex

variable {K α : Type}

/-- A change of the values that are shown, with the solver that it happens to. -/
inductive Update (K : Type) where
  | publish (solver : Solver K)
  | assign (solver : Solver K) (unknown : Variable) (value : K)
  | create (solver : Solver K) (name : Option String) (value : K)

namespace Update

def before : Update K → Solver K
  | publish solver | assign solver _ _ | create solver _ _ => solver

variable [Zero K]

def after : Update K → Solver K
  | publish solver => solver.publishValues
  | assign solver unknown value => solver.setValue unknown value
  | create solver name value => (solver.newVariable name value).2

def Leads : List (Update K) → Table Variable (VariableInfo K) → Table Variable (VariableInfo K) → Prop
  | [], shown, last => last = shown
  | update :: rest, shown, last => update.before.unknowns = shown ∧
    Leads rest update.after.unknowns last

theorem Leads.append {first second : List (Update K)}
    {shown middle last : Table Variable (VariableInfo K)} (leads : Leads first shown middle)
    (continues : Leads second middle last) : Leads (first ++ second) shown last := by
  induction first generalizing shown with
  | nil =>
    cases leads
    exact continues
  | cons update rest ih => exact ⟨leads.1, ih leads.2⟩

end Update

namespace Solver

open SoftSimplex.Action

variable [Zero K] [One K] [Add K] [Neg K] [Mul K] [Div K] [LT K] [DecidableLT K] [Scalar K]

/-! What single operations come to publish -/

def optimizeUpdates (limit : Nat) (solver : Solver K) : List (Update K) :=
  (onTableau (Tableau.minimize .mainObjective) limit solver).onDone fun _ least => [.publish least]

def autoUpdates (limit : Nat) (solver : Solver K) : List (Update K) :=
  if solver.config.autoSolve then optimizeUpdates limit solver else []

def addUpdates (constraint : Constraint K) (limit : Nat) (solver : Solver K) : List (Update K) :=
  (install constraint limit solver).onDone fun _ installed => autoUpdates limit installed

def addNewUpdates (demand : Demand K) (limit : Nat) (solver : Solver K) : List (Update K) :=
  addUpdates ⟨demand, solver.nextKey⟩ limit solver.withNextKey

def removeUpdates (constraint : Constraint K) (limit : Nat) (solver : Solver K) :
    List (Update K) :=
  (uninstall constraint limit solver).onDone fun _ removed => autoUpdates limit removed

def removeEditUpdates (unknown : Variable) (limit : Nat) (solver : Solver K) : List (Update K) :=
  match solver.edits.get? unknown with
  | none => []
  | some info => removeUpdates info.constraint limit solver

variable [LE K] [DecidableLE K]

def resolveUpdates (limit : Nat) (solver : Solver K) : List (Update K) :=
  (onTableau (Tableau.repair .mainObjective) limit solver).onDone fun _ repaired =>
    [.publish repaired]

variable [Sub K]

/-! Operations in a row -/

inductive Operation : ∀ α : Type, Action K (Solver K) α → Type
  | addNew (demand : Demand K) (external : demand.External) : Operation _ (addNew demand)
  | addEdit (unknown : Variable) (strength : Strength) : Operation _ (addEdit unknown strength)
  | removeEdit (unknown : Variable) : Operation _ (removeEdit unknown)
  | suggest (unknown : Variable) (target : K) : Operation _ (suggest unknown target)
  | optimize : Operation _ optimize
  | resolve : Operation _ resolve
  | opened : Operation _ (modify opened)
  | closed : Operation _ (modify closed)
  | report (event : Event K)
      (harmless : ∀ unknown, event.diagnostic? ≠ some (.parametricIsBasic unknown)) :
      Operation _ (report [event])

namespace Operation

def updates {action : Action K (Solver K) α} :
    Operation α action → Nat → Solver K → List (Update K)
  | addNew demand _ => addNewUpdates demand
  | addEdit unknown strength => fun limit solver =>
    addNewUpdates (.edit unknown (solver.value unknown) strength) limit solver
  | removeEdit unknown => removeEditUpdates unknown
  | optimize => optimizeUpdates
  | resolve => resolveUpdates
  | suggest _ _ | opened | closed | report _ _ => fun _ _ => []

def addStayScript (unknown : Variable) (strength : Strength) (weight : K) :
    Script outlook Operation (addStay unknown strength weight) :=
  Solver.addStayScript fun value =>
    .part (addNew _ (Demand.external_stay unknown value strength weight))

def beginEditScript : Script outlook Operation (beginEdit : Action K (Solver K) Unit) :=
  Solver.beginEditScript (fun _ => .part (.report _ nofun)) (.part .opened)

def trimEditsScript (count : Nat) :
    Script outlook Operation (trimEdits count : Action K (Solver K) Unit) :=
  Solver.trimEditsScript (fun unknown => .part (.removeEdit unknown))
    fun _ => .part (.report _ nofun)

def endEditScript : Script outlook Operation (endEdit : Action K (Solver K) Unit) :=
  Solver.endEditScript (.part .resolve) (.part .closed) (fun _ => .part (.report _ nofun))
    trimEditsScript

def editValueScript (unknown : Variable) (target : K) :
    Script outlook Operation (editValue unknown target) :=
  Solver.editValueScript (addDefaultEditScript fun strength => .part (.addEdit unknown strength))
    beginEditScript (.part (.suggest unknown target)) endEditScript

end Operation

def updatesOf {action : Action K (Solver K) α} (script : Script outlook Operation action) :
    Nat → Solver K → List (Update K) := script.collect Operation.updates

def setEditedValueUpdates (unknown : Variable) (target : K) (limit : Nat) (solver : Solver K) :
    List (Update K) :=
  if !solver.containsVariable unknown then [.assign solver unknown target]
  else if Scalar.close target (solver.value unknown) then []
  else updatesOf (Operation.editValueScript unknown target) limit solver

end Solver

namespace Session

open Solver

variable [Zero K] [One K] [Add K] [Sub K] [Neg K] [Mul K] [Div K] [LT K] [DecidableLT K] [LE K]
  [DecidableLE K] [Scalar K]

/-- The updates that a call comes to, in their order. -/
def updates (limit : Nat) (session : Session K) : Call K → List (Update K)
  | .newVariable name value => [.create session.solver name value]
  | .make _ | .setStrength _ _ | .reset | .setAutoSolve _ => []
  | .add key | .tryAdd key =>
    match session.held.get? key with
    | none => []
    | some constraint => addUpdates constraint limit session.solver
  | .remove key =>
    match session.held.get? key with
    | none => []
    | some constraint => removeUpdates constraint limit session.solver
  | .addLowerBound unknown lower =>
    addNewUpdates (.atLeast (.ofVariable unknown) (.ofConstant lower) .required) limit session.solver
  | .addUpperBound unknown upper =>
    addNewUpdates (.atMost (.ofVariable unknown) (.ofConstant upper) .required) limit session.solver
  | .addBounds unknown lower upper => updatesOf (addBoundsScript
      (.part (.addNew _ (Demand.external_lowerBound unknown lower .required)))
      (.part (.addNew _ (Demand.external_upperBound unknown upper .required)))) limit session.solver
  | .addStay unknown strength weight =>
    updatesOf (Operation.addStayScript unknown strength weight) limit session.solver
  | .addPointStay horizontal vertical weight =>
    updatesOf (addPointStayScript horizontal vertical
      fun _ => Operation.addStayScript _ .weak weight) limit session.solver
  | .addPointStays points =>
    updatesOf (addPointStaysFromScript (fun _ _ => Operation.addStayScript _ _ _) 1 points)
      limit session.solver
  | .addVariable unknown =>
    updatesOf (addVariableScript (Operation.addStayScript unknown .weak 1)) limit session.solver
  | .addEdit unknown strength => Operation.updates (.addEdit unknown strength) limit session.solver
  | .addDefaultEdit unknown =>
    updatesOf (addDefaultEditScript fun _ => .part (.addEdit unknown _)) limit session.solver
  | .removeEdit unknown => removeEditUpdates unknown limit session.solver
  | .trimEdits count => updatesOf (Operation.trimEditsScript count) limit session.solver
  | .removeAllEdits => updatesOf (Operation.trimEditsScript 0) limit session.solver
  | .beginEdit => updatesOf Operation.beginEditScript limit session.solver
  | .suggest _ _ => []
  | .endEdit => updatesOf Operation.endEditScript limit session.solver
  | .resolve => resolveUpdates limit session.solver
  | .resolveAt targets => updatesOf
      (resolveAtScript (fun unknown target => .part (.suggest unknown target)) (.part .resolve) targets)
      limit session.solver
  | .setEditedValue unknown target => setEditedValueUpdates unknown target limit session.solver
  | .solve => updatesOf (solveScript (.part .optimize)) limit session.solver

end Session

end SoftSimplex
