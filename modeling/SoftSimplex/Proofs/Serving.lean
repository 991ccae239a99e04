import SoftSimplex.Proofs.Events
import SoftSimplex.Proofs.Runs

/-!
What calls have the solver do. A call runs one operation of the solver, and the rest of the session
takes no part in it. What the operation shows of the solver, the call shows of the solver in its
session: facts about calls that speak of the solver alone are facts about the operations.
-/

namespace SoftSimplex

variable {K : Type} [Zero K] [One K] [Add K] [Sub K] [Neg K] [Mul K] [Div K] [LT K] [DecidableLT K]
  [LE K] [DecidableLE K] [Scalar K]

/-- The operation of the solver that a call runs. A call that names a constraint which is not held
runs none. -/
inductive Call.Serves (held : Table Nat (Constraint K)) :
    Call K → ∀ {α : Type}, Action K (Solver K) α → Prop
  | newVariable (name : Option String) (value : K) :
      Serves held (newVariable name value)
        (Action.modify fun solver => (solver.newVariable name value).2)
  | make (demand : Demand K) : Serves held (make demand) (Solver.freshConstraint demand)
  | setStrength (key : Nat) (strength : Strength) :
      Serves held (setStrength key strength) (pure () : Action K (Solver K) Unit)
  | add {key : Nat} {constraint : Constraint K} (found : held.get? key = some constraint) :
      Serves held (add key) (Solver.add constraint)
  | tryAdd {key : Nat} {constraint : Constraint K} (found : held.get? key = some constraint) :
      Serves held (tryAdd key) (Solver.tryAdd constraint)
  | remove {key : Nat} {constraint : Constraint K} (found : held.get? key = some constraint) :
      Serves held (remove key) (Solver.remove constraint)
  | addLowerBound (unknown : Variable) (lower : K) :
      Serves held (addLowerBound unknown lower) (Solver.addLowerBound unknown lower)
  | addUpperBound (unknown : Variable) (upper : K) :
      Serves held (addUpperBound unknown upper) (Solver.addUpperBound unknown upper)
  | addBounds (unknown : Variable) (lower upper : K) :
      Serves held (addBounds unknown lower upper) (Solver.addBounds unknown lower upper)
  | addStay (unknown : Variable) (strength : Strength) (weight : K) :
      Serves held (addStay unknown strength weight) (Solver.addStay unknown strength weight)
  | addPointStay (horizontal vertical : Variable) (weight : K) :
      Serves held (addPointStay horizontal vertical weight)
        (Solver.addPointStay horizontal vertical weight)
  | addPointStays (points : List (Variable × Variable)) :
      Serves held (addPointStays points) (Solver.addPointStays points)
  | addVariable (unknown : Variable) : Serves held (addVariable unknown) (Solver.addVariable unknown)
  | addEdit (unknown : Variable) (strength : Strength) :
      Serves held (addEdit unknown strength) (Solver.addEdit unknown strength)
  | addDefaultEdit (unknown : Variable) :
      Serves held (addDefaultEdit unknown) (Solver.addDefaultEdit unknown)
  | removeEdit (unknown : Variable) : Serves held (removeEdit unknown) (Solver.removeEdit unknown)
  | trimEdits (count : Nat) : Serves held (trimEdits count) (Solver.trimEdits count)
  | removeAllEdits : Serves held removeAllEdits (Solver.trimEdits 0)
  | beginEdit : Serves held beginEdit Solver.beginEdit
  | endEdit : Serves held endEdit Solver.endEdit
  | suggest (unknown : Variable) (target : K) :
      Serves held (suggest unknown target) (Solver.suggest unknown target)
  | resolve : Serves held resolve Solver.resolve
  | resolveAt (targets : List K) : Serves held (resolveAt targets) (Solver.resolveAt targets)
  | setEditedValue (unknown : Variable) (target : K) :
      Serves held (setEditedValue unknown target) (Solver.setEditedValue unknown target)
  | solve : Serves held solve Solver.solve
  | reset : Serves held reset
      (Action.fail (.internal .resetUnsupported) : Action K (Solver K) (Reply K))
  | setAutoSolve (autoSolve : Bool) :
      Serves held (setAutoSolve autoSolve) (Action.modify (·.setAutoSolve autoSolve))

def Call.named? : Call K → Option Nat
  | setStrength key _ | add key | tryAdd key | remove key => some key
  | _ => none

namespace Session

open SoftSimplex.Action

variable {session : Session K} {limit : Nat} {request : Call K}

section Lifting

variable {α β : Type} {returned : Solver K → List (Event K) → Prop}
  {broken : Fault → Solver K → List (Event K) → Prop}

omit [Zero K] [One K] [Add K] [Sub K] [Neg K] [Mul K] [Div K] [LT K] [DecidableLT K] [LE K]
  [DecidableLE K] [Scalar K]

theorem shows_onSolver_bind {action : Action K (Solver K) α} {next : α → Action K (Session K) β}
    (shows : (action limit session.solver).Shows (fun _ after => returned after) broken)
    (idle : ∀ value reached, (next value limit reached).Shows
      (fun _ after events => after.solver = reached.solver ∧ events = []) fun _ _ _ => False) :
    ((onSolver action >>= next) limit session).Shows (fun _ next => returned next.solver)
      fun fault next => broken fault next.solver := by
  have lifted : (onSolver action limit session).Shows (fun _ next => returned next.solver)
      fun fault next => broken fault next.solver := by
    unfold onSolver
    revert shows
    cases action limit session.solver <;> exact id
  refine (shows_bind _ _ _).mpr (lifted.imp ?_ fun _ _ _ shown => shown)
  intro value reached events shown
  refine (idle value reached).imp ?_ fun _ _ _ never => never.elim
  rintro _ after _ ⟨same, rfl⟩
  rwa [same, List.append_nil]

theorem shows_withHeld {key : Nat} {act : Constraint K → Action K (Session K) α}
    (missing : session.held.get? key = none → broken .constraintNotFound session.solver [])
    (acts : ∀ constraint, session.held.get? key = some constraint →
      (act constraint limit session).Shows (fun _ next => returned next.solver)
        fun fault next => broken fault next.solver) :
    (withHeld key act limit session).Shows (fun _ next => returned next.solver)
      fun fault next => broken fault next.solver := by
  refine (shows_get_bind _ _).mpr ?_
  cases found : session.held.get? key with
  | none => exact missing found
  | some constraint => exact acts constraint found

end Lifting

theorem shows_perform (returned : Solver K → List (Event K) → Prop)
    (broken : Fault → Solver K → List (Event K) → Prop)
    (missing : ∀ key, request.named? = some key → session.held.get? key = none →
      broken .constraintNotFound session.solver [])
    (shows : ∀ {α : Type} {action : Action K (Solver K) α}, request.Serves session.held action →
      (action limit session.solver).Shows (fun _ after => returned after) broken) :
    (perform request limit session).Shows (fun _ next => returned next.solver)
      fun fault next => broken fault next.solver := by
  cases request with
  | newVariable name value => exact shows (.newVariable name value)
  | setStrength key strength =>
    exact shows_withHeld (missing _ rfl) fun _ _ => shows (.setStrength key strength)
  | add key =>
    exact shows_withHeld (missing _ rfl) fun _ found =>
      shows_onSolver_bind (shows (.add found)) fun _ _ => ⟨rfl, rfl⟩
  | tryAdd key =>
    exact shows_withHeld (missing _ rfl) fun _ found =>
      shows_onSolver_bind (shows (.tryAdd found)) fun _ _ => ⟨rfl, rfl⟩
  | remove key =>
    exact shows_withHeld (missing _ rfl) fun _ found =>
      shows_onSolver_bind (shows (.remove found)) fun _ _ => ⟨rfl, rfl⟩
  | reset => exact shows .reset
  | _ => exact shows_onSolver_bind (shows (by constructor)) fun _ _ => ⟨rfl, rfl⟩

theorem meets_perform (returned : Solver K → Prop) (broken : Fault → Solver K → Prop)
    (missing : broken .constraintNotFound session.solver)
    (meets : ∀ {α : Type} {action : Action K (Solver K) α}, request.Serves session.held action →
      (action limit session.solver).Meets (fun _ after => returned after) broken) :
    (perform request limit session).Meets (fun _ next => returned next.solver)
      fun fault next => broken fault next.solver := by
  refine (Outcome.meets_iff_shows _ _ _).mpr (shows_perform (fun after _ => returned after)
    (fun fault after _ => broken fault after) (fun _ _ _ => missing) fun serves => ?_)
  exact (Outcome.meets_iff_shows _ _ _).mp (meets serves)

end Session

end SoftSimplex
