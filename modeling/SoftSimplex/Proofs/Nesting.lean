import SoftSimplex.Proofs.Frames
import SoftSimplex.Proofs.Runs

/-!
Open edit sessions. Only beginning and ending an edit session opens or closes one; whatever else
happens leaves the nesting as it is. The outermost level, at which a solver starts, never closes.
-/

namespace SoftSimplex

variable {K σ α : Type}

namespace Solver

open SoftSimplex.Action

def Level (action : Action K (Solver K) α) : Prop :=
  ∀ depths, action.Keeps fun solver => solver.depths = depths

theorem Level.keeps {action : Action K (Solver K) α} (level : Level action)
    (holds : List Nat → Prop) : action.Keeps fun solver => holds solver.depths := by
  intro limit before held
  have kept : ∀ after : Solver K, after.depths = before.depths → holds after.depths :=
    fun after same => same ▸ held
  exact (level before.depths limit before rfl).imp (fun _ => kept) fun _ => kept

theorem Unrecorded.level {action : Action K (Solver K) α} (unrecorded : Unrecorded action) :
    Level action := fun depths => unrecorded.keeps fun records => records.depths = depths

section Changing

variable [Zero K] [One K] [Add K] [Neg K] [Mul K] [Div K] [LT K] [DecidableLT K] [Scalar K]

theorem level_add (constraint : Constraint K) : Level (add constraint) := fun depths =>
  keeps_add (fun records => records.depths = depths) fun _ current _ _ same =>
    (depths_record current _ _).trans same

theorem level_remove (constraint : Constraint K) : Level (remove constraint) := fun depths =>
  keeps_remove (fun records => records.depths = depths) (fun _ same => same)
    fun _ _ _ same => same

omit [One K] [Div K] [Scalar K] in
theorem level_suggest [Sub K] (unknown : Variable) (target : K) : Level (suggest unknown target) :=
  fun depths => keeps_suggest (fun records => records.depths = depths)
    (fun _ _ same => same) unknown target

theorem level_removeEdit (unknown : Variable) :
    Level (removeEdit unknown : Action K (Solver K) Unit) := fun depths =>
  keeps_removeEdit (fun records => records.depths = depths)
    (fun constraint => level_remove constraint depths) unknown

theorem level_trimEdits (count : Nat) :
    Level (trimEdits count : Action K (Solver K) Unit) := fun depths =>
  keeps_trimEdits (fun unknown => level_removeEdit unknown depths) count

theorem level_addDefaultEdit (unknown : Variable) :
    Level (addDefaultEdit unknown : Action K (Solver K) Unit) := fun depths => by
  refine (compositional_keeps outlook _).closed (addDefaultEditScript fun _ => addEditScript ?_ ?_)
  · exact fun demand => .part ((unrecorded_freshConstraint demand).level depths)
  · exact fun made => .part (level_add made depths)

theorem level_solve : Level (solve : Action K (Solver K) Unit) := fun depths =>
  (compositional_keeps outlook _).closed (solveScript (.part (unrecorded_optimize.level depths)))

/-! Beginning and ending -/

def Nested (solver : Solver K) : Prop := solver.depths ≠ []

omit [Zero K] [One K] [Add K] [Neg K] [Mul K] [Div K] [LT K] [DecidableLT K] [Scalar K] in
theorem Level.nested {action : Action K (Solver K) α} (level : Level action) :
    action.Keeps Nested := level.keeps (· ≠ [])

variable [LE K] [DecidableLE K]

theorem nested_endEdit : (endEdit : Action K (Solver K) Unit).Keeps Nested := by
  intro limit before nested
  rw [meets_endEdit]
  split
  · exact nested
  split
  · exact nested
  rename_i deep
  refine (unrecorded_resolve.level before.depths limit before rfl).imp ?_
    fun _ resolved same none => nested (same.symm.trans none)
  intro _ resolved same
  refine (level_trimEdits _).nested limit _ ?_
  intro closed
  have short := congrArg List.length closed
  simp only [same, List.length_tail, List.length_nil] at short
  omega

theorem nested_of_basic [Sub K] {action : Action K (Solver K) α} (isBasic : Basic α action) :
    action.Keeps Nested := by
  cases isBasic with
  | reserve demand => exact (unrecorded_freshConstraint demand).level.nested
  | add constraint => exact (level_add constraint).nested
  | tryAdd constraint =>
    exact keeps_tryAdd (fun records => records.depths ≠ []) (level_add constraint).nested
  | remove constraint => exact (level_remove constraint).nested
  | removeEdit unknown => exact (level_removeEdit unknown).nested
  | suggest unknown target => exact (level_suggest unknown target).nested
  | optimize => exact unrecorded_optimize.level.nested
  | resolve => exact unrecorded_resolve.level.nested
  | beginEdit => exact keeps_beginEdit fun _ _ => List.cons_ne_nil _ _
  | endEdit => exact nested_endEdit
  | warn warning => exact keeps_report _
  | assign unknown value => exact keeps_modify fun _ nested => nested
  | configure autoSolve => exact keeps_modify fun _ nested => nested

end Changing

end Solver

namespace Session

open SoftSimplex.Action Solver

variable {session : Session K}

theorem keeps_onSolver {holds : Solver K → Prop} {action : Action K (Solver K) α}
    (kept : action.Keeps holds) :
    (onSolver action).Keeps fun session => holds session.solver := fun limit session held =>
  (meets_onSolver (kept limit session.solver held)).imp (fun _ _ met => met.1) fun _ _ met => met.1

variable [Zero K] [One K] [Add K] [Sub K] [Neg K] [Mul K] [Div K] [LT K] [DecidableLT K] [LE K]
  [DecidableLE K] [Scalar K]

theorem nested_perform (request : Call K) :
    (perform request).Keeps fun session => session.solver.Nested := by
  refine (performScript request).holds_of_parts (compositional_keeps _ _) fun change => ?_
  cases change with
  | solver script =>
    exact keeps_onSolver (script.holds_of_parts (compositional_keeps _ _) nested_of_basic)
  | create name value => exact fun _ _ nested => nested
  | hold made => exact keeps_modify fun _ nested => nested
  | reset => exact keeps_fail _

theorem Reachable.nested (reachable : session.Reachable) : session.solver.Nested := by
  induction reachable with
  | fresh config sink => exact List.cons_ne_nil 0 []
  | @call session next request limit _ _ returns ih =>
    exact (nested_perform request limit session ih).of_state? returns

end Session

end SoftSimplex
