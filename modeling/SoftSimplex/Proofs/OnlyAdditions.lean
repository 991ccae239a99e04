import SoftSimplex.Proofs.Editing
import SoftSimplex.Proofs.Nesting

/-!
Solvers that are only added to. Whatever brings constraints in, by itself or in groups, and whether
it succeeds or not, leaves the rows feasible and opens no edit session.
-/

namespace SoftSimplex

variable {K : Type} [Field K] [LinearOrder K]

namespace Solver

open SoftSimplex.Action

variable {before : Solver K} {limit : Nat} {constraint : Constraint K}

/-! One constraint -/

structure OutermostEncoding (solver : Solver K) : Prop where
  encoding : solver.FeasibleEncoding
  outermost : solver.depths = [0]

variable [IsStrictOrderedRing K]

theorem OutermostEncoding.add (outside : before.OutermostEncoding) (external : constraint.External)
    (older : constraint.key < before.nextKey) :
    (add constraint limit before).Meets (fun _ after => after.OutermostEncoding)
      (fun _ after => after.OutermostEncoding) :=
  (Outcome.Meets.and (outside.encoding.add external older)
    (level_add constraint [0] limit before outside.outermost)).imp
      (fun _ _ met => ⟨met.1, met.2⟩) fun _ _ met => ⟨met.1, met.2⟩

theorem OutermostEncoding.tryAdd (outside : before.OutermostEncoding) (external : constraint.External)
    (older : constraint.key < before.nextKey) :
    (tryAdd constraint limit before).Meets (fun _ after => after.OutermostEncoding)
      (fun _ after => after.OutermostEncoding) := by
  unfold Solver.tryAdd
  rw [meets_bind, meets_attempt]
  refine (outside.add external older).imp (fun _ _ kept => kept) fun fault after kept => ?_
  cases fault <;> exact kept

theorem keeps_addNew (demand : Demand K) (external : demand.External) :
    (addNew demand).Keeps OutermostEncoding := fun limit before outside => by
  have reserved : before.withNextKey.OutermostEncoding :=
    ⟨outside.encoding.tidy before.tidies_withNextKey, outside.outermost⟩
  exact (meets_addNew demand (fun _ after => after.OutermostEncoding) fun _ after =>
    after.OutermostEncoding).mpr
    (reserved.add external (Nat.lt_succ_self _))

theorem keeps_solve : (solve : Action K (Solver K) Unit).Keeps OutermostEncoding := by
  refine fun limit before outside => (Outcome.Meets.and (solve_meets outside.encoding.sound.fits)
    (level_solve [0] limit before outside.outermost)).imp ?_ ?_
  · rintro _ after ⟨published, outermost⟩
    refine ⟨?_, outermost⟩
    split at published
    · have reaches : Reaches (fun _ => False) before after := published.reaches
      exact outside.encoding.reach reaches fun pruned =>
        published.feasible outside.encoding.sound pruned outside.encoding.feasible
    · rw [published]
      exact outside.encoding
  · rintro fault after ⟨settles, outermost⟩
    have unbounded : before.Settles (some fault) after := settles
    exact ⟨outside.encoding.settle unbounded, outermost⟩

end Solver

def Call.AddsOnly : Call K → Prop
  | newVariable _ _ | setStrength _ _ | add _ | tryAdd _ => True
  | make demand => demand.External
  | addLowerBound _ _ | addUpperBound _ _ | addBounds _ _ _ => True
  | addStay _ _ _ | addPointStay _ _ _ | addPointStays _ | addVariable _ => True
  | solve | setAutoSolve _ => True
  | _ => False

omit [Field K] [LinearOrder K] in
theorem Call.AddsOnly.external {request : Call K} (addsOnly : request.AddsOnly) :
    request.External := by
  cases request with
  | make demand => exact addsOnly
  | _ => trivial

namespace Session

open SoftSimplex.Action Solver

variable {session next : Session K} {limit : Nat} {request : Call K}

def OnlyAddedTo : Session K → Prop := Runs fun _ request _ => request.AddsOnly

theorem OnlyAddedTo.reachable (onlyAddedTo : OnlyAddedTo session) : session.Reachable :=
  onlyAddedTo.mono fun _ _ _ addsOnly => addsOnly.external

variable [IsStrictOrderedRing K]

theorem perform_outermostEncoding (sound : session.Sound) (outside : session.solver.OutermostEncoding)
    (addsOnly : request.AddsOnly) :
    (perform request limit session).Meets (fun _ next => next.solver.OutermostEncoding)
      (fun _ next => next.solver.OutermostEncoding) := by
  have tidied : ∀ {after : Solver K}, session.solver.Tidies after →
      after.depths = session.solver.depths → after.OutermostEncoding := fun tidies same =>
    ⟨outside.encoding.tidy tidies, same.trans outside.outermost⟩
  have compositional := compositional_keeps (K := K) outlook (OutermostEncoding (K := K))
  have stays : ∀ (unknown : Variable) (strength : Strength) (weight : K),
      (addStay unknown strength weight).Keeps OutermostEncoding := fun unknown strength weight =>
    compositional.closed (addStayScript fun value =>
      .part (keeps_addNew _ (Demand.external_stay unknown value strength weight)))
  refine meets_perform OutermostEncoding (fun _ => OutermostEncoding) outside fun serves => ?_
  cases serves with
  | newVariable name value => exact tidied ⟨rfl, rfl, rfl, rfl, rfl, Nat.le_succ _, le_rfl⟩ rfl
  | make demand => exact tidied session.solver.tidies_withNextKey rfl
  | setStrength => exact outside
  | add found =>
    have agrees := (sound.held _ _ found).2
    exact outside.add agrees.external agrees.older
  | tryAdd found =>
    have agrees := (sound.held _ _ found).2
    exact outside.tryAdd agrees.external agrees.older
  | addLowerBound unknown lower =>
    exact keeps_addNew _ (Demand.external_lowerBound unknown lower .required) _ _ outside
  | addUpperBound unknown upper =>
    exact keeps_addNew _ (Demand.external_upperBound unknown upper .required) _ _ outside
  | addBounds unknown lower upper =>
    have below := keeps_addNew _ (Demand.external_lowerBound unknown lower .required)
    have above := keeps_addNew _ (Demand.external_upperBound unknown upper .required)
    exact compositional.closed (addBoundsScript (.part below) (.part above)) _ _ outside
  | addStay unknown strength weight => exact stays unknown strength weight _ _ outside
  | addPointStay horizontal vertical weight =>
    exact compositional.closed (addPointStayScript _ _ fun _ => .part (stays _ _ _)) _ _ outside
  | addPointStays points =>
    exact compositional.closed (addPointStaysFromScript (fun _ _ => .part (stays _ _ _)) 1 points)
      _ _ outside
  | addVariable unknown =>
    exact compositional.closed (addVariableScript (.part (stays unknown .weak 1))) _ _ outside
  | solve => exact keeps_solve _ _ outside
  | setAutoSolve autoSolve => exact tidied ⟨rfl, rfl, rfl, rfl, rfl, le_rfl, le_rfl⟩ rfl
  | _ => cases addsOnly

theorem OnlyAddedTo.outermostEncoding (onlyAddedTo : OnlyAddedTo session) :
    session.Sound ∧ session.solver.OutermostEncoding := by
  induction onlyAddedTo with
  | fresh config sink =>
    have sound : (start (.withConfig config) sink).Sound := sound_fresh config sink
    exact ⟨sound, ⟨sound.solver, ⟨_, encodes_fresh config⟩, feasible_fresh config⟩, rfl⟩
  | @call session next request limit earlier addsOnly returns ih =>
    have run : OnlyAddedTo next := Runs.call earlier addsOnly returns
    exact ⟨run.reachable.encodes.1, (perform_outermostEncoding ih.1 ih.2 addsOnly).of_state? returns⟩

end Session

end SoftSimplex
