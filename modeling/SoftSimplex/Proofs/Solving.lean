import SoftSimplex.Proofs.Judging
import SoftSimplex.Proofs.UpToDate
import SoftSimplex.Proofs.Serving

/-!
Solving on request. As long as what is resolved does not ask to be solved first, solving leaves no
cost that is worth a pivot and, unless a suggestion waits for its resolution, values that are those
of the tableau, whether or not there was anything left to do.
-/

namespace SoftSimplex

variable {K : Type} [Field K] [LinearOrder K]

theorem Scalar.oriented_tolerant [IsStrictOrderedRing K] {tolerance : K} (nonneg : 0 ≤ tolerance)
    (largest : K) : @Scalar.Oriented K _ _ (.tolerant tolerance largest) := by
  refine @Oriented.mk K _ _ (.tolerant tolerance largest) ?_ ?_
  · intro value worth
    change (!decide (-tolerance ≤ value)) = true at worth
    simp only [Bool.not_eq_true', decide_eq_false_iff_not, not_le] at worth
    linarith
  · intro lower value below worth
    change (!decide (-tolerance ≤ value)) = true at worth
    change (!decide (-tolerance ≤ lower)) = true
    simp only [Bool.not_eq_true', decide_eq_false_iff_not, not_le] at worth ⊢
    exact below.trans_lt worth

namespace Tableau

variable [Scalar K] {tableau : Tableau K}

def NoImprovingCost (tableau : Tableau K) : Prop :=
  ∃ costs, tableau.row? .mainObjective = some costs ∧ ∀ symbol : Symbol, symbol.isPivotable = true →
    Scalar.improving (costs.coefficient symbol) = false

theorem DualFeasible.noImproving (oriented : Scalar.Oriented K)
    (dual : tableau.DualFeasible .mainObjective)
    (present : tableau.isBasic .mainObjective = true) : tableau.NoImprovingCost := by
  obtain ⟨costs, found⟩ := (tableau.isBasic_iff _).mp present
  refine ⟨costs, found, fun symbol pivotable => Bool.eq_false_iff.mpr fun worth => ?_⟩
  exact (dual costs found symbol pivotable).not_gt (oriented.negative _ worth)

end Tableau

/-! Runs that solve before they resolve -/

def Call.Resolves (session : Session K) : Call K → Prop
  | resolve | resolveAt _ | endEdit => True
  | setEditedValue unknown target =>
    session.solver.containsVariable unknown = true ∧ target ≠ session.solver.value unknown
  | _ => False

/-- Nothing asks to be solved when it comes to the resolution. The edit that a value is set by is
solved at once with automatic solving. -/
def Call.Solved (session : Session K) : Call K → Prop
  | setEditedValue _ _ => session.solver.config.autoSolve = true
  | _ => session.solver.needsSolving = false

def Call.Suggests : Call K → Prop
  | suggest _ _ => True
  | _ => False

omit [LinearOrder K] in
theorem Call.Compound.moves_nothing {session : Session K} {request : Call K}
    (compound : request.Compound) :
    ¬ (request.Suggests ∨ request.Resolves session) := by
  cases request with
  | addBounds _ _ _ | addPointStay _ _ _ | addPointStays _ => rintro (no | no) <;> exact no
  | _ => exact compound.elim

/-- A variable is made before it is used, and constraints are on variables. -/
def Call.Introduces (session : Session K) : Call K → Prop
  | newVariable _ _ => session.solver.containsVariable ⟨session.solver.nextId⟩ = false
  | make demand => demand.External
  | _ => True

namespace Session

open SoftSimplex.Action Solver

variable {session next : Session K} {waits : Prop} {limit : Nat} {request : Call K}
  {outcome : Outcome K (Session K) (Reply K)}

/-- Nothing asks to be solved that need not be. -/
def UpToDate (waits : Prop) (session : Session K) : Prop :=
  session.solver.UpToDate waits session.solver.installed

theorem perform_upToDate (sound : session.Sound) (upToDate : session.UpToDate waits)
    (introduces : request.Introduces session)
    (neither : ¬ request.Suggests ∧ ¬ request.Resolves session) :
    (perform request limit session).Meets
      (fun _ next => next.solver.UpToDate waits session.solver.installed)
      fun fault next => fault.isInternal = false →
        next.solver.UpToDate waits session.solver.installed := by
  refine meets_perform (·.UpToDate waits session.solver.installed)
    (fun fault after => fault.isInternal = false → after.UpToDate waits session.solver.installed)
    (fun _ => upToDate) fun serves => ?_
  cases serves with
  | newVariable name value => exact upToDate.idle (keepsShown_newVariable introduces name value)
  | make demand => exact upToDate.idle session.solver.keepsShown_withNextKey
  | setStrength => exact upToDate
  | add found =>
    have agrees := (sound.held _ _ found).2
    exact add_upToDate upToDate agrees.external agrees.older
  | tryAdd found =>
    have agrees := (sound.held _ _ found).2
    exact tryAdd_upToDate upToDate agrees.external agrees.older
  | remove found => exact remove_upToDate upToDate (sound.held _ _ found).2.sameKind
  | addLowerBound unknown lower =>
    exact addNew_preserves (Demand.external_lowerBound unknown lower .required) limit _ upToDate
  | addUpperBound unknown upper =>
    exact addNew_preserves (Demand.external_upperBound unknown upper .required) limit _ upToDate
  | addBounds unknown lower upper => exact addBounds_preserves unknown lower upper limit _ upToDate
  | addStay unknown strength weight => exact addStay_preserves unknown strength weight limit _ upToDate
  | addPointStay horizontal vertical weight =>
    exact addPointStay_preserves horizontal vertical weight limit _ upToDate
  | addPointStays points => exact addPointStaysFrom_preserves 1 points limit _ upToDate
  | addVariable unknown => exact addVariable_preserves unknown limit _ upToDate
  | addEdit unknown strength => exact addEdit_preserves unknown strength limit _ upToDate
  | addDefaultEdit unknown =>
    exact addDefaultEdit_preserves unknown limit _ upToDate
  | removeEdit unknown => exact removeEdit_preserves unknown limit _ upToDate
  | trimEdits count => exact trimEdits_preserves count limit _ upToDate
  | removeAllEdits => exact trimEdits_preserves 0 limit _ upToDate
  | beginEdit => exact beginEdit_preserves limit _ upToDate
  | solve => exact solve_preserves limit _ upToDate
  | setEditedValue unknown target =>
    refine (meets_bind _ _ _).mpr ?_
    rw [meets_get]
    split
    · rename_i missing
      refine upToDate.idle { KeepsShown.refl session.solver with values := fun other contained => ?_ }
      rw [value_setValue, if_neg]
      rintro rfl
      simp [contained] at missing
    · rename_i contained
      rw [if_pos]
      · exact upToDate
      · have present : session.solver.containsVariable unknown = true := by simpa using contained
        simpa [Call.Resolves, present, Scalar.close] using neither.2
  | setAutoSolve autoSolve =>
    have tidies : session.solver.Tidies (session.solver.setAutoSolve autoSolve) :=
      ⟨rfl, rfl, rfl, rfl, rfl, Nat.le_refl _, Nat.le_refl _⟩
    exact ⟨tidies.sound upToDate.sound, upToDate.least, fun solved =>
      (upToDate.published solved).imp_right fun excused => ⟨excused.1, fun _ => rfl⟩⟩
  | reset => exact nofun
  | suggest =>
    exact absurd trivial neither.1
      | endEdit | resolve | resolveAt => exact absurd trivial neither.2

theorem perform_resolves [IsStrictOrderedRing K] (upToDate : session.UpToDate waits)
    (resolves : request.Resolves session) (solved : request.Solved session) :
    (perform request limit session).Meets
      (fun _ next => next.solver.UpToDate False session.solver.installed) fun _ _ => True := by
  refine meets_perform (·.UpToDate False session.solver.installed) (fun _ _ => True) trivial
    fun serves => ?_
  cases serves with
  | resolve => exact (upToDate.ready solved).resolve
  | resolveAt targets => exact (upToDate.ready solved).resolveAt targets
  | endEdit => exact (upToDate.ready solved).endEdit
  | setEditedValue unknown target =>
    exact setEditedValue_upToDate upToDate.sound solved resolves.1 resolves.2
  | _ => exact resolves.elim

/-! Runs -/

structure ReachedUpToDate (waits : Prop) (session : Session K) : Prop where
  reachable : session.Reachable
  upToDate : session.UpToDate waits

theorem reachedUpToDate_fresh (config : Config K) (sink : Sink) :
    (start (.withConfig config) sink).ReachedUpToDate False :=
  ⟨.fresh config sink, (sound_fresh config sink).solver, fun _ => (settled_fresh config).dual,
    fun _ => Or.inl (settled_fresh config).published⟩

section Stepping

variable (reachedUpToDate : session.ReachedUpToDate waits)
  (ends : session.EndsExactly request outcome next)

include reachedUpToDate

theorem ReachedUpToDate.sound : session.Sound := reachedUpToDate.reachable.sound

theorem ReachedUpToDate.fits : session.solver.tableau.Fits session.solver.nextId :=
  reachedUpToDate.upToDate.sound.fits

include ends

theorem ReachedUpToDate.reaches (external : request.External) : next.Reachable := by
  obtain ⟨limit, performed⟩ := ends.judged
  subst performed
  exact Runs.call reachedUpToDate.reachable external ends.returns

theorem ReachedUpToDate.declined (single : ¬ request.Compound) (failed : outcome.fault? ≠ none) :
    next.solver.UpToDate waits session.solver.installed := by
  have unchanged : ∀ limit, (performExactly request limit session).Meets (fun _ _ => True)
      fun fault next => fault.isInternal = false → session.Unmoved request.complaints next :=
    fun limit =>
      (perform_failsUnchanged reachedUpToDate.sound reachedUpToDate.reachable.nested single).imp
      (fun _ _ _ => trivial) fun _ _ unmoved => unmoved
  rcases ends.meets unchanged with ⟨_, clean, _⟩ | ⟨fault, _, regular, unmoved⟩
  · exact absurd clean failed
  · obtain ⟨nextId, nextKey, idGrows, keyGrows, rfl⟩ := unmoved regular
    exact reachedUpToDate.upToDate.idle (IssuesIds.keepsShown ⟨nextId, nextKey, idGrows, keyGrows, rfl⟩)

theorem ReachedUpToDate.call (introduces : request.Introduces session)
    (failing : request.Suggests ∨ request.Resolves session → outcome.fault? ≠ none) :
    next.ReachedUpToDate (waits ∧
      (next.solver.config.autoSolve = true → next.solver.installed = session.solver.installed)) := by
  have external : request.External := by
    cases request with
    | make demand => exact introduces
    | _ => trivial
  refine ⟨reachedUpToDate.reaches ends external, ?_⟩
  have rebased : next.solver.UpToDate waits session.solver.installed → next.UpToDate (waits ∧
      (next.solver.config.autoSolve = true → next.solver.installed = session.solver.installed)) :=
    fun upToDate => ⟨upToDate.sound, upToDate.least, fun solved =>
      (upToDate.published solved).imp_right fun excused => ⟨excused, fun _ => rfl⟩⟩
  by_cases moves : request.Suggests ∨ request.Resolves session
  · have single : ¬ request.Compound := fun compound => compound.moves_nothing moves
    exact rebased (reachedUpToDate.declined ends single (failing moves))
  · have met := ends.meets fun limit =>
      perform_upToDate reachedUpToDate.sound reachedUpToDate.upToDate introduces (not_or.mp moves)
    rcases met with ⟨_, _, upToDate⟩ | ⟨_, _, regular, upToDate⟩
    · exact rebased upToDate
    · exact rebased (upToDate regular)

omit ends in
theorem ReachedUpToDate.suggest {unknown : Variable} {target : K}
    (asks : session.EndsExactly (.suggest unknown target) outcome next) :
      next.ReachedUpToDate True := by
  refine ⟨reachedUpToDate.reaches asks trivial, ?_⟩
  have met :=
    asks.meets fun limit => meets_silent (suggest_upToDate reachedUpToDate.upToDate unknown target)
  rcases met with ⟨_, _, upToDate, _⟩ | ⟨_, _, _, upToDate, _⟩ <;> exact upToDate

theorem ReachedUpToDate.resolve [IsStrictOrderedRing K] (resolves : request.Resolves session)
    (solved : request.Solved session) (clean : outcome.fault? = none) : next.ReachedUpToDate False := by
  have external : request.External := by
    cases request with
    | make _ => exact resolves.elim
    | _ => trivial
  refine ⟨reachedUpToDate.reaches ends external, ?_⟩
  rcases ends.meets fun limit => perform_resolves reachedUpToDate.upToDate resolves solved with
    ⟨_, _, upToDate⟩ | ⟨fault, failed, _⟩
  · exact upToDate.unexcused
  · rw [clean] at failed
    cases failed

omit ends in
theorem ReachedUpToDate.solve (solves : session.EndsExactly .solve outcome next)
    (asks : session.solver.needsSolving = true) : next.ReachedUpToDate False := by
  refine ⟨reachedUpToDate.reaches solves trivial, ?_⟩
  have met := solves.meets fun limit => meets_silent (solve_meets reachedUpToDate.upToDate.sound.fits)
  rcases met with ⟨_, _, solved, _⟩ | ⟨_, _, regular, ⟨rfl, _⟩, _⟩
  · rw [if_pos asks] at solved
    exact (Publishes.upToDate solved reachedUpToDate.upToDate.sound).1
  · cases regular

end Stepping

section Judged

variable [Scalar K]

/-- A run in which nothing is resolved that asks to be solved, and whether a suggestion waits: one
that has not been resolved, and after which nothing else has published. -/
inductive SolvedBeforeResolved : Session K → Prop → Prop
  | fresh (config : Config K) (sink : Sink) :
      SolvedBeforeResolved (start (.withConfig config) sink) False
  | suggest {session next : Session K} {waits : Prop} {unknown : Variable} {target : K}
      {outcome : Outcome K (Session K) (Reply K)} (earlier : SolvedBeforeResolved session waits)
      (ends : session.Ends (.suggest unknown target) outcome next) : SolvedBeforeResolved next True
  | resolve {session next : Session K} {waits : Prop} {request : Call K}
      {outcome : Outcome K (Session K) (Reply K)} (earlier : SolvedBeforeResolved session waits)
      (ends : session.Ends request outcome next) (clean : outcome.fault? = none)
      (resolves : request.Resolves session) (solved : request.Solved session) :
        SolvedBeforeResolved next False
  | solve {session next : Session K} {waits : Prop} {outcome : Outcome K (Session K) (Reply K)}
      (earlier : SolvedBeforeResolved session waits) (ends : session.Ends .solve outcome next)
      (asks : session.solver.needsSolving = true) : SolvedBeforeResolved next False
  | call {session next : Session K} {waits : Prop} {request : Call K}
      {outcome : Outcome K (Session K) (Reply K)} (earlier : SolvedBeforeResolved session waits)
      (ends : session.Ends request outcome next) (introduces : request.Introduces session)
      (failing : request.Suggests ∨ request.Resolves session → outcome.fault? ≠ none) :
      SolvedBeforeResolved next (waits ∧ (next.solver.config.autoSolve = true →
        next.solver.installed = session.solver.installed))

variable [IsStrictOrderedRing K]

theorem SolvedBeforeResolved.reachedUpToDate (solvedRun : session.SolvedBeforeResolved waits) :
    session.ReachedUpToDate waits := by
  induction solvedRun with
  | fresh config sink => exact reachedUpToDate_fresh config sink
  | suggest _ ends ih => exact ih.suggest ends.toEndsExactly
  | resolve _ ends clean resolves solved ih =>
    exact ih.resolve ends.toEndsExactly resolves solved clean
  | solve _ ends asks ih => exact ih.solve ends.toEndsExactly asks
  | call _ ends introduces failing ih => exact ih.call ends.toEndsExactly introduces failing

/-- Solving succeeds with no cost that is worth a pivot, even where there is nothing to do; and the
values are those of the tableau, unless there was nothing to do while a suggestion waited. -/
theorem solve_exhausts (oriented : Scalar.Oriented K) (solvedRun : session.SolvedBeforeResolved waits) :
    (session.solver.needsSolving = false → session.solver.tableau.NoImprovingCost) ∧
      ∀ limit, (perform .solve limit session).Meets
        (fun _ next => next.solver.tableau.NoImprovingCost ∧
          (session.solver.needsSolving = true ∨ ¬ waits → next.solver.Published))
        fun fault _ => fault.isInternal = true := by
  have upToDate := solvedRun.reachedUpToDate.upToDate
  have fits := solvedRun.reachedUpToDate.fits
  have noImproving : session.solver.needsSolving = false → session.solver.tableau.NoImprovingCost :=
    fun solved => (upToDate.least solved).noImproving oriented fits.objective
  refine ⟨noImproving, fun limit => (meets_silent (solve_meets fits)).imp ?_ ?_⟩
  · rintro _ next ⟨solves, _⟩
    split at solves
    · obtain ⟨least, tableau, minimized, same⟩ := solves
      have indexed := Tableau.indexed_of_improvements minimized.improved fits.indexed
      rw [same, (tidies_publishValues _).tableau]
      exact ⟨⟨least, minimized.row, Tableau.not_improving_of_settled oriented minimized.settled⟩,
        fun _ => published_publishValues indexed⟩
    · rename_i idle
      have solved : session.solver.needsSolving = false := by simpa using idle
      rw [solves]
      refine ⟨noImproving solved, fun unexcused => ?_⟩
      have notWaiting : ¬ waits := unexcused.resolve_left idle
      exact (upToDate.published solved).resolve_right fun excused => notWaiting excused.1
  · rintro _ _ ⟨⟨rfl, _⟩, _⟩
    rfl

end Judged

section Coded

attribute [local instance] Scalar.coded

/-- In a solver that solves on request a variable is edited, and moved once the edit is solved. -/
theorem solve_exhausts_batched :
    let session : Session ℚ := (start (.withConfig .batched) .log).replay 8
      [.newVariable none 0, .addEdit ⟨1⟩ .strong, .solve, .beginEdit, .suggest ⟨1⟩ 20, .resolve]
    session.solver.needsSolving = false ∧ session.solver.value ⟨1⟩ = 20 ∧
      (perform .solve 8 session).Meets
        (fun _ next => next.solver.tableau.NoImprovingCost ∧
          (session.solver.needsSolving = true ∨ ¬ False → next.solver.Published))
        fun fault _ => fault.isInternal = true := by
  intro session
  have oriented : Scalar.Oriented ℚ := Scalar.oriented_tolerant (by norm_num) _
  let fresh : Session ℚ := start (.withConfig .batched) .log
  let edited := fresh.replay 8 [.newVariable none 0, .addEdit ⟨1⟩ .strong]
  let begun := edited.replay 8 [.solve, .beginEdit]
  let asked := begun.replay 8 [.suggest ⟨1⟩ 20]
  have created : SolvedBeforeResolved (fresh.replay 8 [.newVariable none 0]) _ := .call (.fresh _ _)
    (.of_perform ⟨8, by decide +kernel⟩ (by decide +kernel) (by decide +kernel)) rfl
    fun moves => moves.elim False.elim False.elim
  have added : SolvedBeforeResolved edited _ := .call created
    (.of_perform ⟨8, by decide +kernel⟩ (by decide +kernel) (by decide +kernel)) trivial
    fun moves => moves.elim False.elim False.elim
  have solved : SolvedBeforeResolved (edited.replay 8 [.solve]) False := .solve added
    (.of_perform ⟨8, by decide +kernel⟩ (by decide +kernel) (by decide +kernel)) (by decide +kernel)
  have opened : SolvedBeforeResolved begun _ := .call solved
    (.of_perform ⟨8, by decide +kernel⟩ (by decide +kernel) (by decide +kernel)) trivial
    fun moves => moves.elim False.elim False.elim
  have suggested : SolvedBeforeResolved asked True := .suggest opened
    (.of_perform ⟨8, by decide +kernel⟩ (by decide +kernel) (by decide +kernel))
  have nothing : asked.solver.needsSolving = false := by decide +kernel
  have solvedRun : SolvedBeforeResolved session False := .resolve suggested
    (.of_perform ⟨8, by decide +kernel⟩ (by decide +kernel) (by decide +kernel)) (by decide +kernel)
    trivial nothing
  exact ⟨by decide +kernel, by decide +kernel, (solve_exhausts oriented solvedRun).2 8⟩

/-- Resolving in between makes solving overlook what was added: the stronger wish is left unmet,
though moving toward it is worth a pivot. -/
theorem solve_overlooks_batched :
    let session : Session ℚ := (start (.withConfig .batched) .log).replay 8
      [.newVariable none 0, .make (.equal (.ofVariable ⟨1⟩) (.ofConstant 100) .weak),
        .make (.equal (.ofVariable ⟨1⟩) (.ofConstant 50) .strong), .add 0, .add 1, .resolve]
    let next := session.replay 8 [.solve]
    Runs (fun session request outcome => request.Introduces session ∧ outcome.fault? = none)
        session ∧
      (perform .solve 8 session).state?.isSome = true ∧ (perform .solve 8 session).fault? = none ∧
      next.solver.value ⟨1⟩ = 100 ∧ ¬ next.solver.tableau.NoImprovingCost := by
  intro session next
  refine ⟨?_, by decide +kernel, by decide +kernel, by decide +kernel, ?_⟩
  · refine (Runs.fresh _ _).replay ⟨⟨rfl, ?_⟩,
      ⟨Demand.external_lowerBound ⟨1⟩ 100 .weak, ?_⟩,
      ⟨Demand.external_lowerBound ⟨1⟩ 50 .strong, ?_⟩, ⟨trivial, ?_⟩, ⟨trivial, ?_⟩, ⟨trivial, ?_⟩,
      trivial⟩
    all_goals decide +kernel
  · rintro ⟨costs, found, noImproving⟩
    have improves : (next.solver.tableau.row? .mainObjective).any (fun costs =>
        Scalar.improving (costs.coefficient ⟨3, .slack⟩)) = true := by decide +kernel
    rw [found] at improves
    have unworthy := noImproving ⟨3, .slack⟩ rfl
    rw [Option.any_some, unworthy] at improves
    cases improves

end Coded

end Session

end SoftSimplex
