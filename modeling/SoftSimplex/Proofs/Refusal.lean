import SoftSimplex.Proofs.Assembly
import SoftSimplex.Proofs.Readiness

/-!
When an addition is refused. A required constraint is refused exactly if no assignment meets it
together with what is required already; no other constraint ever is.
-/

namespace SoftSimplex

variable {K : Type} [Field K] [LinearOrder K]

namespace Tableau

variable {before reached : Tableau K} {objective artificial : Symbol} {row : Expression K}

theorem choosePlacement_eq_none (noPlace : before.choosePlacement? row = none) :
    before.readySubject? row = none ∧ (∀ symbol ∈ row.symbols, symbol.isDummy = true) ∧
      row.constant ≠ 0 := by
  unfold choosePlacement? at noPlace
  split at noPlace
  · cases noPlace
  · rename_i notReady
    split at noPlace
    · cases noPlace
    · rename_i dummies
      split at noPlace
      · rename_i apart
        refine ⟨notReady, List.all_eq_true.mp (by simpa using dummies), ?_⟩
        simpa [Scalar.close] using apart
      · split at noPlace <;> cases noPlace

theorem Entry.not_unbounded [IsStrictOrderedRing K] (entry : before.Entry artificial objective row)
    (pruned : before.Pruned) (rowPruned : row.Pruned) :
    ¬ (before.withArtificial artificial objective row).Unbounded objective reached := by
  rintro ⟨improved, costs, entering, found, enters, noneLeaves⟩
  have indexed := indexed_of_improvements improved entry.indexed_withArtificial
  have negative := entering_negative enters
  have worth : ∀ parametric, costs.valueAt parametric = reached.completed parametric artificial := by
    intro parametric
    rw [← row_valueAt_completed indexed found]
    exact entry.objective_value pruned rowPruned improved found (solves_completed indexed parametric)
  have start := worth fun _ => 0
  have raised := worth (Function.update (fun _ => 0) entering 1)
  rw [valueAt_update_one] at raised
  rw [Expression.valueAt_zero] at start
  cases isRow : reached.row? artificial with
  | none =>
    simp only [completed, isRow] at start raised
    rw [start, zero_add] at raised
    by_cases same : artificial = entering
    · rw [same, Function.update_self] at raised
      rw [raised] at negative
      exact absurd negative (not_lt.mpr zero_le_one)
    · rw [Function.update_of_ne same] at raised
      exact absurd raised negative.ne
  | some stays =>
    simp only [completed, isRow] at start raised
    rw [valueAt_update_one] at raised
    rw [Expression.valueAt_zero] at start
    have shrinks : stays.coefficient entering < 0 := by
      rw [start] at raised
      rwa [← add_left_cancel raised]
    have pivotable : artificial.isPivotable = true := by
      simp [Symbol.isPivotable, entry.isArtificial, SymbolKind.isPivotable]
    exact leaving_of_shrinking indexed pivotable isRow shrinks noneLeaves

section Artificial

variable [IsStrictOrderedRing K] (entry : before.Entry artificial objective row)
  (pruned : before.Pruned) (rowPruned : row.Pruned) (feasible : before.Feasible)
  (nonneg : 0 ≤ row.constant) (enclosed : ∀ symbol ∈ row.symbols, symbol.isRestricted = true)

include entry pruned rowPruned feasible nonneg enclosed

theorem Entry.refutes {least : Expression K}
    (minimized : (before.withArtificial artificial objective row).Minimized objective least reached)
    (apart : Scalar.close least.constant 0 = false) {assignment : Symbol → K}
    (proper : Proper assignment) (solves : before.Solves assignment) :
    row.valueAt assignment ≠ 0 := by
  intro holds
  obtain ⟨indexed, restates, reachedFeasible⟩ :=
    entry.along pruned rowPruned feasible nonneg enclosed minimized.improved
  have worth : ∀ solution, reached.Solves solution →
      least.valueAt solution = solution artificial := fun solution =>
    entry.objective_value pruned rowPruned minimized.improved minimized.row
  have restricted : artificial.isRestricted = true := by
    simp [Symbol.isRestricted, entry.isArtificial, SymbolKind.isRestricted]
  have leastEnclosed := reachedFeasible.layered.enclosed_of_determined indexed
    (restates.pruned objective least minimized.row) minimized.row
    fun left right leftSolves rightSolves same => by
      rw [worth left leftSolves, worth right rightSolves, same artificial restricted]
  have extended : reached.Solves (Function.update assignment artificial 0) := by
    rw [restates.solves, entry.solves_withArtificial,
      solves_update_fresh entry.indexed entry.freshArtificial.1 entry.freshArtificial.2,
      Function.update_self, valueAt_update_fresh entry.unmentioned.1]
    exact ⟨solves, holds.symm⟩
  have below : least.constant ≤ 0 := by
    have rival : Proper (Function.update assignment artificial 0) :=
      proper.update (fun _ => le_rfl) fun _ => rfl
    have bound := constant_le_valueAt (Function.update assignment artificial 0)
      (settled_nonneg minimized.settled) leastEnclosed (fun symbol _ => rival.nonneg symbol)
      rival.dummies
    rwa [worth _ extended, Function.update_self] at bound
  have above : 0 ≤ least.constant := by
    rw [entry.objective_constant pruned rowPruned minimized.improved minimized.row]
    refine reachedFeasible.proper.nonneg artificial ?_
    simp [Symbol.isPivotable, entry.isArtificial, SymbolKind.isPivotable]
  have zero := le_antisymm below above
  simp [Scalar.close, zero] at apart

theorem Entry.solution {least : Expression K}
    (minimized : (before.withArtificial artificial objective row).Minimized objective least reached)
    (zero : Scalar.close least.constant 0 = true) :
    ∃ assignment, Proper assignment ∧ before.Solves assignment ∧ row.valueAt assignment = 0 := by
  obtain ⟨indexed, restates, reachedFeasible⟩ :=
    entry.along pruned rowPruned feasible nonneg enclosed minimized.improved
  have atZero : reached.basicSolution artificial = 0 := by
    rw [← entry.objective_constant pruned rowPruned minimized.improved minimized.row]
    simpa [Scalar.close] using zero
  have solves := (restates.solves reached.basicSolution).mp (solves_completed indexed fun _ => 0)
  rw [entry.solves_withArtificial, atZero] at solves
  exact ⟨reached.basicSolution, reachedFeasible.proper, solves.1, solves.2.symm⟩

end Artificial

theorem Proper.extends [IsStrictOrderedRing K] {assignment : Symbol → K}
    (proper : Proper assignment) :
    Extends (fun unknown => assignment unknown.symbol) assignment where
  unknowns _ := rfl
  slacks symbol isSlack := proper.nonneg symbol (by
    simp [Symbol.isPivotable, isSlack, SymbolKind.isPivotable])
  dummies symbol isDummy := proper.dummies symbol (by
    simp [Symbol.isDummy, isDummy, SymbolKind.isDummy])

end Tableau

namespace Solver

variable {before after : Solver K} {constraint : Constraint K} {offsets : Nat → K} {fault : Fault}

/-- Some assignment meets a constraint together with what is required already. -/
def Admits (solver : Solver K) (constraint : Constraint K) : Prop :=
  ∃ valueOf, solver.RequirementsHold valueOf ∧ constraint.isSatisfied valueOf 0 = true

variable [IsStrictOrderedRing K]

theorem exact_units : Scalar.Units K where
  one_kept := by simp [Scalar.negligible]
  minus_kept := by simp [Scalar.negligible]
  minus_negative := neg_one_lt_zero
  one_turned := one_mul _

section Admitting

variable (sound : before.Sound) (encodes : before.Encodes offsets)
  (external : constraint.External) (required : constraint.isRequired = true)

include sound encodes external required

theorem solution_of_admits {valueOf : Variable → K} (requirements : before.RequirementsHold valueOf)
    (satisfied : constraint.isSatisfied valueOf 0 = true) :
    ∃ assignment, Tableau.Proper assignment ∧ before.tableau.Solves assignment ∧
      (before.equationFor constraint).row.valueAt assignment = 0 := by
  let entry : Installed K := ⟨constraint, ⟨before.nextId, constraint.markerKind⟩⟩
  let value := constraint.expression.evaluate valueOf
  let base := before.spread offsets valueOf
  let assignment := Function.update base entry.marker (entry.share value entry.marker)
  have proper : Tableau.Proper base := spread_proper sound encodes.required requirements
  have holds := (Demand.isSatisfied_iff _).mp satisfied
  have kind : constraint.markerKind = if constraint.isInequality then .slack else .dummy := by
    cases inequality : constraint.isInequality <;> simp [Demand.markerKind, required, inequality]
  have isInternal : entry.marker.isExternal = false := by
    change SymbolKind.isExternal constraint.markerKind = false
    rw [kind]
    split <;> rfl
  obtain ⟨notBasic, noColumn⟩ : before.tableau.isBasic entry.marker = false ∧
      before.tableau.hasColumn entry.marker = false := by
    refine sound.fits.fresh (Nat.le_refl _) (fun same => ?_) isInternal
    have markerKind : constraint.markerKind = .objective := congrArg Symbol.kind same
    rw [kind] at markerKind
    split at markerKind <;> cases markerKind
  have solves : before.tableau.Solves assignment :=
    (Tableau.solves_update_fresh sound.fits.indexed notBasic noColumn _).mpr
      ((encodes.solves base).mpr (balanced_spread sound offsets valueOf))
  have share : entry.share value entry.marker = if constraint.isInequality then value else -value := by
    rw [Installed.share, required, if_pos rfl]
  refine ⟨assignment, proper.update (fun _ => ?_) (fun isDummy => ?_), solves, ?_⟩
  · rw [share]
    split <;> rename_i inequality
    · rwa [if_pos inequality] at holds
    · rw [if_neg inequality] at holds
      exact (neg_eq_zero.mpr holds).ge
  · have equality : ¬ constraint.isInequality = true := by
      intro inequality
      simp [entry, Symbol.isDummy, kind, inequality, SymbolKind.isDummy] at isDummy
    rw [if_neg equality] at holds
    rw [share, if_neg equality]
    exact neg_eq_zero.mpr holds
  · have missing : entry.marker ∉ constraint.expression.symbols := by
      intro mentioned
      rw [external _ mentioned] at isInternal
      cases isInternal
    refine (Tableau.equationOf_holds_iff sound.fits external solves).mpr ?_
    rw [Tableau.valueAt_update_fresh missing,
      ← Expression.evaluate_eq_valueAt external fun _ => rfl]
    refine (Installed.balance_of_share fun symbol member => ?_).symm
    have isMarker : symbol = entry.marker := by
      simpa [Installed.symbols, entry, required] using member
    rw [isMarker]
    exact Function.update_self ..

theorem admits_iff : before.Admits constraint ↔ ∃ assignment, Tableau.Proper assignment ∧
    before.tableau.Solves assignment ∧
      (before.equationFor constraint).row.valueAt assignment = 0 := by
  constructor
  · rintro ⟨valueOf, requirements, satisfied⟩
    exact solution_of_admits sound encodes external required requirements satisfied
  · rintro ⟨assignment, proper, solves, holds⟩
    refine ⟨fun unknown => assignment unknown.symbol, ?_, ?_⟩
    · exact requirementsHold_of_extends sound encodes.required proper.extends
        ((encodes.solves assignment).mp solves)
    · have balanced := (Tableau.equationOf_holds_iff sound.fits external solves).mp holds
      let entry : Installed K := ⟨constraint, ⟨before.nextId, constraint.markerKind⟩⟩
      exact Extends.satisfied (show Extends _ assignment from proper.extends)
        (show entry.constraint.External from external) required rfl balanced

end Admitting

omit [Field K] [LinearOrder K] [IsStrictOrderedRing K] in
theorem objects_soft (missing : before.hasConstraint constraint = false)
    (regular : constraint.isEdit = true → constraint.isRequired = false)
    (objects : before.objection? constraint = some fault) :
    constraint.isRequired = false ∧ fault ≠ .requiredFailure := by
  unfold objection? at objects
  rw [missing, if_neg Bool.false_ne_true] at objects
  split at objects
  · rename_i unknown isEdit
    have soft := regular (by simp [Demand.isEdit, isEdit])
    rw [soft, if_neg Bool.false_ne_true] at objects
    refine ⟨soft, ?_⟩
    split at objects
    · cases objects
      rintro ⟨⟩
    · cases objects
  · cases objects

/-! Which additions fail for lack of an assignment -/

section Failing

variable (sound : before.Sound) (encodes : before.Encodes offsets) (external : constraint.External)

include sound

theorem required_of_not_ready
    (notReady : before.tableau.readySubject? (before.equationFor constraint).row = none) :
    constraint.isRequired = true := by
  by_contra soft
  exact ready_of_soft exact_units sound.fits (by simpa using soft) notReady

include encodes external

theorem not_admits_of_contradicted
    (noPlace : before.tableau.choosePlacement? (before.equationFor constraint).row = none) :
    constraint.isRequired = true ∧ ¬ before.Admits constraint := by
  obtain ⟨notReady, dummies, apart⟩ := Tableau.choosePlacement_eq_none noPlace
  have required := required_of_not_ready sound notReady
  refine ⟨required, ?_⟩
  rw [admits_iff sound encodes external required]
  rintro ⟨assignment, proper, _, holds⟩
  have atRest : (before.equationFor constraint).row.valueAt assignment =
      (before.equationFor constraint).row.valueAt fun _ => 0 :=
    Expression.valueAt_congr _ _ fun symbol member =>
      proper.dummies symbol (dummies symbol member)
  rw [holds, Expression.valueAt_zero] at atRest
  exact apart atRest.symm

variable (feasible : before.tableau.Feasible)

include feasible

/-- The way by an artificial symbol is closed exactly to the constraints that contradict what is
required. -/
theorem refuses_iff {row : Expression K}
    (chosen : before.tableau.choosePlacement? (before.equationFor constraint).row =
      some (.artificial row))
    (refuses : (before.charged constraint).Refuses
      ⟨(before.equationFor constraint).nextId, .artificial⟩
      ⟨(before.equationFor constraint).nextId + 1, .objective⟩ row fault) :
    constraint.isRequired = true ∧ (fault = .requiredFailure ↔ ¬ before.Admits constraint) := by
  obtain ⟨rfl, notReady⟩ : row = (before.equationFor constraint).row ∧
      before.tableau.readySubject? (before.equationFor constraint).row = none := by
    cases Tableau.chooses_of_choosePlacement chosen with
    | artificial notReady _ => exact ⟨rfl, notReady⟩
  have required := required_of_not_ready sound notReady
  have entry := charged_entry sound.fits external
  have pruned := charged_pruned encodes.pruned constraint
  have rowPruned := before.equationFor_pruned constraint
  have chargedFeasible := feasible.recost
    (Tableau.recosts_chargeObjective (before.equationFor constraint).charge before.tableau)
  have nonneg := before.tableau.equationOf_constant_nonneg before.nextId constraint.toDemand
  have enclosed := Tableau.enclosed_of_not_ready notReady
  refine ⟨required, ?_⟩
  rw [admits_iff sound encodes external required]
  cases refuses with
  | positive minimized apart =>
    refine iff_of_true rfl ?_
    rintro ⟨assignment, proper, solves, holds⟩
    exact entry.refutes pruned rowPruned chargedFeasible nonneg enclosed minimized apart proper
      (charged_solves.mpr solves) holds
  | unbounded escapes => exact absurd escapes (entry.not_unbounded pruned rowPruned)
  | stuck minimized zero _ _ _ =>
    refine iff_of_false nofun (not_not_intro ?_)
    obtain ⟨assignment, proper, solves, holds⟩ :=
      entry.solution pruned rowPruned chargedFeasible nonneg enclosed minimized zero
    exact ⟨assignment, proper, charged_solves.mp solves, holds⟩

theorem Installs.admits {placement : Placement K} {tableau : Tableau K} {nextId : Nat}
    (installs : before.Installs constraint placement tableau nextId after)
    (required : constraint.isRequired = true) : before.Admits constraint := by
  obtain ⟨_, solves⟩ := installs.solves sound.fits external encodes.pruned
  have reached := installs.feasible sound external encodes.pruned feasible
  have both := (solves tableau.basicSolution).mp (Tableau.solves_completed
    (installs_fits sound.fits external installs).1.indexed fun _ => 0)
  exact (admits_iff sound encodes external required).mpr
    ⟨tableau.basicSolution, reached.proper, both.1, both.2⟩

theorem AddFails.requiredFailure_iff (fails : before.AddFails constraint fault after)
    (missing : before.hasConstraint constraint = false)
    (regular : constraint.isEdit = true → constraint.isRequired = false) :
    fault = .requiredFailure ↔ constraint.isRequired = true ∧ ¬ before.Admits constraint := by
  cases fails with
  | objected objects =>
    obtain ⟨soft, other⟩ := objects_soft missing regular objects
    simp [soft, other]
  | contradicted _ noPlace =>
    exact iff_of_true rfl (not_admits_of_contradicted sound encodes external noPlace)
  | refused _ chosen refuses =>
    obtain ⟨required, refused⟩ := refuses_iff sound encodes external feasible chosen refuses
    rw [refused, and_iff_right required]
  | unbounded installs _ _ =>
    refine iff_of_false nofun ?_
    rintro ⟨required, refused⟩
    exact refused (installs.admits sound encodes external feasible required)

end Failing

end Solver

namespace Session

variable [IsStrictOrderedRing K] {session next : Session K} {constraint : Constraint K}
  {key limit : Nat}

/-- A new constraint is refused exactly if it is required and contradicts what is required. -/
theorem add_refused_iff (assembled : Assembled (fun _ _ => False) (fun _ => True) session)
    (held : session.held.get? key = some constraint)
    (missing : session.solver.hasConstraint constraint = false)
    (regular : constraint.isEdit = true → constraint.isRequired = false)
    (returned : (perform (.add key) limit session).state? = some next) :
    (perform (.add key) limit session).fault? = some .requiredFailure ↔
      constraint.isRequired = true ∧ ¬ session.solver.Admits constraint := by
  obtain ⟨⟨offsets, encodes⟩, feasible⟩ := assembled.feasible fun _ _ _ => False.elim
  have sound := assembled.reachable.encodes.1
  have agrees := (sound.held key constraint held).2
  have met : (perform (.add key) limit session).Meets
      (fun _ _ => constraint.isRequired = true → session.solver.Admits constraint)
      (fun fault _ => fault = .requiredFailure ↔
        constraint.isRequired = true ∧ ¬ session.solver.Admits constraint) := by
    refine (meets_onHeld (fun _ => constraint.isRequired = true → session.solver.Admits constraint)
      (fun fault _ => fault = .requiredFailure ↔
        constraint.isRequired = true ∧ ¬ session.solver.Admits constraint) ?_ ?_).imp
      (fun _ _ met => met.1) fun _ _ met => met.1
    · intro other found
      rw [held] at found
      cases found
      refine (Solver.add_meets sound.solver agrees.external agrees.older).imp ?_ ?_
      · rintro _ _ ⟨_, _, _, _, installs, _⟩
        exact installs.admits sound.solver encodes agrees.external feasible
      · exact fun fault _ fails => fails.requiredFailure_iff sound.solver encodes agrees.external
          feasible missing regular
    · rw [held]
      exact nofun
  revert met returned
  cases perform (.add key) limit session with
  | done reply reached events =>
    intro _ admits
    exact iff_of_false nofun fun refused => refused.2 (admits refused.1)
  | failed fault reached events =>
    intro _ refused
    exact Option.some_inj.trans refused
  | unfinished => exact nofun

/-- Over a required lower bound of one, a required upper bound of zero is refused. -/
theorem add_refused_iff_crossed :
    let session : Session ℚ := (start (.withConfig .standard) .log).replay 8
      [.newVariable none 0, .make (.atLeast (.ofVariable ⟨1⟩) (.ofConstant 1) .required), .add 0,
        .make (.atMost (.ofVariable ⟨1⟩) (.ofConstant 0) .required)]
    (perform (.add 1) 8 session).fault? = some .requiredFailure ∧
      ∃ constraint, session.held.get? 1 = some constraint ∧ constraint.isRequired = true ∧
        ¬ session.solver.Admits constraint := by
  intro session
  have assembled : session.Assembled (fun _ _ => False) (fun _ => True) :=
    (Runs.fresh _ _).replay ⟨⟨rfl, fun _ _ => trivial⟩,
      ⟨⟨Demand.external_lowerBound ⟨1⟩ 1 .required, zero_le_one⟩, fun _ _ => trivial⟩,
      ⟨trivial, fun _ _ => trivial⟩,
      ⟨⟨Demand.external_upperBound ⟨1⟩ 0 .required, zero_le_one⟩, fun _ _ => trivial⟩, trivial⟩
  have refused : (perform (.add 1) 8 session).fault? = some .requiredFailure := by decide +kernel
  have returned : (perform (.add 1) 8 session).state?.isSome = true := by decide +kernel
  have isHeld : (session.held.get? 1).any (fun constraint =>
      !session.solver.hasConstraint constraint && !constraint.isEdit) = true := by decide +kernel
  obtain ⟨next, returned⟩ := Option.isSome_iff_exists.mp returned
  obtain ⟨constraint, held, new⟩ := (Option.any_eq_true ..).mp isHeld
  rw [Bool.and_eq_true, Bool.not_eq_true', Bool.not_eq_true'] at new
  have regular : constraint.isEdit = true → constraint.isRequired = false := by
    rw [new.2]
    exact nofun
  have both := (add_refused_iff assembled held new.1 regular returned).mp refused
  exact ⟨refused, constraint, held, both⟩

/-- A required edit is turned away for being one, before it is compared with what is required. -/
theorem add_requiredEdit_crossed :
    let session : Session ℚ := (start (.withConfig .standard) .log).replay 8
      [.newVariable none 0, .make (.equal (.ofVariable ⟨1⟩) (.ofConstant 5) .required), .add 0,
        .make (.edit ⟨1⟩ 3 .required)]
    session.Assembled (fun _ _ => False) (fun _ => True) ∧
      (perform (.add 1) 8 session).fault? = some (.requiredEditVariable ⟨1⟩) ∧
      ∃ constraint, session.held.get? 1 = some constraint ∧
        session.solver.hasConstraint constraint = false ∧ constraint.isRequired = true ∧
        ¬ session.solver.Admits constraint := by
  intro session
  refine ⟨?_, by decide +kernel, ?_⟩
  · exact (Runs.fresh _ _).replay ⟨⟨rfl, fun _ _ => trivial⟩,
      ⟨⟨Demand.external_lowerBound ⟨1⟩ 5 .required, zero_le_one⟩, fun _ _ => trivial⟩,
      ⟨trivial, fun _ _ => trivial⟩,
      ⟨⟨Demand.external_upperBound ⟨1⟩ 3 .required, zero_le_one⟩, fun _ _ => trivial⟩, trivial⟩
  have isHeld : (session.held.get? 1).any (fun constraint =>
      !session.solver.hasConstraint constraint && constraint.isRequired &&
        !constraint.isInequality && constraint.expression.constant == 3 &&
        constraint.expression.terms.entries == [(⟨1, .external⟩, -1)]) = true := by decide +kernel
  have isInstalled : (session.solver.installed.get? 0).any (fun entry =>
      entry.constraint.isRequired && !entry.constraint.isInequality &&
        entry.constraint.expression.constant == -5 &&
        entry.constraint.expression.terms.entries == [(⟨1, .external⟩, 1)]) = true := by
    decide +kernel
  obtain ⟨constraint, held, target⟩ := (Option.any_eq_true ..).mp isHeld
  obtain ⟨entry, found, fixed⟩ := (Option.any_eq_true ..).mp isInstalled
  simp only [Bool.and_eq_true, Bool.not_eq_true', beq_iff_eq] at target fixed
  obtain ⟨⟨⟨⟨new, required⟩, equality⟩, constant⟩, terms⟩ := target
  obtain ⟨⟨⟨fixedRequired, fixedEquality⟩, fixedConstant⟩, fixedTerms⟩ := fixed
  refine ⟨constraint, held, new, required, ?_⟩
  rintro ⟨valueOf, requirements, satisfied⟩
  have atFive := (Demand.isSatisfied_iff _).mp (requirements 0 entry found fixedRequired)
  have atThree := (Demand.isSatisfied_iff _).mp satisfied
  rw [fixedEquality, if_neg Bool.false_ne_true, Expression.evaluate, fixedTerms, fixedConstant]
    at atFive
  rw [equality, if_neg Bool.false_ne_true, Expression.evaluate, terms, constant] at atThree
  simp [Symbol.unknown?, Symbol.isExternal, SymbolKind.isExternal] at atFive atThree
  linarith

end Session

end SoftSimplex
