import SoftSimplex.Proofs.Defects
import SoftSimplex.Proofs.Nesting
import SoftSimplex.Proofs.Registration
import SoftSimplex.Proofs.Warnings

/-!
Calls that decline: they fail by the fault of the caller, or answer that a constraint contradicts
the required ones. Such a call leaves everything as it was but the ids it has used. Whatever can be
declined is so before the first lasting change; from then on only the numbers can stop a call.
-/

namespace SoftSimplex

variable {K : Type}

namespace Solver

variable {before middle after : Solver K} {α β : Type} {limit : Nat} {complaints : List Diagnostic}

def IssuesIds (before after : Solver K) : Prop :=
  ∃ nextId nextKey, before.nextId ≤ nextId ∧ before.nextKey ≤ nextKey ∧
    after = { before with nextId, nextKey }

theorem IssuesIds.refl (solver : Solver K) : solver.IssuesIds solver :=
  ⟨_, _, Nat.le_refl _, Nat.le_refl _, rfl⟩

theorem IssuesIds.trans (first : before.IssuesIds middle) (second : middle.IssuesIds after) :
    before.IssuesIds after := by
  obtain ⟨id, key, laterId, laterKey, rfl⟩ := first
  obtain ⟨nextId, nextKey, idGrows, keyGrows, rfl⟩ := second
  exact ⟨nextId, nextKey, Nat.le_trans laterId idGrows, Nat.le_trans laterKey keyGrows, rfl⟩

theorem issuesIds_withNextKey (solver : Solver K) : solver.IssuesIds solver.withNextKey :=
  ⟨_, _, Nat.le_refl _, Nat.le_succ _, rfl⟩

theorem issuesIds_nextId {nextId : Nat} (grows : before.nextId ≤ nextId) :
    before.IssuesIds { before with nextId } := ⟨_, _, grows, Nat.le_refl _, rfl⟩

/-- A failure that is no defect leaves ids spent and complaints told, and nothing else. -/
def FailsUnchanged (complaints : List Diagnostic) (action : Action K (Solver K) α) (limit : Nat)
    (before : Solver K) : Prop :=
  (action limit before).Tells (fun _ _ _ => True) fun fault after told =>
    fault.isInternal = false → before.IssuesIds after ∧ told = complaints

theorem failsUnchanged_of_numeric {action : Action K (Solver K) α}
    (numeric : action.FailsByNumbers limit before) : FailsUnchanged complaints action limit before := by
  refine (Outcome.Meets.tells numeric).imp (fun _ _ _ _ => trivial) fun fault _ _ defect expected => ?_
  rw [defect.isInternal] at expected
  cases expected

theorem failsUnchanged_get {next : Solver K → Action K (Solver K) α}
    (continued : FailsUnchanged complaints (next before) limit before) :
    FailsUnchanged complaints (Action.get >>= next) limit before :=
  (Action.tells_get_bind _ _).mpr continued

theorem failsUnchanged_fail (fault : Fault) :
    FailsUnchanged [] (Action.fail fault : Action K (Solver K) α) limit before :=
  fun _ => ⟨.refl before, rfl⟩

theorem failsUnchanged_pure {first : Action K (Solver K) α} (result : α → β)
    (unchanged : FailsUnchanged complaints first limit before) :
    FailsUnchanged complaints (first >>= fun value => Pure.pure (result value)) limit before :=
  (Action.tells_bind _ _ _).mpr (unchanged.imp (fun _ _ _ _ => trivial) fun _ _ _ issuesIds =>
    issuesIds)

theorem failsUnchanged_bind {first : Action K (Solver K) α} {next : α → Action K (Solver K) β}
    (returned : α → Solver K → Prop) (unchanged : FailsUnchanged complaints first limit before)
    (meets : (first limit before).Meets returned fun _ _ => True)
    (continued : ∀ value middle, returned value middle → (next value).FailsByNumbers limit middle) :
    FailsUnchanged complaints (first >>= next) limit before := by
  refine (Action.tells_bind _ _ _).mpr ((Outcome.Tells.and_meets unchanged meets).imp ?_
    fun _ _ _ met => met.1)
  rintro value middle told ⟨_, met⟩
  refine (Outcome.Meets.tells (continued value middle met)).imp (fun _ _ _ _ => trivial) ?_
  intro fault _ _ defect expected
  rw [defect.isInternal] at expected
  cases expected

theorem FailsUnchanged.replacing {action : Action K (Solver K) α} {old : Fault} {defect : Defect}
    (unchanged : FailsUnchanged complaints action limit before) :
    FailsUnchanged complaints (action.mapFault (Fault.replacing old (.internal defect))) limit before :=
  (Action.tells_mapFault _ _ _).mpr
    (unchanged.imp (fun _ _ _ _ => trivial) fun _ _ _ issuesIds expected =>
    issuesIds (Fault.regular_of_replacing expected))

section Changing

variable [Zero K] [One K] [Add K] [Neg K] [Mul K] [Div K] [LT K] [DecidableLT K] [Scalar K]
  {constraint : Constraint K} {fault : Fault}

/-! Single changes -/

theorem add_failsUnchanged (sound : before.Sound) (external : constraint.External)
    (older : constraint.key < before.nextKey) : FailsUnchanged [] (add constraint) limit before := by
  refine add_tells sound external ?_ ?_
  · intro fault after fails regular
    have grows := before.equationFor_nextId constraint
    cases fails with
    | objected _ => exact ⟨.refl before, rfl⟩
    | contradicted _ _ => exact ⟨issuesIds_nextId (Nat.le_of_lt grows), rfl⟩
    | refused _ _ _ => exact ⟨issuesIds_nextId (by omega), rfl⟩
    | unbounded _ _ _ => cases regular
  · intro placement tableau nextId installed installs
    refine (autoOptimize_meets (installs.sound sound external older).fits).tells.imp
      (fun _ _ _ _ => trivial) ?_
    rintro _ _ _ ⟨_, rfl, _⟩ expected
    cases expected

theorem tryAdd_failsUnchanged (sound : before.Sound) (external : constraint.External)
    (older : constraint.key < before.nextKey) :
    (tryAdd constraint limit before).Tells
      (fun added after told => added = false → before.IssuesIds after ∧ told = [])
      (fun fault after told => fault.isInternal = false → before.IssuesIds after ∧ told = []) := by
  refine (Action.tells_bind _ _ _).mpr ((Action.tells_attempt _ _).mpr
    ((add_failsUnchanged sound external older).imp (fun _ _ _ _ => nofun) ?_))
  intro fault after told issuesIds
  cases fault with
  | requiredFailure => exact fun _ => by simpa using issuesIds rfl
  | _ => exact fun expected => by simpa using issuesIds expected

omit [Zero K] [One K] [Add K] [Neg K] [Mul K] [Div K] [LT K] [DecidableLT K] [Scalar K] in
theorem failsUnchanged_reserve {demand : Demand K} {next : Constraint K → Action K (Solver K) α}
    (unchanged : FailsUnchanged [] (next ⟨demand, before.nextKey⟩) limit before.withNextKey) :
    FailsUnchanged [] (freshConstraint demand >>= next) limit before := by
  unfold FailsUnchanged
  rw [freshConstraint_bind]
  refine unchanged.imp (fun _ _ _ _ => trivial) ?_
  intro fault after told issuesIds expected
  exact (issuesIds expected).imp_left before.issuesIds_withNextKey.trans

theorem addNew_failsUnchanged (sound : before.Sound) {demand : Demand K} (external : demand.External) :
    FailsUnchanged [] (addNew demand) limit before := by
  exact failsUnchanged_reserve
    (failsUnchanged_pure _ (add_failsUnchanged (before.tidies_withNextKey.sound sound)
    external (Nat.lt_succ_self _)))

theorem addStay_failsUnchanged (sound : before.Sound) (unknown : Variable) (strength : Strength)
    (weight : K) : FailsUnchanged [] (addStay unknown strength weight) limit before :=
  failsUnchanged_get (addNew_failsUnchanged sound (Demand.external_stay unknown _ strength weight))

theorem addVariable_failsUnchanged (sound : before.Sound) (unknown : Variable) :
    FailsUnchanged [] (addVariable unknown) limit before := by
  refine failsUnchanged_get ?_
  split
  · trivial
  · exact failsUnchanged_pure _ (addStay_failsUnchanged sound unknown .weak 1).replacing

theorem addEdit_failsUnchanged (sound : before.Sound) (unknown : Variable) (strength : Strength) :
    FailsUnchanged [] (addEdit unknown strength) limit before :=
  failsUnchanged_get (failsUnchanged_reserve (add_failsUnchanged (before.tidies_withNextKey.sound sound)
    (Demand.external_edit unknown _ strength) (Nat.lt_succ_self _)).replacing)

theorem remove_failsUnchanged (sound : before.Sound)
    (sameKind : ∀ entry, before.installed.get? constraint.key = some entry →
      entry.constraint.kind = constraint.kind) :
        FailsUnchanged [] (remove constraint) limit before := by
  cases found : before.installed.get? constraint.key with
  | none =>
    refine failsUnchanged_get ?_
    rw [found]
    exact failsUnchanged_fail _
  | some entry =>
    refine failsUnchanged_of_numeric ((remove_meets sound sameKind).imp (fun _ _ _ => trivial) ?_)
    intro fault after fails
    refine fails.expected_or_numeric.resolve_left ?_
    rintro ⟨_, missing, _⟩
    exact absurd (missing.symm.trans found) nofun

theorem removeEdit_failsUnchanged (sound : before.Sound) (unknown : Variable) :
    FailsUnchanged [] (removeEdit unknown) limit before := by
  refine failsUnchanged_get ?_
  cases registered : before.edits.get? unknown with
  | none => exact failsUnchanged_fail _
  | some info => exact remove_failsUnchanged sound (sound.edit_kind registered)

/-! The edit protocol -/

omit [One K] [Add K] [Neg K] [Mul K] [Div K] [LT K] [DecidableLT K] [Scalar K] in
theorem beginEdit_failsUnchanged : FailsUnchanged [] beginEdit limit before := by
  refine failsUnchanged_get ?_
  split
  · exact failsUnchanged_fail _
  · trivial

variable [Sub K]

omit [One K] [Div K] [Scalar K] in
theorem suggest_failsUnchanged (unknown : Variable) (target : K) :
    FailsUnchanged [.notAnEditVariable unknown] (suggest unknown target) limit before := by
  refine failsUnchanged_get ?_
  split
  · exact fun _ => ⟨.refl before, rfl⟩
  · trivial

variable [LE K] [DecidableLE K]

theorem endEdit_failsUnchanged (sound : before.Sound) : FailsUnchanged [] endEdit limit before := by
  rcases endEdit_cases sound limit with ⟨fault, expected, refused⟩ | numeric
  · unfold FailsUnchanged
    rw [refused]
    exact fun _ => ⟨.refl before, rfl⟩
  · exact failsUnchanged_of_numeric numeric

theorem setEditedValue_failsUnchanged (sound : before.Sound) (nested : before.Nested)
    (unknown : Variable) (target : K) :
    FailsUnchanged [] (setEditedValue unknown target) limit before := by
  refine failsUnchanged_get ?_
  split
  · trivial
  split
  · trivial
  have adds : FailsUnchanged [] (addDefaultEdit unknown) limit before :=
    failsUnchanged_get (addEdit_failsUnchanged sound unknown _)
  refine failsUnchanged_bind _ adds (addDefaultEdit_registers sound unknown) ?_
  rintro _ added ⟨addedSound, addedNested, registered⟩
  exact editing_numeric addedSound (addedNested nested) registered target

end Changing

end Solver

/-- What a call complains of if it declines. -/
def Call.complaints : Call K → List Diagnostic
  | suggest unknown _ => [.notAnEditVariable unknown]
  | _ => []

/-- The calls that are additions in a row, of which one can be refused when others are in. -/
def Call.Compound : Call K → Prop
  | addBounds _ _ _ | addPointStay _ _ _ | addPointStays _ => True
  | _ => False

namespace Session

variable {session next : Session K} {limit : Nat} {request : Call K} {complaints : List Diagnostic}
  {α : Type}

/-- What a call that declines leaves behind: a failure that is no defect, or the answer no. -/
def declined? : Outcome K (Session K) (Reply K) → Option (Session K)
  | .done (.flag false) next _ => some next
  | .failed fault next _ => if fault.isInternal then none else some next
  | _ => none

/-- Nothing has changed but that ids and keys have been given out and complaints written. -/
def Unmoved (complaints : List Diagnostic) (session next : Session K) : Prop :=
  ∃ nextId nextKey, session.solver.nextId ≤ nextId ∧ session.solver.nextKey ≤ nextKey ∧
    next = { session with
      solver := { session.solver with nextId, nextKey }
      sink := complaints.foldl (fun sink complaint => sink.write complaint.text) session.sink }

theorem Unmoved.refl (session : Session K) : session.Unmoved [] session :=
  ⟨_, _, Nat.le_refl _, Nat.le_refl _, rfl⟩

def FailsUnchanged (complaints : List Diagnostic) (action : Action K (Session K) (Reply K))
    (limit : Nat)
    (session : Session K) : Prop :=
  (action limit session).Meets (fun reply next => reply = .flag false → session.Unmoved complaints next)
    fun fault next => fault.isInternal = false → session.Unmoved complaints next

theorem FailsUnchanged.unmoved {action : Action K (Session K) (Reply K)}
    (unchanged : FailsUnchanged complaints action limit session)
    (declined : declined? (action limit session) = some next) :
    session.Unmoved complaints next := by
  unfold FailsUnchanged at unchanged
  revert unchanged declined
  cases action limit session with
  | done reply reached events =>
    intro unchanged declined
    cases reply with
    | flag answer =>
      cases answer with
      | false => exact Option.some.inj declined ▸ unchanged rfl
      | true => cases declined
    | _ => cases declined
  | failed fault reached events =>
    intro unchanged declined
    cases expected : fault.isInternal with
    | false =>
      rw [declined?, expected, if_neg Bool.false_ne_true] at declined
      exact Option.some.inj declined ▸ unchanged expected
    | true =>
      rw [declined?, expected, if_pos rfl] at declined
      cases declined
  | unfinished => exact fun _ => nofun

theorem meets_onSolver_of_tells {action : Action K (Solver K) α}
    {returned : α → Solver K → List Diagnostic → Prop}
    {broken : Fault → Solver K → List Diagnostic → Prop}
    (tells : (action limit session.solver).Tells returned broken) :
    (onSolver action limit session).Meets
      (fun value next => ∃ solver told, returned value solver told ∧ next = { session with
        solver, sink := told.foldl (fun sink complaint => sink.write complaint.text) session.sink })
      (fun fault next => ∃ solver told, broken fault solver told ∧ next = { session with
        solver, sink :=
          told.foldl (fun sink complaint => sink.write complaint.text) session.sink }) := by
  unfold onSolver
  revert tells
  cases action limit session.solver with
  | done value solver events => exact fun tells => ⟨solver, _, tells, rfl⟩
  | failed fault solver events => exact fun tells => ⟨solver, _, tells, rfl⟩
  | unfinished => exact id

theorem unmoved_of_issuesIds {solver : Solver K} (issuesIds : session.solver.IssuesIds solver) :
    session.Unmoved complaints { session with
      solver
      sink := complaints.foldl (fun sink complaint => sink.write complaint.text) session.sink } := by
  obtain ⟨nextId, nextKey, idGrows, keyGrows, rfl⟩ := issuesIds
  exact ⟨nextId, nextKey, idGrows, keyGrows, rfl⟩

section Lifting

theorem failsUnchanged_onSolver {action : Action K (Solver K) α}
    {next : α → Action K (Session K) (Reply K)}
    (unchanged : Solver.FailsUnchanged complaints action limit session.solver)
    (affirms : ∀ value reached,
      (next value limit reached).Meets (fun reply _ => reply ≠ .flag false) fun _ _ => False) :
    FailsUnchanged complaints (onSolver action >>= next) limit session := by
  refine (Action.meets_bind _ _ _).mpr ((meets_onSolver_of_tells unchanged).imp ?_ ?_)
  · exact fun value reached _ => (affirms value reached).imp (fun _ _ other no => absurd no other)
      fun _ _ => False.elim
  · rintro fault _ ⟨solver, told, issuesIds, rfl⟩ expected
    obtain ⟨spent, rfl⟩ := issuesIds expected
    exact unmoved_of_issuesIds spent

theorem failsUnchanged_nothing {action : Action K (Solver K) Unit}
    (unchanged : Solver.FailsUnchanged complaints action limit session.solver) :
    FailsUnchanged complaints (nothing action) limit session :=
  failsUnchanged_onSolver unchanged fun _ _ => nofun

theorem failsUnchanged_holding {action : Action K (Solver K) α} {made : α → List (Constraint K)}
    (unchanged : Solver.FailsUnchanged complaints action limit session.solver) :
    FailsUnchanged complaints (holding action made) limit session :=
  failsUnchanged_onSolver unchanged fun _ _ => nofun

theorem failsUnchanged_withHeld {key : Nat} {act : Constraint K → Action K (Session K) (Reply K)}
    (acts : ∀ constraint, session.held.get? key = some constraint →
      FailsUnchanged [] (act constraint) limit session) :
    FailsUnchanged [] (withHeld key act) limit session := by
  refine (Action.meets_bind _ _ _).mpr ?_
  rw [Action.meets_get]
  cases found : session.held.get? key with
  | none => exact fun _ => .refl session
  | some constraint => exact acts constraint found

end Lifting

variable [Zero K] [One K] [Add K] [Sub K] [Neg K] [Mul K] [Div K] [LT K] [DecidableLT K] [LE K]
  [DecidableLE K] [Scalar K]

theorem perform_failsUnchanged (sound : session.Sound) (nested : session.solver.Nested)
    (single : ¬ request.Compound) :
      FailsUnchanged request.complaints (perform request) limit session := by
  have solver := sound.solver
  cases request with
  | newVariable name value => exact nofun
  | make demand => exact failsUnchanged_holding (Solver.failsUnchanged_of_numeric trivial)
  | setStrength key strength => exact failsUnchanged_withHeld fun _ _ => nofun
  | add key =>
    refine failsUnchanged_withHeld fun constraint found => failsUnchanged_nothing ?_
    have agrees := (sound.held key constraint found).2
    exact Solver.add_failsUnchanged solver agrees.external agrees.older
  | tryAdd key =>
    refine failsUnchanged_withHeld fun constraint found => ?_
    have agrees := (sound.held key constraint found).2
    refine (Action.meets_bind _ _ _).mpr ((meets_onSolver_of_tells
      (Solver.tryAdd_failsUnchanged solver agrees.external agrees.older)).imp ?_ ?_)
    · rintro added _ ⟨reached, told, issuesIds, rfl⟩ no
      obtain ⟨spent, rfl⟩ := issuesIds (Reply.flag.inj no)
      exact unmoved_of_issuesIds spent
    · rintro fault _ ⟨reached, told, issuesIds, rfl⟩ expected
      obtain ⟨spent, rfl⟩ := issuesIds expected
      exact unmoved_of_issuesIds spent
  | remove key =>
    exact failsUnchanged_withHeld fun constraint found =>
      failsUnchanged_nothing
        (Solver.remove_failsUnchanged solver (sound.held key constraint found).2.sameKind)
  | addLowerBound unknown lower =>
    exact failsUnchanged_holding
      (Solver.addNew_failsUnchanged solver (Demand.external_lowerBound unknown lower .required))
  | addUpperBound unknown upper =>
    exact failsUnchanged_holding
      (Solver.addNew_failsUnchanged solver (Demand.external_upperBound unknown upper .required))
  | addStay unknown strength weight =>
    exact failsUnchanged_holding (Solver.addStay_failsUnchanged solver unknown strength weight)
  | addVariable unknown =>
    exact failsUnchanged_nothing (Solver.addVariable_failsUnchanged solver unknown)
  | addEdit unknown strength =>
    exact failsUnchanged_nothing (Solver.addEdit_failsUnchanged solver unknown strength)
  | addDefaultEdit unknown =>
    exact failsUnchanged_nothing
      (Solver.failsUnchanged_get (Solver.addEdit_failsUnchanged solver unknown _))
  | removeEdit unknown => exact failsUnchanged_nothing (Solver.removeEdit_failsUnchanged solver unknown)
  | trimEdits count =>
    exact failsUnchanged_nothing
      (Solver.failsUnchanged_of_numeric (Solver.trimEdits_numeric solver count))
  | removeAllEdits =>
    exact failsUnchanged_nothing
      (Solver.failsUnchanged_of_numeric (Solver.trimEdits_numeric solver 0))
  | beginEdit => exact failsUnchanged_nothing Solver.beginEdit_failsUnchanged
  | endEdit => exact failsUnchanged_nothing (Solver.endEdit_failsUnchanged solver)
  | suggest unknown target =>
    exact failsUnchanged_nothing (Solver.suggest_failsUnchanged unknown target)
  | resolve =>
    exact failsUnchanged_nothing (Solver.failsUnchanged_of_numeric (Solver.resolve_numeric solver))
  | resolveAt targets =>
    exact failsUnchanged_nothing
      (Solver.failsUnchanged_of_numeric (Solver.resolveAt_numeric solver targets))
  | setEditedValue unknown target =>
    exact failsUnchanged_nothing (Solver.setEditedValue_failsUnchanged solver nested unknown target)
  | solve =>
    exact failsUnchanged_nothing
      (Solver.failsUnchanged_of_numeric (Solver.solve_numeric solver))
  | reset => exact nofun
  | setAutoSolve autoSolve => exact failsUnchanged_nothing (Solver.failsUnchanged_of_numeric trivial)
  | addBounds _ _ _ | addPointStay _ _ _ | addPointStays _ => exact absurd trivial single

/-- A call that declines has changed nothing: the tableau, what is published, the books and the
edit sessions are as they were, in the same order. It may have used ids and keys, and a suggestion
for what is no edit has written one line. -/
theorem unmoved_of_declined (reachable : session.Reachable) (single : ¬ request.Compound)
    (declined : declined? (perform request limit session) = some next) :
    session.Unmoved request.complaints next :=
  (perform_failsUnchanged reachable.sound reachable.nested single).unmoved declined

/-- Bounds that cross: the second one is refused after it has been pivoted in. -/
theorem unmoved_of_declined_crossed :
    let session : Session ℚ := (start (.withConfig .standard) .log).replay 8
      [.newVariable none 0, .make (.atMost (.ofVariable ⟨1⟩) (.ofConstant 1) .required), .add 0,
        .make (.atLeast (.ofVariable ⟨1⟩) (.ofConstant 2) .required)]
    session.Reachable ∧ session.solver.nextId = 3 ∧
      (declined? (perform (.tryAdd 1) 8 session)).map (·.solver.nextId) = some 6 ∧
      ∃ next, declined? (perform (.tryAdd 1) 8 session) = some next ∧ session.Unmoved [] next := by
  intro session
  have reachable : session.Reachable :=
    (Runs.fresh _ _).replay ⟨trivial, Demand.external_upperBound ⟨1⟩ 1 .required, trivial,
      Demand.external_lowerBound ⟨1⟩ 2 .required, trivial⟩
  have answers : (declined? (perform (.tryAdd 1) 8 session)).isSome = true := by decide +kernel
  obtain ⟨next, declined⟩ := Option.isSome_iff_exists.mp answers
  exact ⟨reachable, by decide +kernel, by decide +kernel, next, declined,
    unmoved_of_declined reachable id declined⟩

end Session

end SoftSimplex
