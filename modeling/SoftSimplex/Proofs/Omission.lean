import SoftSimplex.Proofs.Judging
import SoftSimplex.Proofs.Refusal

/-!
Two runs over the same constraints, one of which leaves out all that are not required. The required
constraints in the solver are the same ones in both, and with exact comparisons nothing else decides
how the addition of another one ends: what may be given up never stands in the way of what is
required. A tolerance can, through the rows that constraints to be given up have brought in.
-/

namespace SoftSimplex

variable {K : Type} [Field K] [LinearOrder K]

namespace Solver

variable {solver before after later : Solver K} {constraint : Constraint K} {offsets : Nat → K}
  {limit : Nat} {fault : Fault}

def InstallsUnlessFault (before : Solver K) (constraint : Constraint K) (after : Solver K)
    (fault : Option Fault) : Prop :=
  ∃ marker, ∀ key, after.installed.get? key =
    if fault = none ∧ constraint.key = key then some ⟨constraint, marker⟩
    else before.installed.get? key

theorem add_installsUnlessFault (sound : before.Sound) (external : constraint.External)
    (older : constraint.key < before.nextKey) :
    (add constraint limit before).Meets
      (fun _ after => before.InstallsUnlessFault constraint after none)
      (fun fault after => fault.isInternal = false →
        before.InstallsUnlessFault constraint after (some fault)) := by
  refine (add_meets sound external older).imp ?_ ?_
  · rintro _ after ⟨placement, tableau, nextId, installed, installs, follows⟩
    refine ⟨(before.equationFor constraint).marker, fun key => ?_⟩
    have got : after.installed.get? key = _ :=
      (congrArg (·.get? key) follows.tidies.installed).trans (installs.get?_installed key)
    simpa using got
  · intro fault after fails expected
    refine ⟨(before.equationFor constraint).marker, fun key => ?_⟩
    rw [if_neg fun both => Option.some_ne_none fault both.1]
    cases fails with
    | objected _ | contradicted _ _ | refused _ _ _ => rfl
    | unbounded _ _ _ => cases expected

omit [Field K] [LinearOrder K] in
theorem objection_congr (required : constraint.isRequired = true)
    (same : before.hasConstraint constraint = solver.hasConstraint constraint) :
    before.objection? constraint = solver.objection? constraint := by
  unfold objection?
  rw [same, required]
  cases constraint.kind <;> rfl

/-- How the addition of a required constraint must end, unless it meets a defect: by an objection if
there is one, and otherwise as some assignment meets the constraint with the others or none does. -/
inductive RequiredOutcome (solver : Solver K) (constraint : Constraint K) : Option Fault → Prop
  | admits (unobjected : solver.objection? constraint = none)
      (admits : solver.Admits constraint) : RequiredOutcome solver constraint none
  | objects {fault : Fault} (objects : solver.objection? constraint = some fault) :
      RequiredOutcome solver constraint (some fault)
  | refuses (unobjected : solver.objection? constraint = none)
      (refuted : ¬ solver.Admits constraint) : RequiredOutcome solver constraint (some .requiredFailure)

theorem RequiredOutcome.unique {left right : Option Fault}
    (requiredOutcome : before.RequiredOutcome constraint left)
    (also : solver.RequiredOutcome constraint right)
    (objections : before.objection? constraint = solver.objection? constraint)
    (admits : before.Admits constraint ↔ solver.Admits constraint) : left = right := by
  cases requiredOutcome with
  | admits unobjected admitted =>
    cases also with
    | admits _ _ => rfl
    | objects objects => cases (unobjected.symm.trans objections).trans objects
    | refuses _ refuted => exact absurd (admits.mp admitted) refuted
  | objects objects =>
    cases also with
    | objects others => exact (objects.symm.trans objections).trans others
    | admits unobjected _ | refuses unobjected _ =>
      cases (objects.symm.trans objections).trans unobjected
  | refuses unobjected refuted =>
    cases also with
    | admits _ admitted => exact absurd (admits.mpr admitted) refuted
    | objects objects => cases (unobjected.symm.trans objections).trans objects
    | refuses _ _ => rfl

theorem add_requiredOutcome [IsStrictOrderedRing K] (sound : before.Sound)
    (encodes : before.Encodes offsets)
    (feasible : before.tableau.Feasible) (external : constraint.External)
    (older : constraint.key < before.nextKey) (required : constraint.isRequired = true) :
    (add constraint limit before).Meets (fun _ _ => before.RequiredOutcome constraint none)
      (fun fault _ => fault.isInternal = false → before.RequiredOutcome constraint (some fault)) := by
  refine (add_meets sound external older).imp ?_ ?_
  · rintro _ after ⟨_, _, _, _, installs, _⟩
    exact .admits installs.unobjected (installs.admits sound encodes external feasible required)
  · intro fault after fails expected
    cases fails with
    | objected objects => exact .objects objects
    | contradicted unobjected noPlace =>
      exact .refuses unobjected (not_admits_of_contradicted sound encodes external noPlace).2
    | refused unobjected chosen refuses =>
      have refused := (refuses_iff sound encodes external feasible chosen refuses).2
      cases refuses with
      | positive _ _ => exact .refuses unobjected (refused.mp rfl)
      | unbounded _ | stuck _ _ _ _ _ => cases expected
    | unbounded _ _ _ => cases expected

end Solver

namespace Session

variable {whole part session next wholeNext partNext : Session K} {key : Nat}
  {constraint : Constraint K} {outcome other : Outcome K (Session K) (Reply K)}

def AssembledExactly : Session K → Prop :=
  RunsExactly fun session request outcome => request.Assembles (fun _ _ => False) session ∧
    ∀ fault, outcome.fault? = some fault → fault.isInternal = false

/-- What is installed is installed as it is held. -/
def Mirrors (session : Session K) : Prop :=
  ∀ key entry, session.solver.installed.get? key = some entry →
    session.held.get? key = some entry.constraint

theorem AssembledExactly.sound (assembled : session.AssembledExactly) : session.Sound := by
  have exactly : session.Assembled (fun _ _ => False) fun fault => fault.isInternal = false :=
    assembled
  exact exactly.reachable.encodes.1

theorem AssembledExactly.add (assembled : session.AssembledExactly)
    (ends : session.EndsExactly (.add key) outcome next) : next.AssembledExactly := by
  have assembles : (Call.add key : Call K).Assembles (fun _ _ => False) session := trivial
  exact RunsExactly.call assembled ⟨assembles, ends.regular⟩ ends.judged ends.returns

theorem EndsExactly.of_add (ends : session.EndsExactly (.add key) outcome next)
    (held : session.held.get? key = some constraint) (meets : Option Fault → Solver K → Prop)
    (adds : ∀ limit, (Solver.add constraint limit session.solver).Meets
      (fun _ after => meets none after)
      (fun fault after => fault.isInternal = false → meets (some fault) after)) :
    meets outcome.fault? next.solver ∧ next.held = session.held := by
  have met : ∀ limit, (performExactly (.add key) limit session).Meets
      (fun _ next => meets none next.solver ∧ next.held = session.held)
      (fun fault next => (fault.isInternal = false → meets (some fault) next.solver) ∧
        next.held = session.held) := by
    intro limit
    refine meets_onHeld (meets none)
      (fun fault after => fault.isInternal = false → meets (some fault) after) ?_ ?_
    · intro found isHeld
      rw [held] at isHeld
      cases isHeld
      exact adds limit
    · intro missing
      rw [held] at missing
      cases missing
  rcases ends.meets met with ⟨_, clean, returned, same⟩ | ⟨fault, failed, regular, broken, same⟩
  · rw [clean]
    exact ⟨returned, same⟩
  · rw [failed]
    exact ⟨broken regular, same⟩

section Additions

variable (assembled : session.AssembledExactly) (held : session.held.get? key = some constraint)
  (ends : session.EndsExactly (.add key) outcome next)

include assembled held ends

theorem EndsExactly.installsUnlessFault :
    session.solver.InstallsUnlessFault constraint next.solver outcome.fault? ∧
      next.held = session.held := by
  have agrees := (assembled.sound.held key constraint held).2
  exact ends.of_add held
    (fun fault after => session.solver.InstallsUnlessFault constraint after fault) fun limit =>
      Solver.add_installsUnlessFault assembled.sound.solver agrees.external agrees.older

theorem EndsExactly.requiredOutcome [IsStrictOrderedRing K] (required : constraint.isRequired = true) :
    session.solver.RequiredOutcome constraint outcome.fault? := by
  have exactly : session.Assembled (fun _ _ => False) fun fault => fault.isInternal = false :=
    assembled
  obtain ⟨⟨offsets, encodes⟩, feasible⟩ := exactly.feasible fun _ _ _ => False.elim
  have sound := assembled.sound
  have agrees := (sound.held key constraint held).2
  exact (ends.of_add held (fun fault _ => session.solver.RequiredOutcome constraint fault) fun limit =>
    Solver.add_requiredOutcome sound.solver encodes feasible agrees.external agrees.older required).1

theorem EndsExactly.mirrors (mirrors : session.Mirrors) : next.Mirrors := by
  obtain ⟨⟨marker, installed⟩, sameHeld⟩ := ends.installsUnlessFault assembled held
  intro other entry found
  rw [installed] at found
  rw [sameHeld]
  split at found
  · rename_i same
    cases found
    rw [← same.2, (assembled.sound.held key constraint held).1]
    exact held
  · exact mirrors other entry found

end Additions

/-! The two runs -/

/-- Two sessions that hold the same constraints, of which the required ones are in both solvers or
in neither. -/
structure Paired (whole part : Session K) : Prop where
  assembled : whole.AssembledExactly
  partAssembled : part.AssembledExactly
  held : part.held = whole.held
  mirrors : whole.Mirrors
  partMirrors : part.Mirrors
  alike : ∀ key constraint, whole.held.get? key = some constraint → constraint.isRequired = true →
    whole.solver.hasConstraint constraint = part.solver.hasConstraint constraint

theorem Paired.symm (paired : whole.Paired part) : part.Paired whole where
  assembled := paired.partAssembled
  partAssembled := paired.assembled
  held := paired.held.symm
  mirrors := paired.partMirrors
  partMirrors := paired.mirrors
  alike key constraint held required :=
    (paired.alike key constraint (paired.held ▸ held) required).symm

theorem Paired.requirementsHold (paired : whole.Paired part) {valueOf : Variable → K}
    (requirements : whole.solver.RequirementsHold valueOf) :
    part.solver.RequirementsHold valueOf := by
  intro key entry found required
  have held := paired.partMirrors key entry found
  rw [paired.held] at held
  have sameKey := (paired.assembled.sound.held key entry.constraint held).1
  have present : whole.solver.hasConstraint entry.constraint = true := by
    rw [paired.alike key entry.constraint held required, Solver.hasConstraint, sameKey,
      Table.contains, found]
    rfl
  obtain ⟨own, isOwn⟩ := Option.isSome_iff_exists.mp present
  rw [sameKey] at isOwn
  have same : own.constraint = entry.constraint :=
    Option.some.inj ((paired.mirrors key own isOwn).symm.trans held)
  exact same ▸ requirements key own isOwn (same ▸ required)

theorem Paired.admits (paired : whole.Paired part) (constraint : Constraint K) :
    whole.solver.Admits constraint ↔ part.solver.Admits constraint :=
  exists_congr fun _ => and_congr_left fun _ =>
    ⟨paired.requirementsHold, paired.symm.requirementsHold⟩

section Adding

variable (paired : whole.Paired part) (held : whole.held.get? key = some constraint)

include paired held

/-- A required constraint ends the same way in both runs. -/
theorem Paired.fault_eq [IsStrictOrderedRing K] (required : constraint.isRequired = true)
    (ends : whole.EndsExactly (.add key) outcome wholeNext)
    (partEnds : part.EndsExactly (.add key) other partNext) : outcome.fault? = other.fault? :=
  (ends.requiredOutcome paired.assembled held required).unique
    (partEnds.requiredOutcome paired.partAssembled (paired.held ▸ held) required)
    (Solver.objection_congr required (paired.alike key constraint held required))
    (paired.admits constraint)

theorem Paired.add [IsStrictOrderedRing K] (required : constraint.isRequired = true)
    (ends : whole.EndsExactly (.add key) outcome wholeNext)
    (partEnds : part.EndsExactly (.add key) other partNext) : wholeNext.Paired partNext := by
  have sameFault := paired.fault_eq held required ends partEnds
  have partHeld : part.held.get? key = some constraint := paired.held ▸ held
  obtain ⟨⟨marker, installed⟩, sameHeld⟩ := ends.installsUnlessFault paired.assembled held
  obtain ⟨⟨partMarker, partInstalled⟩, partSame⟩ :=
    partEnds.installsUnlessFault paired.partAssembled partHeld
  refine ⟨paired.assembled.add ends, paired.partAssembled.add partEnds,
    partSame.trans (paired.held.trans sameHeld.symm),
    ends.mirrors paired.assembled held paired.mirrors,
    partEnds.mirrors paired.partAssembled partHeld paired.partMirrors, ?_⟩
  intro otherKey named isHeld isRequired
  rw [sameHeld] at isHeld
  have alike := paired.alike otherKey named isHeld isRequired
  unfold Solver.hasConstraint Table.contains at alike ⊢
  rw [installed, partInstalled, sameFault]
  split
  · rfl
  · exact alike

theorem Paired.addSoft (soft : constraint.isRequired = false)
    (ends : whole.EndsExactly (.add key) outcome wholeNext) : wholeNext.Paired part := by
  obtain ⟨⟨marker, installed⟩, sameHeld⟩ := ends.installsUnlessFault paired.assembled held
  refine ⟨paired.assembled.add ends, paired.partAssembled, paired.held.trans sameHeld.symm,
    ends.mirrors paired.assembled held paired.mirrors, paired.partMirrors, ?_⟩
  intro otherKey named isHeld isRequired
  rw [sameHeld] at isHeld
  have alike := paired.alike otherKey named isHeld isRequired
  unfold Solver.hasConstraint Table.contains at alike ⊢
  rw [installed, if_neg]
  · exact alike
  · rintro ⟨_, same⟩
    have ownKey := (paired.assembled.sound.held key constraint held).1
    have otherOwn := (paired.assembled.sound.held otherKey named isHeld).1
    have sameConstraint : constraint = named := by
      rw [← ownKey, same, otherOwn] at held
      exact Option.some.inj (held.symm.trans isHeld)
    rw [sameConstraint, isRequired] at soft
    cases soft

end Adding

section Judged

variable [Scalar K]

/-- The same of a run whose comparisons have a tolerance, which exact ones would not change. -/
def AssembledAsExactly : Session K → Prop :=
  Runs fun session request outcome => (request.Assembles (fun _ _ => False) session ∧
    ∀ fault, outcome.fault? = some fault → fault.isInternal = false) ∧
      session.JudgedExactly request outcome

/-- A run of additions to a solver without constraints, and the run in which those of constraints
that are not required are left out. -/
inductive OmitsUnrequired : Session K → Session K → Prop
  | start {origin : Session K} (run : origin.AssembledAsExactly)
      (bare : origin.solver.constraints = []) : OmitsUnrequired origin origin
  | required {whole part wholeNext partNext : Session K} {key : Nat} {constraint : Constraint K}
      {outcome other : Outcome K (Session K) (Reply K)} (earlier : OmitsUnrequired whole part)
      (held : whole.held.get? key = some constraint) (required : constraint.isRequired = true)
      (ends : whole.Ends (.add key) outcome wholeNext)
      (partEnds : part.Ends (.add key) other partNext) :
      OmitsUnrequired wholeNext partNext
  | soft {whole part wholeNext : Session K} {key : Nat} {constraint : Constraint K}
      {outcome : Outcome K (Session K) (Reply K)} (earlier : OmitsUnrequired whole part)
      (held : whole.held.get? key = some constraint) (soft : constraint.isRequired = false)
      (ends : whole.Ends (.add key) outcome wholeNext) : OmitsUnrequired wholeNext part

variable [IsStrictOrderedRing K]

theorem OmitsUnrequired.paired (omitsUnrequired : whole.OmitsUnrequired part) : whole.Paired part := by
  induction omitsUnrequired with
  | @start origin run bare =>
    have assembled : origin.AssembledExactly := Runs.exactly run
    have none : origin.Mirrors := by
      intro key entry found
      have member : entry.constraint ∈ origin.solver.constraints :=
        List.mem_map.mpr ⟨entry, List.mem_map.mpr
          ⟨_, (origin.solver.installed.mem_entries_iff key entry).mpr found, rfl⟩, rfl⟩
      rw [bare] at member
      cases member
    exact ⟨assembled, assembled, rfl, none, none, fun _ _ _ _ => rfl⟩
  | required _ held required ends partEnds ih =>
    exact ih.add held required ends.toEndsExactly partEnds.toEndsExactly
  | soft _ held soft ends ih => exact ih.addSoft held soft ends.toEndsExactly

/-- As long as the tolerance makes no difference, an addition of a required constraint ends as it
does in the run without those that are not required: none of them gets it refused. -/
theorem fault_eq_of_omitsUnrequired (omitsUnrequired : whole.OmitsUnrequired part)
    (held : whole.held.get? key = some constraint)
    (required : constraint.isRequired = true) (ends : whole.Ends (.add key) outcome wholeNext)
    (partEnds : part.Ends (.add key) other partNext) : outcome.fault? = other.fault? :=
  omitsUnrequired.paired.fault_eq held required ends.toEndsExactly partEnds.toEndsExactly

end Judged

section Coded

attribute [local instance] Scalar.coded

/-- A constraint to be given up puts the second variable at a thousand times the first one, which is
then held at five. That it be six is refused, with and without the first constraint. -/
theorem fault_eq_of_omitsUnrequired_scaled :
    let origin : Session ℚ := (start (.withConfig .standard) .log).replay 8
      [.newVariable none 0, .newVariable none 0,
        .make (.ofRelation (.ofTerm ⟨2⟩ (-1) + .ofTerm ⟨1⟩ 1000) .equal .weak 1),
        .make (.equal (.ofVariable ⟨1⟩) (.ofConstant 5) .required),
        .make (.equal (.ofVariable ⟨1⟩) (.ofConstant 6) .required)]
    let whole := origin.replay 8 [.add 0, .add 1]
    let part := origin.replay 8 [.add 1]
    whole.solver.value ⟨2⟩ = 5000 ∧ part.solver.value ⟨2⟩ = 0 ∧
      (perform (.add 2) 8 part).fault? = some .requiredFailure ∧
      (perform (.add 2) 8 whole).fault? = (perform (.add 2) 8 part).fault? := by
  intro origin whole part
  have scaled : (Demand.ofRelation (.ofTerm ⟨2⟩ (-1) + .ofTerm ⟨1⟩ 1000) .equal .weak 1 :
      Demand ℚ).External := by decide +kernel
  have prepared : origin.AssembledAsExactly := (Runs.fresh _ _).replay
    ⟨⟨⟨rfl, by decide +kernel⟩, 8, by decide +kernel⟩,
      ⟨⟨rfl, by decide +kernel⟩, 8, by decide +kernel⟩,
      ⟨⟨⟨scaled, zero_le_one⟩, by decide +kernel⟩, 8, by decide +kernel⟩,
      ⟨⟨⟨Demand.external_lowerBound ⟨1⟩ 5 .required, zero_le_one⟩, by decide +kernel⟩, 8,
        by decide +kernel⟩,
      ⟨⟨⟨Demand.external_lowerBound ⟨1⟩ 6 .required, zero_le_one⟩, by decide +kernel⟩, 8,
        by decide +kernel⟩, trivial⟩
  have first : origin.Ends (.add 0) (perform (.add 0) 8 origin) (origin.replay 8 [.add 0]) :=
    .of_perform ⟨8, by decide +kernel⟩ (by decide +kernel) (by decide +kernel)
  have second : (origin.replay 8 [.add 0]).Ends (.add 1)
      (perform (.add 1) 8 (origin.replay 8 [.add 0])) whole :=
    .of_perform ⟨8, by decide +kernel⟩ (by decide +kernel) (by decide +kernel)
  have partFirst : origin.Ends (.add 1) (perform (.add 1) 8 origin) part :=
    .of_perform ⟨8, by decide +kernel⟩ (by decide +kernel) (by decide +kernel)
  have third : whole.Ends (.add 2) (perform (.add 2) 8 whole) (whole.replay 8 [.add 2]) :=
    .of_perform ⟨8, by decide +kernel⟩ (by decide +kernel) (by decide +kernel)
  have partSecond : part.Ends (.add 2) (perform (.add 2) 8 part) (part.replay 8 [.add 2]) :=
    .of_perform ⟨8, by decide +kernel⟩ (by decide +kernel) (by decide +kernel)
  have bare : origin.solver.constraints = [] := by decide +kernel
  obtain ⟨soft, isSoft, givenUp⟩ := (Option.any_eq_true (fun constraint => !constraint.isRequired)
    (origin.held.get? 0)).mp (by decide +kernel)
  obtain ⟨five, isFive, fiveRequired⟩ := (Option.any_eq_true (fun constraint =>
    constraint.isRequired) ((origin.replay 8 [.add 0]).held.get? 1)).mp (by decide +kernel)
  obtain ⟨six, isSix, sixRequired⟩ := (Option.any_eq_true (fun constraint =>
    constraint.isRequired) (whole.held.get? 2)).mp (by decide +kernel)
  have omitsUnrequired : whole.OmitsUnrequired part :=
    ((OmitsUnrequired.start prepared bare).soft isSoft (by simpa using givenUp) first).required isFive
      fiveRequired second partFirst
  exact ⟨by decide +kernel, by decide +kernel, by decide +kernel,
    fault_eq_of_omitsUnrequired omitsUnrequired isSix sixRequired third partSecond⟩

/-- With a coefficient of a billion the first variable gets a row in which the second one is too
small to be kept, so that nothing is left that the required constraint could move. -/
theorem requiredFailure_of_soft_scaled :
    let origin : Session ℚ := (start (.withConfig .standard) .log).replay 8
      [.newVariable none 0, .newVariable none 0,
        .make (.ofRelation (.ofTerm ⟨2⟩ (-1) + .ofTerm ⟨1⟩ 1000000000) .equal .weak 1),
        .make (.equal (.ofVariable ⟨1⟩) (.ofConstant 5) .required)]
    let whole := origin.replay 8 [.add 0]
    Runs (fun session request outcome => request.Assembles (fun _ _ => False) session ∧
      outcome.fault? = none) whole ∧ origin.solver.constraintCount = 0 ∧
      (whole.held.get? 0).any (fun constraint => !constraint.isRequired) = true ∧
      (whole.held.get? 1).any (fun constraint => constraint.isRequired) = true ∧
      (perform (.add 1) 8 whole).fault? = some .requiredFailure ∧
      (perform (.add 1) 8 origin).state?.isSome = true ∧
      (perform (.add 1) 8 origin).fault? = none := by
  intro origin whole
  have scaled : (Demand.ofRelation (.ofTerm ⟨2⟩ (-1) + .ofTerm ⟨1⟩ 1000000000) .equal .weak 1 :
      Demand ℚ).External := by decide +kernel
  have prepared : Runs (fun session request outcome =>
      request.Assembles (fun _ _ => False) session ∧ outcome.fault? = none) origin :=
    (Runs.fresh _ _).replay ⟨⟨rfl, by decide +kernel⟩, ⟨rfl, by decide +kernel⟩,
      ⟨⟨scaled, zero_le_one⟩, by decide +kernel⟩,
      ⟨⟨Demand.external_lowerBound ⟨1⟩ 5 .required, zero_le_one⟩, by decide +kernel⟩, trivial⟩
  refine ⟨prepared.replay ⟨⟨trivial, ?_⟩, trivial⟩, ?_, ?_, ?_, ?_, ?_, ?_⟩
  all_goals decide +kernel

end Coded

end Session

end SoftSimplex
