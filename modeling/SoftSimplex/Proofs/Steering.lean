import SoftSimplex.Proofs.Preparing
import SoftSimplex.Proofs.Pricing

/-!
Steering by edits. Constraints are put together, a session begins, and then targets are suggested
and resolved. Whatever has been suggested, a resolution publishes what adding the constraints with
their present targets would: values of the least penalty.
-/

namespace SoftSimplex

variable {K : Type} [Field K] [LinearOrder K]

namespace Tableau

variable {before after : Tableau K} {objective : Symbol}

theorem DualFeasible.shift {constantOf : Symbol → Expression K → K}
    (dual : before.DualFeasible objective) (shifts : before.Shifts after constantOf) :
    after.DualFeasible objective := by
  intro costs found symbol pivotable
  rw [shifts.rows] at found
  obtain ⟨row, was, rfl⟩ := Option.map_eq_some_iff.mp found
  exact dual row was symbol pivotable

theorem DualFeasible.retarget {plus minus : Symbol} {delta : K}
    (dual : before.DualFeasible objective)
    (retargets : before.Retargets plus minus delta after) : after.DualFeasible objective := by
  cases retargets with
  | plus _ shifts => exact dual.shift shifts
  | minus _ shifts => exact dual.shift shifts
  | uses _ _ shifts => exact dual.shift shifts

end Tableau

namespace Solver

variable {solver before after : Solver K} {asked rested : Variable → Option K} {limit : Nat}
  {constraint : Constraint K}

/-! Between suggestions -/

/-- A solver between the calls of an edit session, with the targets that its constraints have by
now. The objective is what missing them costs, up to what moving the targets has added. -/
structure Tracks (solver : Solver K) (asked rested : Variable → Option K) : Prop extends
    solver.RepairableEncoding where
  aims : ∃ offsets, solver.Encodes offsets ∧ solver.Aims offsets asked rested
  prices : ∃ surplus, solver.PricesUpTo surplus
  dual : solver.tableau.DualFeasible .mainObjective
  weighs : ∀ key entry, solver.installed.get? key = some entry → 0 ≤ entry.constraint.weight
  registers : solver.Registers asked

theorem Tracks.tidy (tracks : before.Tracks asked rested) (tidies : before.Tidies after) :
    after.Tracks asked rested := by
  obtain ⟨offsets, encodes, aims⟩ := tracks.aims
  obtain ⟨surplus, prices⟩ := tracks.prices
  refine { tracks.toRepairableEncoding.tidy tidies with
    aims := ⟨offsets, encodes.of_same (by rw [tidies.tableau]) tidies.installed, ?_⟩
    prices := ⟨surplus, prices.of_same (congrArg Tableau.rows tidies.tableau) tidies.installed⟩
    dual := ?_
    weighs := ?_
    registers := tracks.registers.of_same tidies.installed tidies.stays tidies.edits }
  · unfold Aims
    rw [tidies.installed]
    exact aims
  · rw [tidies.tableau]
    exact tracks.dual
  · rw [tidies.installed]
    exact tracks.weighs

theorem Tracks.retargeted (tracks : before.Tracks asked rested) {unknown : Variable}
    {info : EditInfo K} (registered : before.edits.get? unknown = some info) (target : K) :
    (before.retargeted unknown info target).Tracks (Function.update asked unknown (some target))
      rested := by
  obtain ⟨offsets, encodes, aims⟩ := tracks.aims
  obtain ⟨surplus, prices⟩ := tracks.prices
  have sound := tracks.sound
  obtain ⟨_, _, retargets⟩ := retargets_retargeted sound registered target
  refine { tracks.toRepairableEncoding.retargeted registered target with
    aims := ⟨_, encodes.retarget sound registered target,
      aims.retarget tracks.registers sound registered target⟩
    prices := prices.retargeted sound registered target
    dual := tracks.dual.retarget retargets
    weighs := tracks.weighs
    registers := tracks.registers.retarget registered target }

variable [IsStrictOrderedRing K]

theorem Tracks.settled (tracks : solver.Tracks asked rested) (feasible : solver.tableau.Feasible)
    (published : solver.Published) : solver.settled.Tracks asked solver.shown := by
  obtain ⟨offsets, encodes, aims⟩ := tracks.aims
  obtain ⟨surplus, prices⟩ := tracks.prices
  have sound := tracks.sound
  have encoding : solver.FeasibleEncoding := ⟨sound, tracks.encodes, feasible⟩
  have cleared : (solver.setTableau solver.tableau.clearInfeasible).PricesUpTo surplus := prices
  exact { encoding.settled.repairable with
    aims := aims.settle tracks.registers encodes sound published
    prices := cleared.settleStays sound.clearInfeasible fun _ member => member
    dual := tracks.dual.shift solver.shifts_settled
    weighs := tracks.weighs
    registers := tracks.registers.of_same rfl rfl rfl }

theorem Tracks.optimal (tracks : solver.Tracks asked rested) (feasible : solver.tableau.Feasible)
    (published : solver.Published) : (solver.aimed asked rested).Optimal := by
  obtain ⟨offsets, encodes, aims⟩ := tracks.aims
  obtain ⟨surplus, prices⟩ := tracks.prices
  exact aimed_optimal tracks.sound encodes aims prices feasible
    (fun key entry found _ => tracks.weighs key entry found) published tracks.dual

theorem Tracks.mend (tracks : before.Tracks asked rested) {tableau : Tableau K}
    (fits : tableau.Fits before.nextId)
    (keptByRepair : before.tableau.KeptByRepair .mainObjective tableau)
    (feasible : tableau.Feasible) : (before.setTableau tableau).Tracks asked rested := by
  obtain ⟨offsets, encodes, aims⟩ := tracks.aims
  obtain ⟨surplus, prices⟩ := tracks.prices
  exact { (tracks.toRepairableEncoding.mend keptByRepair fits feasible).repairable with
    aims := ⟨offsets, encodes.mend keptByRepair, aims⟩
    prices := ⟨surplus, prices.restate keptByRepair.restates⟩
    dual := keptByRepair.dual tracks.dual
    weighs := tracks.weighs
    registers := tracks.registers.of_same rfl rfl rfl }

/-! Resolving -/

theorem Tracks.resolve (tracks : before.Tracks asked rested) :
    (resolve limit before).Meets
      (fun _ after => after.Tracks asked after.shown ∧ (after.aimed asked rested).Optimal ∧
        (before.tableau.Feasible → before.Published →
          after.shown = before.shown ∧ (after.aimed asked before.shown).Optimal))
      (fun _ _ => False) := by
  refine tracks.toRepairableEncoding.resolve.imp ?_ fun _ _ => id
  intro _ after resolves
  have again := resolves.again
  have settledPublished := resolves.published tracks.toRepairableEncoding
  obtain ⟨tableau, fits, keptByRepair, feasible, rfl⟩ := resolves
  have tidies := tidies_publishValues (before.setTableau tableau)
  have mended := (tracks.mend fits keptByRepair feasible).tidy tidies
  have encoding := (tracks.toRepairableEncoding.mend keptByRepair fits feasible).tidy tidies
  have published : (before.setTableau tableau).publishValues.Published :=
    published_publishValues fits.indexed
  have settled := mended.settled encoding.feasible published
  refine ⟨settled, mended.optimal encoding.feasible published, fun wasFeasible wasPublished => ?_⟩
  have same : (before.setTableau tableau).publishValues.settled.shown = before.shown :=
    congrArg (fun value unknown => some (value unknown)) (again wasFeasible wasPublished)
  refine ⟨same, ?_⟩
  rw [← same]
  exact settled.optimal encoding.settled.feasible settledPublished

/-! A session -/

theorem Ready.tracks (ready : solver.Ready) (settled : solver.Settled) :
    solver.Tracks (fun _ => none) fun _ => none := by
  have accounts := ready.accounts
  have encoding : solver.FeasibleEncoding := ⟨ready.sound, ⟨_, accounts.encodes⟩, accounts.feasible⟩
  exact { encoding.repairable with
    aims := ⟨_, accounts.encodes, solver.aims_none⟩
    prices := ⟨0, prices_iff.mp accounts.prices⟩
    dual := settled.dual
    weighs := accounts.weighs
    registers := ready.registers }

/-- What an edit session works on. If nothing could be edited the session has not begun, and the
stays are still at their own targets. -/
inductive EditsToward (solver : Solver K) (asked : Variable → Option K) :
    (Variable → Option K) → Prop
  | begun {rested : Variable → Option K} (tracks : solver.Tracks asked rested) :
      EditsToward solver asked rested
  | waiting (unregistered : solver.edits.isEmpty = true)
      (tracks : solver.Tracks asked fun _ => none) (feasible : solver.tableau.Feasible)
      (published : solver.Published) : EditsToward solver asked solver.shown

theorem Ready.beginEdit (ready : before.Ready) (settled : before.Settled) :
    (beginEdit limit before).Meets (fun _ after => after.EditsToward (fun _ => none) after.shown)
      (fun _ after => after.EditsToward (fun _ => none) after.shown) := by
  have tracks := ready.tracks settled
  have feasible := ready.accounts.feasible
  rw [meets_beginEdit]
  split
  · rename_i unregistered
    exact .waiting unregistered tracks feasible settled.published
  · have begun := tracks.settled feasible settled.published
    exact .begun (begun.tidy (tidies_depths _ _))

omit [IsStrictOrderedRing K] in
theorem EditsToward.suggest (editsToward : before.EditsToward asked rested) {unknown : Variable}
    (registered : before.edits.contains unknown = true) (target : K) :
    (suggest unknown target limit before).Meets
      (fun _ after => after.EditsToward (Function.update asked unknown (some target)) rested)
      (fun _ _ => False) := by
  obtain ⟨info, found⟩ := Option.isSome_iff_exists.mp registered
  cases editsToward with
  | waiting unregistered _ _ _ =>
    have none : before.edits.entries = [] := List.isEmpty_iff.mp unregistered
    rw [Table.get?, none] at found
    cases found
  | begun tracks =>
    rw [meets_suggest, found]
    exact .begun (tracks.retargeted found target)

theorem EditsToward.resolve (editsToward : before.EditsToward asked rested) :
    (resolve limit before).Meets
      (fun _ after => after.EditsToward asked after.shown ∧ (after.aimed asked rested).Optimal)
      (fun _ _ => False) := by
  cases editsToward with
  | begun tracks =>
    exact tracks.resolve.imp (fun _ _ met => ⟨.begun met.1, met.2.1⟩) fun _ _ => id
  | waiting _ tracks feasible published =>
    exact tracks.resolve.imp (fun _ _ met => ⟨.begun met.1, (met.2.2 feasible published).2⟩)
      fun _ _ => id

end Solver

namespace Session

variable {session next : Session K} {limit : Nat} {asked rested : Variable → Option K}

/-- An edit session over what was prepared with automatic solving: the targets asked for since it
began, and the values at which the stays came to rest when it began or was last resolved. -/
inductive Edits : Session K → (Variable → Option K) → (Variable → Option K) → Prop
  | begin {session next : Session K} {limit : Nat} (prepared : Prepared session)
      (autoSolve : session.solver.config.autoSolve = true)
      (returns : (perform .beginEdit limit session).state? = some next) :
      Edits next (fun _ => none) next.solver.shown
  | suggest {session next : Session K} {asked rested : Variable → Option K} {unknown : Variable}
      {target : K} {limit : Nat} (earlier : Edits session asked rested)
      (registered : session.solver.edits.contains unknown = true)
      (returns : (perform (.suggest unknown target) limit session).state? = some next) :
      Edits next (Function.update asked unknown (some target)) rested
  | resolve {session next : Session K} {asked rested : Variable → Option K} {limit : Nat}
      (earlier : Edits session asked rested)
      (returns : (perform .resolve limit session).state? = some next) :
      Edits next asked next.solver.shown

variable [IsStrictOrderedRing K]

theorem Edits.editsToward (edits : Edits session asked rested) :
    session.solver.EditsToward asked rested := by
  induction edits with
  | @begin session next limit prepared autoSolve returns =>
    obtain ⟨_, _, ready⟩ := prepared.ready
    have begins : (perform .beginEdit limit session).Meets
        (fun _ next => next.solver.EditsToward (fun _ => none) next.solver.shown)
        (fun _ next => next.solver.EditsToward (fun _ => none) next.solver.shown) :=
      (meets_silent (ready.beginEdit (ready.settled (Or.inl autoSolve)))).imp
        (fun _ _ met => met.1) fun _ _ met => met.1
    exact begins.of_state? returns
  | @suggest session next asked rested unknown target limit earlier registered returns ih =>
    have moves : (perform (.suggest unknown target) limit session).Meets
        (fun _ next => next.solver.EditsToward (Function.update asked unknown (some target)) rested)
        (fun _ next => next.solver.EditsToward (Function.update asked unknown (some target)) rested) :=
      (meets_silent (ih.suggest registered target)).imp (fun _ _ met => met.1)
        fun _ _ met => met.1.elim
    exact moves.of_state? returns
  | @resolve session next asked rested limit earlier returns ih =>
    have resolves : (perform .resolve limit session).Meets
        (fun _ next => next.solver.EditsToward asked next.solver.shown)
        (fun _ next => next.solver.EditsToward asked next.solver.shown) :=
      (meets_silent ih.resolve).imp (fun _ _ met => met.1.1) fun _ _ met => met.1.elim
    exact resolves.of_state? returns

/-- However often targets have been suggested, a resolution succeeds, and the values it publishes
are optimal for the constraints with the targets that they have by now. -/
theorem resolve_optimal (edits : Edits session asked rested) (limit : Nat) :
    (perform .resolve limit session).Meets
      (fun _ next => (next.solver.aimed asked rested).Optimal) (fun _ _ => False) :=
  (meets_silent edits.editsToward.resolve).imp (fun _ _ met => met.1.2) fun _ _ met => met.1

/-- A variable that must not exceed ten is wanted at twenty and pushes another one before it, which
then stays where it was pushed when the first is called back. -/
theorem resolve_optimal_pushed :
    let prepared : Session ℚ := (start (.withConfig .standard) .log).replay 8
      [.newVariable none 0, .newVariable none 5,
        .make (.atMost (.ofVariable ⟨1⟩) (.ofConstant 10) .required), .add 0,
        .make (.atLeast (.ofVariable ⟨2⟩) (.ofVariable ⟨1⟩) .required), .add 1,
        .addStay ⟨2⟩ .weak 1, .addEdit ⟨1⟩ .strong]
    let begun := prepared.replay 8 [.beginEdit]
    let suggested := begun.replay 8 [.suggest ⟨1⟩ 20]
    let pushed := suggested.replay 8 [.resolve]
    let session := pushed.replay 8 [.suggest ⟨1⟩ 4]
    let asked := Function.update (Function.update (fun _ => none) ⟨1⟩ (some 20)) ⟨1⟩ (some 4)
    (pushed.solver.value ⟨1⟩, pushed.solver.value ⟨2⟩) = (10, 10) ∧
      (perform .resolve 8 session).state?.map (fun next => (next.solver.value ⟨1⟩,
        next.solver.value ⟨2⟩)) = some (4, 10) ∧
      (perform .resolve 8 session).Meets
        (fun _ next => (next.solver.aimed asked pushed.solver.shown).Optimal)
        (fun _ _ => False) := by
  intro prepared begun suggested pushed session asked
  have isPrepared : prepared.Prepared := by
    refine (Runs.fresh _ _).replay ⟨⟨rfl, ?_⟩, ⟨rfl, ?_⟩,
      ⟨⟨Demand.external_upperBound ⟨1⟩ 10 .required, zero_le_one, nofun⟩, ?_⟩, ⟨trivial, ?_⟩,
      ⟨⟨?_, zero_le_one, nofun⟩, ?_⟩, ⟨trivial, ?_⟩, ⟨zero_le_one, ?_⟩, ⟨trivial, ?_⟩, trivial⟩
    all_goals decide +kernel
  have first : (perform .beginEdit 8 prepared).state? = some begun :=
    state?_of_returns (by decide +kernel)
  have second : (perform (.suggest ⟨1⟩ 20) 8 begun).state? = some suggested :=
    state?_of_returns (by decide +kernel)
  have third : (perform .resolve 8 suggested).state? = some pushed :=
    state?_of_returns (by decide +kernel)
  have fourth : (perform (.suggest ⟨1⟩ 4) 8 pushed).state? = some session :=
    state?_of_returns (by decide +kernel)
  have edits : Edits session asked pushed.solver.shown :=
    .suggest (.resolve (.suggest (.begin isPrepared (by decide +kernel) first)
      (by decide +kernel) second) third) (by decide +kernel) fourth
  refine ⟨by decide +kernel, by decide +kernel, ?_⟩
  clear_value session asked pushed
  exact resolve_optimal edits 8

end Session

end SoftSimplex
