import SoftSimplex.Proofs.Defects
import SoftSimplex.Proofs.Publication
import SoftSimplex.Proofs.Repair

/-!
Edit sessions. Between two resolutions targets may take restricted rows below zero, and the queue
has them all; a resolution repairs them, and what is required holds again. What would lose the
queue, an addition or another session, has to wait until no row is below zero.
-/

namespace SoftSimplex

variable {K : Type} [Field K] [LinearOrder K]

namespace Tableau

variable {before after : Tableau K}

omit [LinearOrder K] in
theorem Layered.shift {constantOf : Symbol → Expression K → K} (layered : before.Layered)
    (shifts : before.Shifts after constantOf)
    (still : ∀ basic row, before.row? basic = some row → basic.isDummy = true →
      constantOf basic row = row.constant) : after.Layered := by
  intro basic next found
  rw [shifts.rows] at found
  obtain ⟨row, was, rfl⟩ := Option.map_eq_some_iff.mp found
  refine ⟨(layered basic row was).enclosed, fun isDummy => ?_⟩
  obtain ⟨zero, dummies⟩ := (layered basic row was).rests isDummy
  exact ⟨(still basic row was isDummy).trans zero, dummies⟩

omit [LinearOrder K] in
theorem Layered.retarget {plus minus : Symbol} {delta : K} (layered : before.Layered)
    (indexed : before.Indexed) (plusSlack : plus.kind = .slack) (minusSlack : minus.kind = .slack)
    (retargets : before.Retargets plus minus delta after) : after.Layered := by
  have apart : ∀ {symbol basic : Symbol}, symbol.kind = .slack → basic.isDummy = true →
      symbol ≠ basic := by
    rintro symbol _ slack isDummy rfl
    rw [Symbol.isDummy, slack] at isDummy
    cases isDummy
  cases retargets with
  | plus _ shifts =>
    exact layered.shift shifts fun basic row _ isDummy => if_neg (apart plusSlack isDummy)
  | minus _ shifts =>
    exact layered.shift shifts fun basic row _ isDummy => if_neg (apart minusSlack isDummy)
  | uses _ _ shifts =>
    refine layered.shift shifts fun basic row found isDummy => if_neg fun used => ?_
    obtain ⟨other, isRow, occurs⟩ := (indexed.agrees minus basic).mp used
    have impossible := ((layered basic other isRow).rests isDummy).2 minus occurs
    rw [Symbol.isDummy, minusSlack] at impossible
    cases impossible

end Tableau

namespace Solver

variable {before after solver : Solver K} {limit : Nat}

def NoneBelowZero (solver : Solver K) : Prop :=
  ∀ basic row, solver.tableau.row? basic = some row → basic.isRestricted = true →
    0 ≤ row.constant

instance (solver : Solver K) : Decidable solver.NoneBelowZero :=
  decidable_of_iff (∀ item ∈ solver.tableau.rows.entries, item.1.isRestricted = true →
      0 ≤ item.2.constant) <| by
    constructor
    · exact fun holds basic row found =>
        holds (basic, row) ((solver.tableau.rows.mem_entries_iff basic row).mpr found)
    · exact fun holds item member =>
        holds item.1 item.2 ((solver.tableau.rows.mem_entries_iff item.1 item.2).mp member)

structure FeasibleEncoding (solver : Solver K) : Prop where
  sound : solver.Sound
  encodes : ∃ offsets, solver.Encodes offsets
  feasible : solver.tableau.Feasible

/-- A solver between the calls of an edit session: constants may be below zero where they are
queued, but what is required can still be met. -/
structure RepairableEncoding (solver : Solver K) : Prop where
  sound : solver.Sound
  encodes : ∃ offsets, solver.Encodes offsets
  layered : solver.tableau.Layered
  flagged : solver.tableau.Flagged
  satisfiable : ∃ valueOf, solver.RequirementsHold valueOf

def settled (solver : Solver K) : Solver K :=
  (solver.setTableau solver.tableau.clearInfeasible).settleStays

/-- The rows are repaired and the values published, and then the stays settle. -/
def Resolves (before after : Solver K) : Prop :=
  ∃ tableau, tableau.Fits before.nextId ∧ before.tableau.KeptByRepair .mainObjective tableau ∧
    tableau.Feasible ∧ after = (before.setTableau tableau).publishValues.settled

theorem FeasibleEncoding.tidy (encoding : before.FeasibleEncoding) (tidies : before.Tidies after) :
    after.FeasibleEncoding := by
  obtain ⟨offsets, encodes⟩ := encoding.encodes
  refine ⟨tidies.sound encoding.sound,
    ⟨offsets, encodes.of_same (by rw [tidies.tableau]) tidies.installed⟩, ?_⟩
  rw [tidies.tableau]
  exact encoding.feasible

theorem RepairableEncoding.tidy (repairable : before.RepairableEncoding)
    (tidies : before.Tidies after) : after.RepairableEncoding := by
  obtain ⟨offsets, encodes⟩ := repairable.encodes
  refine ⟨tidies.sound repairable.sound,
    ⟨offsets, encodes.of_same (by rw [tidies.tableau]) tidies.installed⟩, ?_, ?_, ?_⟩
  · rw [tidies.tableau]
    exact repairable.layered
  · rw [tidies.tableau]
    exact repairable.flagged
  · unfold RequirementsHold
    rw [tidies.installed]
    exact repairable.satisfiable

theorem FeasibleEncoding.settled (encoding : before.FeasibleEncoding) :
    before.settled.FeasibleEncoding := by
  obtain ⟨offsets, encodes⟩ := encoding.encodes
  have reaches : Reaches (fun _ => False) before before.settled := settle_reaches before
  have cleared : before.tableau.clearInfeasible.Feasible := encoding.feasible
  refine ⟨reaches.sound encoding.sound, ?_, cleared.settleStays before.stays⟩
  exact (reaches.keeps (fun solver => ∃ offsets, solver.Encodes offsets)
    (fun _ _ move sound => Encodes.move move sound) encoding.sound ⟨offsets, encodes⟩).2

theorem FeasibleEncoding.noneBelowZero (encoding : solver.FeasibleEncoding) : solver.NoneBelowZero :=
    fun basic row found restricted =>
  (encoding.feasible basic row found).constant_nonneg restricted

theorem RepairableEncoding.encoding (repairable : solver.RepairableEncoding)
    (noneBelowZero : solver.NoneBelowZero) : solver.FeasibleEncoding :=
  ⟨repairable.sound, repairable.encodes, repairable.layered.feasible fun basic row found pivotable =>
    noneBelowZero basic row found (Tableau.restricted_of_pivotable pivotable)⟩

variable [IsStrictOrderedRing K]

theorem FeasibleEncoding.satisfiable (encoding : solver.FeasibleEncoding) :
    ∃ valueOf, solver.RequirementsHold valueOf := by
  obtain ⟨offsets, encodes⟩ := encoding.encodes
  have solves : solver.tableau.Solves solver.tableau.basicSolution :=
    Tableau.solves_completed encoding.sound.fits.indexed _
  exact ⟨_, requirementsHold_of_extends encoding.sound encodes.required encoding.feasible.proper.extends
    ((encodes.solves _).mp solves)⟩

theorem FeasibleEncoding.repairable (encoding : solver.FeasibleEncoding) :
    solver.RepairableEncoding := by
  refine ⟨encoding.sound, encoding.encodes, encoding.feasible.layered, ?_, encoding.satisfiable⟩
  intro basic row found _ restricted negative
  exact absurd (encoding.noneBelowZero basic row found restricted) (not_le.mpr negative)

/-! Resolving -/

theorem RepairableEncoding.resolve (repairable : before.RepairableEncoding) :
    (resolve limit before).Meets (fun _ after => before.Resolves after) (fun _ _ => False) := by
  obtain ⟨offsets, encodes⟩ := repairable.encodes
  obtain ⟨valueOf, requirements⟩ := repairable.satisfiable
  have solves := (encodes.solves _).mpr (balanced_spread repairable.sound offsets valueOf)
  rw [meets_resolve]
  refine (Tableau.repair_keptByRepair repairable.sound.fits encodes.pruned repairable.layered
    repairable.flagged
    (spread_proper repairable.sound encodes.required requirements) solves).imp ?_ fun _ _ none => none
  rintro _ tableau ⟨fits, keptByRepair, feasible⟩
  exact ⟨tableau, fits, keptByRepair, feasible, rfl⟩

section Mending

variable {tableau : Tableau K} {offsets : Nat → K}
  (keptByRepair : before.tableau.KeptByRepair .mainObjective tableau)

include keptByRepair

omit [IsStrictOrderedRing K] in
theorem Encodes.mend (encodes : before.Encodes offsets) :
    (before.setTableau tableau).Encodes offsets :=
  ⟨keptByRepair.restates.pruned, encodes.required, fun assignment =>
    (keptByRepair.restates.solves assignment).trans (encodes.solves assignment)⟩

omit [IsStrictOrderedRing K] in
theorem RepairableEncoding.mend (repairable : before.RepairableEncoding)
    (fits : tableau.Fits before.nextId)
    (feasible : tableau.Feasible) : (before.setTableau tableau).FeasibleEncoding := by
  obtain ⟨offsets, encodes⟩ := repairable.encodes
  exact ⟨⟨fits, repairable.sound.books⟩, ⟨offsets, encodes.mend keptByRepair⟩, feasible⟩

end Mending

theorem Resolves.encoding (resolves : before.Resolves after) (repairable : before.RepairableEncoding) :
    after.FeasibleEncoding ∧ after.RequirementsHold after.value := by
  obtain ⟨tableau, fits, keptByRepair, feasible, rfl⟩ := resolves
  obtain ⟨offsets, encodes⟩ := repairable.encodes
  have tidies := tidies_publishValues (before.setTableau tableau)
  have encoding := (repairable.mend keptByRepair fits feasible).tidy tidies
  have published : (before.setTableau tableau).publishValues.Published :=
    published_publishValues fits.indexed
  have publishedEncodes : (before.setTableau tableau).publishValues.Encodes offsets :=
    (encodes.mend keptByRepair).of_same (by rw [tidies.tableau]) tidies.installed
  have holds : (before.setTableau tableau).publishValues.RequirementsHold
      (before.setTableau tableau).publishValues.value :=
    requirementsHold_of_extends encoding.sound publishedEncodes.required
      (published.extends encoding.sound.fits.indexed encoding.feasible)
      ((publishedEncodes.solves _).mp (Tableau.solves_completed encoding.sound.fits.indexed _))
  exact ⟨encoding.settled, holds⟩

/-! The other calls of a session -/

section Calls

variable {unknown : Variable} {constraint : Constraint K} {fault : Option Fault}

omit [IsStrictOrderedRing K] in
theorem FeasibleEncoding.reach {given : Constraint K → Prop} (encoding : before.FeasibleEncoding)
    (reaches : Reaches given before after)
    (feasible : before.tableau.Pruned → after.tableau.Feasible) : after.FeasibleEncoding := by
  obtain ⟨offsets, encodes⟩ := encoding.encodes
  obtain ⟨sound, later⟩ := reaches.keeps (fun solver => ∃ offsets, solver.Encodes offsets)
    (fun _ _ move moveSound => Encodes.move move moveSound) encoding.sound ⟨offsets, encodes⟩
  exact ⟨sound, later, feasible encodes.pruned⟩

theorem FeasibleEncoding.settle (encoding : before.FeasibleEncoding)
    (settles : before.Settles fault after) : after.FeasibleEncoding := by
  have reaches : Reaches (fun _ => False) before after := settles.reaches
  exact encoding.reach reaches fun pruned => settles.feasible encoding.sound pruned encoding.feasible

theorem FeasibleEncoding.install (encoding : before.FeasibleEncoding) (external : constraint.External)
    (older : constraint.key < before.nextKey) {placement : Placement K} {tableau : Tableau K}
    {nextId : Nat} (installs : before.Installs constraint placement tableau nextId after) :
    after.FeasibleEncoding := by
  obtain ⟨offsets, encodes⟩ := encoding.encodes
  refine ⟨installs.sound encoding.sound external older,
    ⟨_, encodes.install encoding.sound external installs⟩, ?_⟩
  rw [installs.tableau_eq]
  exact installs.feasible encoding.sound external encodes.pruned encoding.feasible

theorem FeasibleEncoding.add (encoding : before.FeasibleEncoding) (external : constraint.External)
    (older : constraint.key < before.nextKey) :
    (add constraint limit before).Meets (fun _ after => after.FeasibleEncoding)
      (fun _ after => after.FeasibleEncoding) := by
  have grows := before.equationFor_nextId constraint
  have reserved : ∀ {nextId : Nat}, before.nextId ≤ nextId →
      ({ before with nextId } : Solver K).FeasibleEncoding :=
        fun grows => encoding.tidy (tidies_nextId grows)
  refine (add_meets encoding.sound external older).imp ?_ ?_
  · rintro _ after ⟨_, _, _, middle, installs, follows⟩
    have settles : middle.Settles none after := follows
    exact (encoding.install external older installs).settle settles
  · intro fault after fails
    cases fails with
    | objected _ => exact encoding
    | contradicted _ _ => exact reserved (Nat.le_of_lt grows)
    | refused _ _ _ => exact reserved (by omega)
    | @unbounded _ _ _ middle _ installs _ escapes =>
      have settles : middle.Settles (some (.internal .objectiveUnbounded)) after := ⟨rfl, escapes⟩
      exact (encoding.install external older installs).settle settles

theorem FeasibleEncoding.addEdit (encoding : before.FeasibleEncoding) (unknown : Variable)
    (strength : Strength) :
    (addEdit unknown strength limit before).Meets (fun _ after => after.FeasibleEncoding)
      (fun _ after => after.FeasibleEncoding) := by
  rw [meets_addEdit unknown strength fun after => after.FeasibleEncoding]
  have reserved := encoding.tidy before.tidies_withNextKey
  exact reserved.add (Demand.external_edit unknown _ strength) (Nat.lt_succ_self _)

theorem FeasibleEncoding.uninstallEdit (encoding : before.FeasibleEncoding) {info : EditInfo K}
    (registered : before.edits.get? unknown = some info) {entry : Installed K}
    {dropped : Tableau K} (uninstalls : before.Uninstalls info.constraint entry dropped after) :
    after.FeasibleEncoding := by
  obtain ⟨offsets, encodes⟩ := encoding.encodes
  obtain ⟨own, found, _, _, _, _, slack⟩ := edit_symbols encoding.sound registered
  obtain rfl := Option.some.inj (found.symm.trans uninstalls.found)
  have sameKind := encoding.sound.edit_kind registered own found
  obtain ⟨later, _, left⟩ := encodes.uninstall uninstalls encoding.sound sameKind
  refine ⟨uninstalls.sound encoding.sound sameKind, ⟨later, left⟩, ?_⟩
  refine uninstalls.feasible encoding.sound sameKind encodes encoding.feasible
    (Or.inl fun basic row isRow isDummy occurs => ?_)
  have feasible : (before.withdraw info.constraint).tableau.Feasible :=
    (encoding.feasible.settleStays before.stays).recost (withdraw_tableau encoding.sound found).1
  have impossible := ((feasible basic row isRow).rests isDummy).2 own.marker occurs
  simp [Symbol.isDummy, slack, SymbolKind.isDummy] at impossible

theorem FeasibleEncoding.removeEdit (encoding : before.FeasibleEncoding) (unknown : Variable) :
    (removeEdit unknown limit before).Meets (fun _ after => after.FeasibleEncoding)
      (fun _ after => after.FeasibleEncoding) := by
  rw [meets_removeEdit]
  cases registered : before.edits.get? unknown with
  | none => exact encoding
  | some info =>
    refine (remove_meets encoding.sound (encoding.sound.edit_kind registered)).imp ?_ ?_
    · rintro _ after ⟨entry, dropped, middle, uninstalls, follows⟩
      have settles : middle.Settles none after := follows
      exact (encoding.uninstallEdit registered uninstalls).settle settles
    · intro fault after fails
      cases fails with
      | missing _ => exact encoding
      | @unbounded _ _ middle _ uninstalls _ escapes =>
        have settles : middle.Settles (some (.internal .objectiveUnbounded)) after := ⟨rfl, escapes⟩
        exact (encoding.uninstallEdit registered uninstalls).settle settles

theorem FeasibleEncoding.trimEdits (encoding : before.FeasibleEncoding) (count : Nat) :
    (trimEdits count limit before).Meets (fun _ after => after.FeasibleEncoding)
      (fun _ after => after.FeasibleEncoding) := by
  refine (meets_trimEdits count).mpr (Action.meets_forEach FeasibleEncoding ?_ _ encoding)
  exact fun unknown current held => (Action.meets_mapFault _ _ _).mpr (held.removeEdit unknown)

omit [IsStrictOrderedRing K] in
theorem FeasibleEncoding.beginEdit (encoding : before.FeasibleEncoding) :
    (beginEdit limit before).Meets (fun _ after => after.FeasibleEncoding)
      (fun _ after => after.FeasibleEncoding) := by
  rw [meets_beginEdit]
  split
  · exact encoding
  · exact encoding.settled.tidy (tidies_depths _ _)

theorem RepairableEncoding.endEdit (repairable : before.RepairableEncoding) :
    (endEdit limit before).Meets (fun _ after => after.FeasibleEncoding)
      (fun _ after => after.RepairableEncoding) := by
  rw [meets_endEdit]
  split
  · exact repairable
  split
  · exact repairable
  refine repairable.resolve.imp ?_ fun _ _ => False.elim
  intro _ resolved resolves
  have closed : ({ resolved with depths := resolved.depths.tail } : Solver K).FeasibleEncoding :=
    (resolves.encoding repairable).1.tidy (tidies_depths resolved _)
  exact (closed.trimEdits _).imp (fun _ _ kept => kept) fun _ _ kept => kept.repairable

omit [IsStrictOrderedRing K] in
theorem RepairableEncoding.retargeted (repairable : before.RepairableEncoding) {info : EditInfo K}
    (registered : before.edits.get? unknown = some info) (target : K) :
    (before.retargeted unknown info target).RepairableEncoding := by
  obtain ⟨offsets, encodes⟩ := repairable.encodes
  obtain ⟨plusSlack, minusSlack, retargets⟩ := retargets_retargeted repairable.sound registered target
  exact ⟨retargeted_sound repairable.sound registered target,
    ⟨_, encodes.retarget repairable.sound registered target⟩,
    repairable.layered.retarget repairable.sound.fits.indexed plusSlack minusSlack retargets,
    repairable.flagged.shiftTarget _ _ _, repairable.satisfiable⟩

omit [IsStrictOrderedRing K] in
theorem RepairableEncoding.suggest (repairable : before.RepairableEncoding) (unknown : Variable)
    (target : K) :
    (suggest unknown target limit before).Meets (fun _ after => after.RepairableEncoding)
      (fun _ after => after.RepairableEncoding) := by
  rw [meets_suggest]
  cases registered : before.edits.get? unknown with
  | none => exact repairable
  | some info => exact repairable.retargeted registered target

end Calls

end Solver

def Call.Revises : Call K → Prop
  | newVariable _ _ | setStrength _ _ | add _ | addEdit _ _ => True
  | make demand => demand.External ∧ 0 ≤ demand.weight
  | beginEdit | suggest _ _ | resolve | endEdit => True
  | _ => False

/-- The calls that rely on the rows, or clear the queue, whatever it holds. -/
def Call.ReliesOnRows : Call K → Prop
  | add _ | addEdit _ _ | beginEdit => True
  | _ => False

namespace Session

variable {session next : Session K} {limit : Nat} {request : Call K}

/-- The sessions in which every suggestion is resolved before a call relies on the rows, unless it
has taken no row below zero. -/
def ResolvedInTime : Session K → Prop :=
  Runs fun session request _ => request.Revises ∧ (request.ReliesOnRows → session.solver.NoneBelowZero)

theorem ResolvedInTime.reachable (resolvedInTime : ResolvedInTime session) : session.Reachable :=
  resolvedInTime.mono fun _ request _ allowed => by
    cases request with
    | make demand => exact allowed.1.1
    | _ => trivial

variable [IsStrictOrderedRing K]

theorem perform_repairable (sound : session.Sound) (weighs : session.Weighs)
    (repairable : session.solver.RepairableEncoding) (revises : request.Revises)
    (noneBelowZero : request.ReliesOnRows → session.solver.NoneBelowZero) :
    (perform request limit session).Meets (fun _ next => next.Weighs ∧ next.solver.RepairableEncoding)
      (fun _ next => next.Weighs ∧ next.solver.RepairableEncoding) := by
  have silent : ∀ {action : Action K (Solver K) Unit},
      (action limit session.solver).Meets (fun _ after => after.RepairableEncoding)
        (fun _ after => after.RepairableEncoding) →
      (nothing action limit session).Meets (fun _ next => next.Weighs ∧ next.solver.RepairableEncoding)
        (fun _ next => next.Weighs ∧ next.solver.RepairableEncoding) := fun meets =>
    (meets_silent meets).imp (fun _ _ met => ⟨weighs.of_held met.2, met.1⟩)
      fun _ _ met => ⟨weighs.of_held met.2, met.1⟩
  cases request with
  | newVariable name value =>
    exact ⟨weighs, repairable.tidy ⟨rfl, rfl, rfl, rfl, rfl, Nat.le_succ _, Nat.le_refl _⟩⟩
  | make demand =>
    have made : (perform (.make demand) limit session).Meets (fun _ next => next.Weighs)
        (fun _ next => next.Weighs) := weighs.make revises.2
    exact ⟨made, repairable.tidy session.solver.tidies_withNextKey⟩
  | setStrength key strength =>
    exact (weighs.setStrength (fun _ _ => id) key strength).imp
      (fun _ _ met => ⟨met.2, met.1 ▸ repairable⟩) fun _ _ met => ⟨met.2, met.1 ▸ repairable⟩
  | add key =>
    have encoding := repairable.encoding (noneBelowZero trivial)
    refine (meets_onHeld (fun after => after.RepairableEncoding)
      (fun _ after => after.RepairableEncoding)
      (fun constraint found => ?_) fun _ => repairable).imp
        (fun _ _ met => ⟨weighs.of_held met.2, met.1⟩) fun _ _ met => ⟨weighs.of_held met.2, met.1⟩
    have agrees := (sound.held key constraint found).2
    exact (encoding.add agrees.external agrees.older).imp
      (fun _ _ kept => kept.repairable) fun _ _ kept => kept.repairable
  | addEdit unknown strength =>
    exact silent (((repairable.encoding (noneBelowZero trivial)).addEdit unknown strength).imp
      (fun _ _ kept => kept.repairable) fun _ _ kept => kept.repairable)
  | beginEdit =>
    exact silent ((repairable.encoding (noneBelowZero trivial)).beginEdit.imp
      (fun _ _ kept => kept.repairable) fun _ _ kept => kept.repairable)
  | suggest unknown target => exact silent (repairable.suggest unknown target)
  | resolve =>
    exact silent
      (repairable.resolve.imp (fun _ _ resolves => (resolves.encoding repairable).1.repairable)
      fun _ _ => False.elim)
  | endEdit =>
    exact silent (repairable.endEdit.imp (fun _ _ kept => kept.repairable) fun _ _ kept => kept)
  | _ => cases revises

theorem ResolvedInTime.repairable (resolvedInTime : ResolvedInTime session) :
    session.Sound ∧ session.Weighs ∧ session.solver.RepairableEncoding := by
  induction resolvedInTime with
  | fresh config sink =>
    have sound : (start (.withConfig config) sink).Sound := sound_fresh config sink
    have encoding : (Solver.withConfig config).FeasibleEncoding :=
      ⟨sound.solver, ⟨_, Solver.encodes_fresh config⟩, Solver.feasible_fresh config⟩
    exact ⟨sound, nofun, encoding.repairable⟩
  | @call session next request limit earlier allows returns ih =>
    have run : ResolvedInTime next := Runs.call earlier allows returns
    exact ⟨run.reachable.encodes.1, (perform_repairable ih.1 ih.2.1 ih.2.2 allows.1 allows.2).of_state?
      returns⟩

/-- No row below zero escapes the queue, and a resolution leaves none: it always succeeds, and what
is required holds of the values published. -/
theorem resolve_repairs (resolvedInTime : ResolvedInTime session) :
    session.solver.tableau.Flagged ∧ ∀ limit, (perform .resolve limit session).Meets
      (fun _ next => next.solver.NoneBelowZero ∧ next.solver.RequirementsHold next.solver.value)
      (fun _ _ => False) := by
  obtain ⟨_, _, repairable⟩ := resolvedInTime.repairable
  refine ⟨repairable.flagged, fun limit => (meets_silent repairable.resolve).imp ?_ ?_⟩
  · intro _ next met
    obtain ⟨encoding, requirements⟩ := met.1.encoding repairable
    exact ⟨encoding.noneBelowZero, requirements⟩
  · exact fun _ _ met => met.1

/-- A variable that must not exceed ten is wanted at twenty, and resolved to ten. -/
theorem resolve_repairs_capped :
    let session : Session ℚ := (start (.withConfig .standard) .log).replay 8
      [.newVariable none 0, .make (.atMost (.ofVariable ⟨1⟩) (.ofConstant 10) .required),
        .addEdit ⟨1⟩ .strong, .add 0, .beginEdit, .suggest ⟨1⟩ 20]
    ¬ session.solver.NoneBelowZero ∧ session.solver.tableau.Flagged ∧
      ((perform .resolve 8 session).state?.map (·.solver.value ⟨1⟩)) = some 10 ∧
      (perform .resolve 8 session).Meets
        (fun _ next => next.solver.NoneBelowZero ∧ next.solver.RequirementsHold next.solver.value)
        (fun _ _ => False) := by
  intro session
  have resolvedInTime : session.ResolvedInTime := by
    refine (Runs.fresh _ _).replay ⟨⟨trivial, nofun⟩,
      ⟨⟨Demand.external_upperBound ⟨1⟩ 10 .required, zero_le_one⟩, nofun⟩, ⟨trivial, fun _ => ?_⟩,
      ⟨trivial, fun _ => ?_⟩, ⟨trivial, fun _ => ?_⟩, ⟨trivial, nofun⟩, trivial⟩
    all_goals decide +kernel
  obtain ⟨flagged, resolves⟩ := resolve_repairs resolvedInTime
  exact ⟨by decide +kernel, flagged, by decide +kernel, resolves 8⟩

/-- Once another session begins over the suggestion, the row below zero is forgotten. -/
theorem resolve_forgets_capped :
    let session : Session ℚ := (start (.withConfig .standard) .log).replay 8
      [.newVariable none 0, .make (.atMost (.ofVariable ⟨1⟩) (.ofConstant 10) .required),
        .addEdit ⟨1⟩ .strong, .add 0, .beginEdit, .suggest ⟨1⟩ 20, .beginEdit]
    let next := session.replay 8 [.resolve]
    Runs (fun _ request outcome => request.Revises ∧ outcome.fault? = none) session ∧
      session.solver.config.autoSolve = true ∧ (perform .resolve 8 session).state?.isSome = true ∧
      (perform .resolve 8 session).fault? = none ∧ next.solver.value ⟨1⟩ = 20 ∧
      ¬ next.solver.NoneBelowZero ∧ ¬ next.solver.RequirementsHold next.solver.value := by
  intro session next
  refine ⟨?_, by decide +kernel, by decide +kernel, by decide +kernel, by decide +kernel,
    by decide +kernel, by decide +kernel⟩
  refine (Runs.fresh _ _).replay ⟨⟨trivial, ?_⟩,
    ⟨⟨Demand.external_upperBound ⟨1⟩ 10 .required, zero_le_one⟩, ?_⟩, ⟨trivial, ?_⟩, ⟨trivial, ?_⟩,
    ⟨trivial, ?_⟩, ⟨trivial, ?_⟩, ⟨trivial, ?_⟩, trivial⟩
  all_goals decide +kernel

end Session

end SoftSimplex
