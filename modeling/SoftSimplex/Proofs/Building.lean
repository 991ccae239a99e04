import SoftSimplex.Proofs.Feasible
import SoftSimplex.Proofs.Requirements

/-!
Feasibility of a solver. Additions keep the tableau feasible whatever their outcome, and so does a
removal whose marker is not entangled with basic dummies.
-/

namespace SoftSimplex

variable {K : Type} [Field K] [LinearOrder K]

namespace Tableau

variable {before charged after : Tableau K} {row : Expression K}

variable [IsStrictOrderedRing K]

section Placing

variable {subject : Symbol} {placed solved : Expression K} {reciprocal : K}

omit [IsStrictOrderedRing K] in
theorem not_mem_of_ready (chosen : before.readySubject? row = some subject)
    (indexed : before.Indexed) (feasible : before.Feasible) {basic : Symbol} {old : Expression K}
    (found : before.row? basic = some old) (restricted : basic.isRestricted = true) :
    subject ∉ old.symbols := by
  intro depends
  rcases readySubject_cases chosen with unrestricted | ⟨_, _, _, _, _, unused⟩
  · have enclosed := (feasible basic old found).enclosed restricted subject depends
    rw [unrestricted] at enclosed
    cases enclosed
  · have used := (indexed.agrees subject basic).mpr ⟨old, found, depends⟩
    rw [objective_of_isUnused unused used] at restricted
    cases restricted

theorem rowFeasible_of_ready (chosen : before.readySubject? row = some subject)
    (pruned : row.Pruned) (nonneg : 0 ≤ row.constant)
    (solves : row.solveFor? subject = some (reciprocal, solved)) : RowFeasible subject solved := by
  rcases readySubject_cases chosen with unrestricted | ⟨enclosed, _, member, notDummy, shrinks, _⟩
  · exact rowFeasible_of_unrestricted unrestricted _
  · refine ⟨fun _ => ?_, fun _ other inSolved => ?_, fun isDummy => ?_⟩
    · have nonzero := pruned.coefficient_ne_zero (readySubject_mem chosen)
      have reached := Expression.constant_solveFor solves nonzero
      rw [Expression.coefficient_of_mem_entries member] at reached
      exact step_forward reached nonneg shrinks
    · exact enclosed other ((Expression.mem_symbols_solveFor solves other).mp inSolved).2
    · rw [notDummy] at isDummy
      cases isDummy

theorem rowFeasible_of_dummies (dummies : ∀ symbol ∈ placed.symbols, symbol.isDummy = true)
    (zero : placed.constant = 0) (nonzero : placed.coefficient subject ≠ 0)
    (solves : placed.solveFor? subject = some (reciprocal, solved)) : RowFeasible subject solved := by
  have solvedDummies : ∀ other ∈ solved.symbols, other.isDummy = true := fun other inSolved =>
    dummies other ((Expression.mem_symbols_solveFor solves other).mp inSolved).2
  have solvedZero : solved.constant = 0 := by
    have reached := Expression.constant_solveFor solves nonzero
    rw [zero, neg_zero] at reached
    exact (mul_eq_zero.mp reached).resolve_left nonzero
  exact ⟨fun _ => solvedZero.ge, fun _ other inSolved =>
    restricted_of_dummy (solvedDummies other inSolved), fun _ => ⟨solvedZero, solvedDummies⟩⟩

theorem Chooses.feasible (chooses : before.Chooses row (.direct subject placed))
    (indexed : before.Indexed) (recosts : before.Recosts charged) (feasible : before.Feasible)
    (pruned : row.Pruned) (nonneg : 0 ≤ row.constant)
    (introduces : charged.Introduces subject placed solved after) : after.Feasible := by
  have wasRow : ∀ basic old, charged.row? basic = some old → basic.isRestricted = true →
      before.row? basic = some old := by
    intro basic old found restricted
    rw [← recosts.rows basic, found]
    rintro rfl
    cases restricted
  obtain ⟨reciprocal, solves⟩ := introduces.solves
  obtain ⟨sameSymbols, occurs⟩ := chooses.symbols
  obtain ⟨placedPruned, placedHolds⟩ := Chooses.holds_iff (fun _ => 0) chooses pruned
  cases chooses with
  | ready chosen =>
    refine (feasible.recost recosts).introduce introduces ?_
      (rowFeasible_of_ready chosen pruned nonneg solves)
    exact fun basic old found restricted =>
      not_mem_of_ready chosen indexed feasible (wasRow basic old found restricted) restricted
  | dummy _ dummies zero chosen =>
    have allDummies : ∀ symbol ∈ row.symbols, symbol.isDummy = true := List.all_eq_true.mp dummies
    rw [Expression.valueAt_zero, Expression.valueAt_zero] at placedHolds
    refine (feasible.recost recosts).introduce introduces ?_
      (rowFeasible_of_dummies (sameSymbols ▸ allDummies)
        (placedHolds.mpr (by simpa [Scalar.close] using zero))
        (placedPruned.coefficient_ne_zero (sameSymbols ▸ occurs)) solves)
    exact fun basic old found restricted =>
      not_mem_of_noColumn indexed (freshDummy_mem chosen).2 (wasRow basic old found restricted)

end Placing

omit [IsStrictOrderedRing K] in
theorem Feasible.settleStays (feasible : before.Feasible) (pairs : List (Symbol × Symbol)) :
    (pairs.foldl Solver.settleStay before).Feasible := by
  intro basic next found
  rw [(before.shifts_settleStays pairs).rows] at found
  obtain ⟨row, was, rfl⟩ := Option.map_eq_some_iff.mp found
  have rowFeasible := feasible basic row was
  refine ⟨?_, rowFeasible.enclosed, ?_⟩
  · intro pivotable
    change 0 ≤ ite _ _ _
    split
    · exact le_rfl
    · exact rowFeasible.nonneg pivotable
  · intro isDummy
    refine ⟨?_, (rowFeasible.rests isDummy).2⟩
    change ite _ _ _ = _
    split
    · rfl
    · exact (rowFeasible.rests isDummy).1

omit [IsStrictOrderedRing K] in
theorem Feasible.removeColumns (feasible : before.Feasible) (indexed : before.Indexed)
    {symbols : List Symbol} (internal : ∀ symbol ∈ symbols, symbol.isExternal = false) :
    (symbols.foldl Tableau.removeColumn before).Feasible := by
  induction symbols generalizing before with
  | nil => exact feasible
  | cons symbol rest ih =>
    exact ih (feasible.removeColumn indexed symbol)
      (indexed.removeColumn (internal symbol List.mem_cons_self))
      fun other member => internal other (List.mem_cons_of_mem symbol member)

end Tableau

namespace Solver

variable {before middle after : Solver K} {constraint : Constraint K} {entry : Installed K}
  {offsets : Nat → K} {fault : Option Fault} {given : Constraint K → Prop}
  {freed : Solver K → Constraint K → Prop}

/-! What a call does -/

section Changes

structure KeepsShown (before after : Solver K) : Prop extends before.Tidies after where
  config : after.config = before.config
  needsSolving : after.needsSolving = before.needsSolving
  values : ∀ unknown, before.containsVariable unknown = true →
    after.value unknown = before.value unknown

def Settles (before : Solver K) (fault : Option Fault) (after : Solver K) : Prop :=
  match fault with
  | none => before.Follows after
  | some fault => fault = .internal .objectiveUnbounded ∧ before.Escapes after

/-- What a call does to a solver whose constraints are put together: a constraint with a weight that
is not negative comes in, or a constraint goes that may go. -/
inductive Builds (freed : Solver K → Constraint K → Prop) (before : Solver K) :
    Option Fault → Solver K → Prop
  | idle {fault : Option Fault} {after : Solver K} (keepsShown : before.KeepsShown after) :
      Builds freed before fault after
  | install {constraint : Constraint K} {placement : Placement K} {tableau : Tableau K}
      {nextId : Nat} {middle after : Solver K} {fault : Option Fault}
      (weighs : 0 ≤ constraint.weight) (external : constraint.External)
      (older : constraint.key < before.nextKey)
      (installs : before.Installs constraint placement tableau nextId middle)
      (settles : middle.Settles fault after) : Builds freed before fault after
  | uninstall {constraint : Constraint K} {entry : Installed K} {dropped : Tableau K}
      {middle after : Solver K} {fault : Option Fault}
      (sameKind : entry.constraint.kind = constraint.kind) (isFreed : freed before constraint)
      (uninstalls : before.Uninstalls constraint entry dropped middle)
      (settles : middle.Settles fault after) : Builds freed before fault after

omit [LinearOrder K] in
theorem KeepsShown.refl (solver : Solver K) : solver.KeepsShown solver where
  tableau := rfl
  installed := rfl
  charges := rfl
  stays := rfl
  edits := rfl
  nextId := Nat.le_refl _
  nextKey := Nat.le_refl _
  config := rfl
  needsSolving := rfl
  values _ _ := rfl

omit [LinearOrder K] in
theorem keepsShown_withNextKey (solver : Solver K) : solver.KeepsShown solver.withNextKey :=
  { KeepsShown.refl solver with nextKey := solver.tidies_withNextKey.nextKey }

omit [LinearOrder K] in
theorem keepsShown_newVariable (missing : before.containsVariable ⟨before.nextId⟩ = false)
    (name : Option String) (value : K) : before.KeepsShown (before.newVariable name value).2 := by
  refine { KeepsShown.refl before with
    nextId := Nat.le_succ _
    values := fun unknown contained => ?_ }
  have different : (⟨before.nextId⟩ : Variable) ≠ unknown := by
    rintro rfl
    rw [contained] at missing
    cases missing
  change ((Table.get? (before.unknowns.insert _ _) unknown).map _).getD 0 = _
  rw [Table.get?_insert, if_neg different]
  rfl

omit [LinearOrder K] in
theorem keepsShown_nextId {nextId : Nat} (grows : before.nextId ≤ nextId) :
    before.KeepsShown { before with nextId } :=
  { KeepsShown.refl before with nextId := grows }

theorem Settles.reaches (settles : before.Settles fault after) : Reaches given before after := by
  unfold Settles at settles
  split at settles
  · exact Follows.reaches settles
  · exact settles.2.reaches

theorem Builds.reaches (builds : before.Builds freed fault after) :
    ∃ given, Reaches given before after := by
  cases builds with
  | idle keepsShown => exact ⟨fun _ => False, .single (.tidy keepsShown.toTidies)⟩
  | install _ external older installs settles =>
    exact ⟨fun _ => True, .head (.install trivial external older installs) settles.reaches⟩
  | uninstall sameKind _ uninstalls settles =>
    exact ⟨fun _ => False, .head (.uninstall sameKind uninstalls) settles.reaches⟩

theorem AddFails.builds {fault : Fault} (fails : before.AddFails constraint fault after)
    (weighs : 0 ≤ constraint.weight) (external : constraint.External)
    (older : constraint.key < before.nextKey) : before.Builds freed (some fault) after := by
  have grows := before.equationFor_nextId constraint
  cases fails with
  | objected _ => exact .idle (.refl _)
  | contradicted _ _ => exact .idle (keepsShown_nextId (Nat.le_of_lt grows))
  | refused _ _ _ => exact .idle (keepsShown_nextId (by omega))
  | unbounded installs _ escapes => exact .install weighs external older installs ⟨rfl, escapes⟩

theorem add_builds (sound : before.Sound) (weighs : 0 ≤ constraint.weight)
    (external : constraint.External) (older : constraint.key < before.nextKey) {limit : Nat} :
    (add constraint limit before).Meets (fun _ after => before.Builds freed none after)
      (fun fault after => before.Builds freed (some fault) after) := by
  refine (add_meets sound external older).imp ?_ ?_
  · rintro _ after ⟨placement, tableau, nextId, middle, installs, follows⟩
    exact .install weighs external older installs follows
  · exact fun fault after fails => fails.builds weighs external older

theorem remove_builds (sound : before.Sound) (isFreed : freed before constraint)
    (sameKind : ∀ entry, before.installed.get? constraint.key = some entry →
      entry.constraint.kind = constraint.kind) {limit : Nat} :
    (remove constraint limit before).Meets (fun _ after => before.Builds freed none after)
      (fun fault after => before.Builds freed (some fault) after) := by
  refine (remove_meets sound sameKind).imp ?_ ?_
  · rintro _ after ⟨entry, dropped, middle, uninstalls, follows⟩
    exact .uninstall (sameKind entry uninstalls.found) isFreed uninstalls follows
  · intro fault after fails
    cases fails with
    | missing _ => exact .idle (.refl _)
    | unbounded uninstalls _ escapes =>
      exact .uninstall (sameKind _ uninstalls.found) isFreed uninstalls ⟨rfl, escapes⟩

end Changes

/-! Feasibility -/

section Feasibility

variable [IsStrictOrderedRing K]

omit [IsStrictOrderedRing K] in
theorem feasible_fresh (config : Config K) : (withConfig config).tableau.Feasible := by
  intro basic row found
  obtain ⟨rfl, _⟩ := row_fresh found
  exact Tableau.rowFeasible_of_unrestricted rfl row

theorem spread_proper {solver : Solver K} {valueOf : Variable → K} (sound : solver.Sound)
    (unmoved : ∀ key entry, solver.installed.get? key = some entry →
      entry.constraint.isRequired = true → offsets key = 0)
    (requirements : solver.RequirementsHold valueOf) :
    Tableau.Proper (solver.spread offsets valueOf) := by
  have extending := spread_extends sound unmoved requirements
  refine ⟨fun symbol pivotable => spread_nonneg sound extending pivotable, ?_⟩
  intro symbol isDummy
  exact extending.dummies symbol (by
    cases kind : symbol.kind <;> simp [Symbol.isDummy, kind, SymbolKind.isDummy] at isDummy ⊢)

theorem Installs.feasible {placement : Placement K} {tableau : Tableau K} {nextId : Nat}
    (installs : before.Installs constraint placement tableau nextId after) (sound : before.Sound)
    (external : constraint.External) (pruned : before.tableau.Pruned)
    (feasible : before.tableau.Feasible) : tableau.Feasible := by
  have chooses := Tableau.chooses_of_choosePlacement installs.chosen
  have recosts := Tableau.recosts_chargeObjective (before.equationFor constraint).charge
    before.tableau
  have rowPruned := before.equationFor_pruned constraint
  have nonneg := before.tableau.equationOf_constant_nonneg before.nextId constraint.toDemand
  cases installs.places with
  | direct introduces =>
    exact chooses.feasible sound.fits.indexed recosts feasible rowPruned nonneg introduces
  | artificial passes =>
    cases chooses with
    | artificial notReady _ =>
      have entry := charged_entry sound.fits external
      exact entry.feasible_of_passes (charged_pruned pruned constraint) rowPruned
        (feasible.recost recosts) nonneg (Tableau.enclosed_of_not_ready notReady) passes

theorem Uninstalls.feasible {dropped : Tableau K}
    (uninstalls : before.Uninstalls constraint entry dropped after) (sound : before.Sound)
    (sameKind : entry.constraint.kind = constraint.kind) (encodes : before.Encodes offsets)
    (feasible : before.tableau.Feasible)
    (unentangled : (before.withdraw constraint).tableau.Unentangled entry.marker) :
    after.tableau.Feasible := by
  obtain ⟨_, settled, _⟩ := encodes.settleStays sound
  obtain ⟨recosts, fits⟩ := withdraw_tableau sound uninstalls.found
  have withdrawnFeasible := (feasible.settleStays before.stays).recost recosts
  have droppedFeasible := (withdrawnFeasible.drop_iff fits.indexed
    (withdraw_pruned settled.pruned constraint) uninstalls.drops).mpr unentangled
  obtain ⟨errors, result, named, _⟩ := uninstalls.tableau_after sound sameKind
  rw [result]
  refine droppedFeasible.removeColumns (uninstalls.dropped_fits sound).indexed ?_
  intro symbol member
  rw [(named symbol member).2]
  rfl

theorem Publishes.feasible (publishes : before.Publishes after) (sound : before.Sound)
    (pruned : before.tableau.Pruned) (feasible : before.tableau.Feasible) :
    after.tableau.Feasible := by
  obtain ⟨least, tableau, minimized, rfl⟩ := publishes
  rw [(tidies_publishValues _).tableau]
  exact Tableau.feasible_of_improvements minimized.improved sound.fits.indexed pruned feasible

theorem Settles.feasible (settles : before.Settles fault after) (sound : before.Sound)
    (pruned : before.tableau.Pruned) (feasible : before.tableau.Feasible) :
    after.tableau.Feasible := by
  unfold Settles at settles
  split at settles
  · unfold Follows at settles
    split at settles
    · exact settles.feasible sound pruned feasible
    · rw [settles]
      exact feasible
  · obtain ⟨_, tableau, unbounded, rfl⟩ := settles
    exact Tableau.feasible_of_improvements unbounded.1 sound.fits.indexed pruned feasible

theorem Builds.feasible (builds : before.Builds freed fault after) (sound : before.Sound)
    (encodes : before.Encodes offsets) (feasible : before.tableau.Feasible)
    (unentangled : ∀ constraint entry, freed before constraint →
      before.installed.get? constraint.key = some entry →
      (before.withdraw constraint).tableau.Unentangled entry.marker) :
    after.tableau.Feasible := by
  cases builds with
  | idle keepsShown =>
    rw [keepsShown.tableau]
    exact feasible
  | install _ external older installs settles =>
    have next := encodes.install sound external installs
    refine settles.feasible (installs.sound sound external older) next.pruned ?_
    rw [installs.tableau_eq]
    exact installs.feasible sound external encodes.pruned feasible
  | uninstall sameKind isFreed uninstalls settles =>
    obtain ⟨_, _, next⟩ := encodes.uninstall uninstalls sound sameKind
    refine settles.feasible (uninstalls.sound sound sameKind) next.pruned ?_
    exact uninstalls.feasible sound sameKind encodes feasible
      (unentangled _ _ isFreed uninstalls.found)

end Feasibility

end Solver

end SoftSimplex
