import SoftSimplex.Proofs.Assembly
import SoftSimplex.Proofs.Publication

/-!
What is required after a removal. Taking out the marker of an equality can leave the dummy of
another one in the basis at a value other than zero, and then the published values miss the other.
They meet all that is required exactly if no marker stands where it should not, and always do as
long as no removal is entangled with a basic dummy.
-/

namespace SoftSimplex

variable {K : Type} [Field K] [LinearOrder K]

namespace Solver

variable {solver before after : Solver K} {constraint : Constraint K} {offsets : Nat → K}

/-- The basic markers of what is required are where they should be: not below zero for an
inequality, at zero for an equality. -/
def MarkersHold (solver : Solver K) : Prop :=
  ∀ key entry row, solver.installed.get? key = some entry → entry.constraint.isRequired = true →
    solver.tableau.row? entry.marker = some row →
    if entry.constraint.isInequality then 0 ≤ row.constant else row.constant = 0

/-- Removing a constraint moves no basic dummy. -/
def Unentangles (solver : Solver K) (constraint : Constraint K) : Prop :=
  ∀ entry, solver.installed.get? constraint.key = some entry →
    (solver.withdraw constraint).tableau.Unentangled entry.marker

instance (tableau : Tableau K) (marker : Symbol) : Decidable (tableau.Unentangled marker) :=
  decidable_of_iff ((∀ item ∈ tableau.rows.entries, item.1.isDummy = true →
      marker ∉ item.2.symbols) ∨ (tableau.exitFor? marker).any (·.isDummy) = true) <| by
    refine or_congr ⟨fun apart basic row found => ?_, fun apart item member => ?_⟩ ?_
    · exact apart (basic, row) ((tableau.rows.mem_entries_iff basic row).mpr found)
    · exact apart item.1 item.2 ((tableau.rows.mem_entries_iff item.1 item.2).mp member)
    · exact Option.any_eq_true ..

instance (solver : Solver K) (constraint : Constraint K) :
    Decidable (solver.Unentangles constraint) :=
  inferInstanceAs (Decidable (∀ entry ∈ solver.installed.get? constraint.key,
    (solver.withdraw constraint).tableau.Unentangled entry.marker))

theorem Follows.published (follows : before.Follows after) (sound : before.Sound)
    (autoSolve : after.config.autoSolve = true) : after.Published := by
  unfold Follows at follows
  split at follows
  · obtain ⟨least, tableau, minimized, rfl⟩ := follows
    exact published_publishValues
      (Tableau.indexed_of_improvements minimized.improved sound.fits.indexed)
  · rename_i batched
    rw [follows] at autoSolve
    exact absurd autoSolve batched

variable [IsStrictOrderedRing K]

theorem Published.requirementsHold_iff (published : solver.Published) (sound : solver.Sound)
    (encodes : solver.Encodes offsets) :
    solver.RequirementsHold solver.value ↔ solver.MarkersHold := by
  have indexed := sound.fits.indexed
  have solves : solver.tableau.Solves solver.publishedSolution :=
    Tableau.solves_completed indexed _
  have balanced := (encodes.solves _).mp solves
  have satisfied : ∀ key entry, solver.installed.get? key = some entry →
      entry.constraint.isRequired = true → (entry.constraint.isSatisfied solver.value 0 = true ↔
        if entry.constraint.isInequality then 0 ≤ solver.tableau.basicSolution entry.marker
        else solver.tableau.basicSolution entry.marker = 0) := by
    intro key entry found required
    have enters := sound.books.entries key entry found
    have holds := balanced key entry found
    have isInternal := (enters.symbol_known entry.marker_mem_symbols).2.1
    rw [encodes.required key entry found required, add_zero, Installed.balance, required, if_pos rfl,
      published.solution_internal indexed isInternal,
      ← Expression.evaluate_eq_valueAt enters.external (published.solution_variable indexed)] at holds
    rw [Demand.isSatisfied_iff, holds]
    split
    · rfl
    · exact neg_eq_zero
  constructor
  · intro requirements key entry row found required isRow
    have place := (satisfied key entry found required).mp (requirements key entry found required)
    rwa [Tableau.basicSolution_of_row isRow] at place
  · intro markers key entry found required
    refine (satisfied key entry found required).mpr ?_
    cases isBasic : solver.tableau.isBasic entry.marker with
    | true =>
      obtain ⟨row, isRow⟩ := (solver.tableau.isBasic_iff _).mp isBasic
      rw [Tableau.basicSolution_of_row isRow]
      exact markers key entry row found required isRow
    | false =>
      rw [Tableau.basicSolution_of_not_basic isBasic]
      split
      · exact le_rfl
      · rfl

end Solver

namespace Session

variable {session next : Session K} {request : Call K} {limit key : Nat}

theorem published_of_change (sound : session.Sound)
    (changes : request = .add key ∨ request = .remove key)
    (returned : (perform request limit session).state? = some next)
    (succeeded : (perform request limit session).fault? = none)
    (autoSolve : next.solver.config.autoSolve = true) : next.solver.Published := by
  have met : (perform request limit session).Meets
      (fun _ next => next.solver.config.autoSolve = true → next.solver.Published)
      (fun _ _ => True) := by
    rcases changes with rfl | rfl
    · refine (meets_onHeld (fun solver => solver.config.autoSolve = true → solver.Published)
        (fun _ _ => True) (fun constraint held => ?_) fun _ => trivial).imp
        (fun _ _ met => met.1) fun _ _ _ => trivial
      have agrees := (sound.held key constraint held).2
      refine (Solver.add_meets sound.solver agrees.external agrees.older).imp ?_ fun _ _ _ => trivial
      rintro _ reached ⟨_, _, _, _, installs, follows⟩
      exact follows.published (installs.sound sound.solver agrees.external agrees.older)
    · refine (meets_onHeld (fun solver => solver.config.autoSolve = true → solver.Published)
        (fun _ _ => True) (fun constraint held => ?_) fun _ => trivial).imp
        (fun _ _ met => met.1) fun _ _ _ => trivial
      have sameKind := (sound.held key constraint held).2.sameKind
      refine (Solver.remove_meets sound.solver sameKind).imp ?_ fun _ _ _ => trivial
      rintro _ reached ⟨entry, _, _, uninstalls, follows⟩
      exact follows.published (uninstalls.sound sound.solver (sameKind entry uninstalls.found))
  revert met returned succeeded
  cases perform request limit session with
  | done reply reached events =>
    rintro ⟨⟩ _ published
    exact published autoSolve
  | failed fault reached events => exact nofun
  | unfinished => exact nofun

variable [IsStrictOrderedRing K]

/-- After a change that succeeds the published values meet what is required exactly if the markers
are in place, as they are when no removal was entangled. -/
theorem requirementsHold_iff_markersHold (reachable : session.Reachable)
    (changes : request = .add key ∨ request = .remove key)
    (returned : (perform request limit session).state? = some next)
    (succeeded : (perform request limit session).fault? = none)
    (autoSolve : next.solver.config.autoSolve = true) :
    (next.solver.RequirementsHold next.solver.value ↔ next.solver.MarkersHold) ∧
      (next.Assembled Solver.Unentangles (fun _ => True) →
        next.solver.RequirementsHold next.solver.value) := by
  have nextReachable : next.Reachable := by
    refine .call reachable ?_ returned
    rcases changes with rfl | rfl <;> trivial
  have published := published_of_change reachable.encodes.1 changes returned succeeded autoSolve
  obtain ⟨sound, offsets, encodes⟩ := nextReachable.encodes
  refine ⟨published.requirementsHold_iff sound.solver encodes, fun assembled => ?_⟩
  have feasible := (assembled.feasible fun _ _ _ unentangles found => unentangles _ found).2
  have extending := published.extends sound.solver.fits.indexed feasible
  have solves : next.solver.tableau.Solves next.solver.publishedSolution :=
    Tableau.solves_completed sound.solver.fits.indexed _
  exact Solver.requirementsHold_of_extends sound.solver encodes.required extending
    ((encodes.solves _).mp solves)

/-- A redundant equality may go: its dummy is basic. -/
theorem requirementsHold_iff_markersHold_redundant :
    let earlier : Session ℚ := (start (.withConfig .standard) .log).replay 8
      [.newVariable none 0, .make (.equal (.ofVariable ⟨1⟩) (.ofConstant 10) .required),
        .make (.equal (.ofTerm ⟨1⟩ 2) (.ofConstant 20) .required), .add 0, .add 1]
    let session := earlier.replay 8 [.remove 1]
    session.solver.constraintCount = 1 ∧ session.solver.value ⟨1⟩ = 10 ∧
      session.solver.RequirementsHold session.solver.value ∧ session.solver.MarkersHold := by
  intro earlier session
  have assembled : earlier.Assembled Solver.Unentangles (fun _ => True) :=
    (Runs.fresh _ _).replay ⟨⟨rfl, fun _ _ => trivial⟩,
      ⟨⟨Demand.external_lowerBound ⟨1⟩ 10 .required, zero_le_one⟩, fun _ _ => trivial⟩,
      ⟨⟨by decide +kernel, zero_le_one⟩, fun _ _ => trivial⟩, ⟨trivial, fun _ _ => trivial⟩,
      ⟨trivial, fun _ _ => trivial⟩, trivial⟩
  have freed : ∀ constraint ∈ earlier.held.get? 1, earlier.solver.Unentangles constraint := by
    decide +kernel
  have returned : (perform (.remove 1) 8 earlier).state? = some session := by
    have isSome : (perform (.remove 1) 8 earlier).state?.isSome = true := by decide +kernel
    obtain ⟨next, found⟩ := Option.isSome_iff_exists.mp isSome
    rw [found]
    exact congrArg some (Option.getD_eq_iff.mpr (Or.inl found)).symm
  have both := requirementsHold_iff_markersHold assembled.reachable (Or.inr rfl) returned
    (by decide +kernel) (by decide +kernel)
  have holds := both.2 (.call assembled
    ⟨show (Call.remove 1).Assembles _ earlier from freed, fun _ _ => trivial⟩ returned)
  exact ⟨by decide +kernel, by decide +kernel, holds, both.1.mp holds⟩

/-- Once the first of two equalities for the same value has been removed, a lower bound pulls the
variable away from the second. -/
theorem remove_entangled_misses :
    let session : Session ℚ := (start (.withConfig .standard) .log).replay 8
      [.newVariable none 0, .make (.equal (.ofVariable ⟨1⟩) (.ofConstant 10) .required),
        .make (.equal (.ofTerm ⟨1⟩ 2) (.ofConstant 20) .required),
        .make (.atLeast (.ofVariable ⟨1⟩) (.ofConstant 5) .required),
        .add 0, .add 1, .add 2, .remove 0]
    session.Assembled (fun _ _ => True) (fun _ => False) ∧
      session.solver.config.autoSolve = true ∧ session.solver.value ⟨1⟩ = 5 ∧
      ¬ session.solver.RequirementsHold session.solver.value := by
  intro session
  refine ⟨?_, by decide +kernel, by decide +kernel, by decide +kernel⟩
  refine (Runs.fresh _ _).replay ⟨⟨rfl, ?_⟩,
    ⟨⟨Demand.external_lowerBound ⟨1⟩ 10 .required, zero_le_one⟩, ?_⟩,
    ⟨⟨by decide +kernel, zero_le_one⟩, ?_⟩,
    ⟨⟨Demand.external_lowerBound ⟨1⟩ 5 .required, zero_le_one⟩, ?_⟩, ⟨trivial, ?_⟩,
    ⟨trivial, ?_⟩, ⟨trivial, ?_⟩, ⟨fun _ _ => trivial, ?_⟩, trivial⟩
  all_goals
    change ∀ fault ∈ Outcome.fault? _, False
    decide +kernel

end Session

end SoftSimplex
