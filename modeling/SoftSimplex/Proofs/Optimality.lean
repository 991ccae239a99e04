import SoftSimplex.Proofs.Assembly
import SoftSimplex.Proofs.Costs

/-!
Optimality of the published values. As long as constraints are only added, the objective counts all
their errors, and minimizing it finds the least penalty that what is required allows.
-/

namespace SoftSimplex

variable {K : Type} [Field K] [LinearOrder K]

namespace Solver

variable {solver before after : Solver K} {constraint : Constraint K} {fault : Option Fault}

/-- The values meet what is required, and no others that do have a lower penalty. -/
def Optimal (solver : Solver K) : Prop :=
  solver.RequirementsHold solver.value ∧
    ∀ valueOf, solver.RequirementsHold valueOf → solver.penalty solver.value ≤ solver.penalty valueOf

/-- Nothing is left to improve, and the values are published. -/
structure Settled (solver : Solver K) : Prop where
  published : solver.Published
  least : ∃ costs, solver.tableau.row? .mainObjective = some costs ∧
    Tableau.enteringSymbol? costs = none

/-- The rows are feasible and say what the constraints say, the objective what they cost. -/
structure Accounts (solver : Solver K) : Prop where
  encodes : solver.Encodes fun _ => 0
  feasible : solver.tableau.Feasible
  prices : solver.Prices
  weighs : ∀ key entry, solver.installed.get? key = some entry → 0 ≤ entry.constraint.weight

theorem accounts_fresh (config : Config K) : (withConfig config).Accounts :=
  ⟨encodes_fresh config, feasible_fresh config, prices_fresh config, nofun⟩

theorem settled_fresh (config : Config K) : (withConfig config).Settled := by
  refine ⟨?_, .ofConstant 0, rfl, rfl⟩
  intro unknown contained
  cases isBasic : (withConfig config).tableau.isBasic unknown.symbol with
  | false =>
    unfold containsVariable at contained
    rw [isBasic, Bool.or_false] at contained
    cases contained
  | true =>
    obtain ⟨row, found⟩ := (Tableau.isBasic_iff _ _).mp isBasic
    have kind := congrArg Symbol.kind (row_fresh found).1
    cases kind

theorem Settled.dual (settled : solver.Settled) : solver.tableau.DualFeasible .mainObjective := by
  obtain ⟨_, costs, found, least⟩ := settled
  intro other isRow
  rw [found] at isRow
  cases isRow
  exact Tableau.settled_nonneg least

section Surplus

variable {surplus : K} (prices : solver.PricesUpTo surplus) (sound : solver.Sound)

include prices sound

theorem PricesUpTo.enclosed (pruned : solver.tableau.Pruned) (layered : solver.tableau.Layered)
    {costs : Expression K} (found : solver.tableau.row? .mainObjective = some costs) :
    ∀ symbol ∈ costs.symbols, symbol.isRestricted = true := by
  refine layered.enclosed_of_determined sound.fits.indexed (pruned _ costs found) found ?_
  intro left right leftSolves rightSolves same
  rw [prices costs left found leftSolves, prices costs right found rightSolves]
  refine congrArg (· + surplus) (Table.total_congr fun item member => ?_)
  have listed := (solver.installed.mem_entries_iff item.1 item.2).mp member
  refine Installed.errorCost_congr fun symbol named => same symbol ?_
  rcases (sound.books.entries item.1 item.2 listed).symbol_kind named with kind | kind <;>
    simp [Symbol.isRestricted, kind, SymbolKind.isRestricted]

theorem PricesUpTo.optimal [IsStrictOrderedRing K] (encodes : solver.Encodes fun _ => 0)
    (feasible : solver.tableau.Feasible)
    (weighs : ∀ key entry, solver.installed.get? key = some entry →
      entry.constraint.isRequired = false → 0 ≤ entry.constraint.weight)
    (published : solver.Published) (dual : solver.tableau.DualFeasible .mainObjective) :
    solver.Optimal := by
  have indexed := sound.fits.indexed
  have extending := published.extends indexed feasible
  have solves : solver.tableau.Solves solver.publishedSolution :=
    Tableau.solves_completed indexed _
  have balanced := (encodes.solves _).mp solves
  obtain ⟨costs, found⟩ := (Tableau.isBasic_iff _ _).mp sound.fits.objective
  refine ⟨requirementsHold_of_extends sound encodes.required extending balanced, ?_⟩
  intro valueOf requirements
  have proper := spread_proper sound encodes.required requirements
  have spreadSolves := (encodes.solves _).mpr (balanced_spread sound _ valueOf)
  have least : costs.constant ≤ costs.valueAt (solver.spread (fun _ => 0) valueOf) :=
    Tableau.constant_le_valueAt _ (dual costs found)
      (prices.enclosed sound encodes.pruned feasible.layered found)
      (fun symbol _ => proper.nonneg symbol) proper.dummies
  rw [← published.row_value indexed found, prices costs _ found solves,
    prices costs _ found spreadSolves] at least
  calc solver.penalty solver.value
      ≤ solver.errorCost solver.publishedSolution :=
        penalty_le_errorCost sound weighs extending balanced
    _ ≤ solver.errorCost (solver.spread (fun _ => 0) valueOf) := le_of_add_le_add_right least
    _ = solver.penalty valueOf := errorCost_spread sound valueOf

end Surplus

variable [IsStrictOrderedRing K]

theorem Accounts.optimal (accounts : solver.Accounts) (sound : solver.Sound)
    (settled : solver.Settled) : solver.Optimal :=
  (prices_iff.mp accounts.prices).optimal sound accounts.encodes accounts.feasible
    (fun key entry found _ => accounts.weighs key entry found) settled.published settled.dual

/-! Publishing -/

section Publishing

omit [IsStrictOrderedRing K] in
theorem Publishes.installed (publishes : before.Publishes after) :
    after.installed = before.installed := by
  obtain ⟨_, tableau, _, rfl⟩ := publishes
  exact (tidies_publishValues (before.setTableau tableau)).installed

variable (publishes : before.Publishes after) (sound : before.Sound)

include publishes sound

omit [IsStrictOrderedRing K] in
theorem Publishes.settled : after.Settled := by
  obtain ⟨least, tableau, minimized, rfl⟩ := publishes
  have indexed := Tableau.indexed_of_improvements minimized.improved sound.fits.indexed
  refine ⟨published_publishValues indexed, least, ?_, minimized.settled⟩
  rw [(tidies_publishValues (before.setTableau tableau)).tableau]
  exact minimized.row

omit [IsStrictOrderedRing K] in
theorem Publishes.encodes {offsets : Nat → K} (encodes : before.Encodes offsets) :
    after.Encodes offsets := by
  obtain ⟨least, tableau, minimized, rfl⟩ := publishes
  have restates := Tableau.restates_of_improvements minimized.improved sound.fits.indexed
    encodes.pruned
  have tidies := tidies_publishValues (before.setTableau tableau)
  have reached : (before.setTableau tableau).Encodes offsets :=
    ⟨restates.pruned, encodes.required, fun assignment =>
      (restates.solves assignment).trans (encodes.solves assignment)⟩
  exact reached.of_same (congrArg Tableau.rows tidies.tableau) tidies.installed

omit [IsStrictOrderedRing K] in
theorem Publishes.prices {surplus : K} (pruned : before.tableau.Pruned)
    (prices : before.PricesUpTo surplus) : after.PricesUpTo surplus := by
  obtain ⟨least, tableau, minimized, rfl⟩ := publishes
  have restates := Tableau.restates_of_improvements minimized.improved sound.fits.indexed pruned
  have tidies := tidies_publishValues (before.setTableau tableau)
  exact (prices.restate restates).of_same (congrArg Tableau.rows tidies.tableau) tidies.installed

end Publishing

theorem Accounts.publish (accounts : before.Accounts) (sound : before.Sound)
    (publishes : before.Publishes after) : after.Accounts ∧ after.Settled := by
  refine ⟨⟨publishes.encodes sound accounts.encodes,
    publishes.feasible sound accounts.encodes.pruned accounts.feasible,
    prices_iff.mpr (publishes.prices sound accounts.encodes.pruned (prices_iff.mp accounts.prices)),
    ?_⟩, publishes.settled sound⟩
  rw [publishes.installed]
  exact accounts.weighs

theorem Accounts.install {placement : Placement K} {tableau : Tableau K} {nextId : Nat}
    (accounts : before.Accounts) (sound : before.Sound) (external : constraint.External)
    (weighs : 0 ≤ constraint.weight)
    (installs : before.Installs constraint placement tableau nextId after) : after.Accounts := by
  have encodes := accounts.encodes.install sound external installs
  rw [Function.update_eq_self] at encodes
  refine ⟨encodes, ?_, accounts.prices.install sound external accounts.encodes.pruned installs, ?_⟩
  · rw [installs.tableau_eq]
    exact installs.feasible sound external accounts.encodes.pruned accounts.feasible
  · intro key entry found
    rw [installs.get?_installed] at found
    split at found
    · cases found
      exact weighs
    · exact accounts.weighs key entry found

omit [IsStrictOrderedRing K] in
theorem Settled.idle (settled : before.Settled) (keepsShown : before.KeepsShown after) :
    after.Settled := by
  obtain ⟨published, costs, found, least⟩ := settled
  exact ⟨published.idle keepsShown, costs, by rwa [keepsShown.tableau], least⟩

theorem Accounts.builds (accounts : before.Accounts) (sound : before.Sound)
    (settled : before.config.autoSolve = true ∨ before.needsSolving = false → before.Settled)
    (builds : Builds (fun _ _ => False) before fault after)
    (regular : ∀ cause, fault = some cause → cause.isInternal = false) :
    after.Accounts ∧
      (after.config.autoSolve = true ∨ after.needsSolving = false → after.Settled) := by
  cases builds with
  | idle keepsShown =>
    refine ⟨⟨accounts.encodes.of_same (by rw [keepsShown.tableau]) keepsShown.installed, ?_,
      accounts.prices.of_same (congrArg Tableau.rows keepsShown.tableau) keepsShown.installed, ?_⟩, ?_⟩
    · rw [keepsShown.tableau]
      exact accounts.feasible
    · rw [keepsShown.installed]
      exact accounts.weighs
    · rw [keepsShown.config, keepsShown.needsSolving]
      exact fun waits => (settled waits).idle keepsShown
  | @install constraint placement tableau nextId middle _ _ weighs external older installs settles =>
    have next := accounts.install sound external weighs installs
    have middleSound := installs.sound sound external older
    unfold Settles at settles
    split at settles
    · unfold Follows at settles
      split at settles
      · have published := next.publish middleSound settles
        exact ⟨published.1, fun _ => published.2⟩
      · rename_i batched
        rw [settles]
        refine ⟨next, fun rests => ?_⟩
        have waits : middle.needsSolving = true := by
          rw [installs.result]
          exact needsSolving_record ..
        rw [waits] at rests
        rcases rests with autoSolve | none
        · exact absurd autoSolve batched
        · cases none
    · rename_i cause
      have external := regular cause rfl
      rw [settles.1] at external
      cases external
  | uninstall _ isFreed _ _ => exact isFreed.elim

end Solver

namespace Session

variable [IsStrictOrderedRing K] {session : Session K}

/-- Additions that met no defect leave the books of the objective right, and settled unless they
wait to be. -/
theorem Assembled.accounts
    (assembled : Assembled (fun _ _ => False) (fun fault => fault.isInternal = false) session) :
    session.Sound ∧ session.solver.Accounts ∧
      (session.solver.config.autoSolve = true ∨ session.solver.needsSolving = false →
        session.solver.Settled) := by
  obtain ⟨sound, _, accounts, settled⟩ := assembled.keeps
    (fun solver => solver.Accounts ∧
      (solver.config.autoSolve = true ∨ solver.needsSolving = false → solver.Settled))
    (fun config => ⟨Solver.accounts_fresh config, fun _ => Solver.settled_fresh config⟩)
    fun fault before after sound held builds regular =>
      held.1.builds sound held.2 builds regular
  exact ⟨sound, accounts, settled⟩

/-- After additions none of which met a defect the values are optimal, at once or when they are
asked for. -/
theorem optimal_of_assembled
    (assembled : Assembled (fun _ _ => False) (fun fault => fault.isInternal = false) session) :
    (session.solver.config.autoSolve = true → session.solver.Optimal) ∧
      ∀ limit, (perform .solve limit session).Meets (fun _ next => next.solver.Optimal)
        (fun fault _ => fault.isInternal = true) := by
  obtain ⟨sound, accounts, settled⟩ := assembled.accounts
  refine ⟨fun autoSolve => accounts.optimal sound.solver (settled (Or.inl autoSolve)), ?_⟩
  intro limit
  unfold perform nothing
  dsimp only
  rw [Action.meets_bind]
  refine (meets_onSolver (Solver.solve_meets sound.solver.fits)).imp ?_ ?_
  · rintro _ next ⟨solved, _⟩
    split at solved
    · have published := accounts.publish sound.solver solved
      have reaches : Solver.Reaches (fun _ => False) session.solver next.solver :=
        Solver.Publishes.reaches solved
      exact published.1.optimal (reaches.sound sound.solver) published.2
    · rename_i rests
      change next.solver.Optimal
      rw [solved]
      exact accounts.optimal sound.solver (settled (Or.inr (by simpa using rests)))
  · rintro fault next ⟨⟨rfl, _⟩, _⟩
    rfl

/-- A variable that is wanted at zero comes as near to it as its lower bound lets it. -/
theorem optimal_of_assembled_bounded :
    let session : Session ℚ := (start (.withConfig .standard) .log).replay 8
      [.newVariable none 4, .make (.atLeast (.ofVariable ⟨1⟩) (.ofConstant 1) .required), .add 0,
        .make (.equal (.ofVariable ⟨1⟩) (.ofConstant 0) .weak), .add 1]
    session.solver.config.autoSolve = true ∧ session.solver.value ⟨1⟩ = 1 ∧
      session.solver.constraintCount = 2 ∧ session.solver.Optimal := by
  intro session
  have assembled : session.Assembled (fun _ _ => False) (fun fault => fault.isInternal = false) := by
    refine (Runs.fresh _ _).replay ⟨⟨rfl, ?_⟩,
      ⟨⟨Demand.external_lowerBound ⟨1⟩ 1 .required, zero_le_one⟩, ?_⟩, ⟨trivial, ?_⟩,
      ⟨⟨Demand.external_lowerBound ⟨1⟩ 0 .weak, zero_le_one⟩, ?_⟩, ⟨trivial, ?_⟩, trivial⟩
    all_goals
      change ∀ fault ∈ Outcome.fault? _, Fault.isInternal fault = false
      decide +kernel
  have autoSolve : session.solver.config.autoSolve = true := by decide +kernel
  exact ⟨autoSolve, by decide +kernel, by decide +kernel,
    (optimal_of_assembled assembled).1 autoSolve⟩

end Session

end SoftSimplex
