import SoftSimplex.Proofs.Costs
import SoftSimplex.Proofs.Refusal

/-!
The objective row in every reachable state. It is set when a constraint comes in, rewritten by every
pivot and reduced when a constraint goes, and always says what the error symbols cost: up to a
constant the objective is worth that on every solution, so its coefficients are the recorded ones,
each carried to the symbols in which its error symbol is expressed. Where no weight is negative,
some error symbol then bounds whatever a pivot wants to raise.
-/

namespace SoftSimplex

variable {K : Type} [Field K] [LinearOrder K]

namespace Tableau

variable {tableau : Tableau K} {assignment : Symbol → K} {costs : Expression K}

theorem objective_refunded {symbols : List Symbol} (coefficient : K)
    (found : tableau.row? .mainObjective = some costs) (solves : tableau.Solves assignment)
    (areErrors : ∀ symbol ∈ symbols, symbol.kind ≠ .objective) :
    ∃ next, (symbols.foldl (refundError coefficient) tableau).row? .mainObjective = some next ∧
      next.valueAt assignment =
        costs.valueAt assignment - coefficient * (symbols.map assignment).sum := by
  induction symbols generalizing tableau costs with
  | nil => exact ⟨costs, found, by simp⟩
  | cons symbol rest ih =>
    obtain ⟨next, stepped, worth⟩ : ∃ next,
        (tableau.refundError coefficient symbol).row? .mainObjective = some next ∧
        next.valueAt assignment = costs.valueAt assignment - coefficient * assignment symbol := by
      unfold refundError
      cases isRow : tableau.row? symbol with
      | some row =>
        refine ⟨costs.addScaled row (-coefficient), ?_, ?_⟩
        · rw [row?_addScaledToRow, if_pos rfl, found]
          rfl
        · rw [Expression.valueAt_addScaled,
            ← solves symbol row isRow (areErrors symbol List.mem_cons_self)]
          ring
      | none =>
        refine ⟨(costs.addTerm symbol (-coefficient)).1, ?_, ?_⟩
        · rw [row?_addTermToRow, if_pos rfl, found]
          rfl
        · rw [Expression.valueAt_addTerm]
          ring
    obtain ⟨last, reached, rest⟩ := ih stepped
      (((tableau.recosts_refundError coefficient symbol).solves assignment).mpr solves)
      fun other member => areErrors other (List.mem_cons_of_mem symbol member)
    refine ⟨last, reached, ?_⟩
    rw [rest, worth, List.map_cons, List.sum_cons]
    ring

omit [LinearOrder K] in
theorem objective_removeColumns {objective : Symbol} {worth : (Symbol → K) → K}
    {holds : (Symbol → K) → Prop} {symbols : List Symbol} (indexed : tableau.Indexed)
    (internal : ∀ symbol ∈ symbols, symbol.isExternal = false)
    (indifferent : ∀ symbol ∈ symbols, ∀ assignment, holds assignment →
      holds (Function.update assignment symbol 0) ∧
        worth (Function.update assignment symbol 0) = worth assignment)
    (start : ∀ costs assignment, tableau.row? objective = some costs → holds assignment →
      costs.valueAt assignment = worth assignment) :
    ∀ costs assignment, (symbols.foldl removeColumn tableau).row? objective = some costs →
      holds assignment → costs.valueAt assignment = worth assignment := by
  induction symbols generalizing tableau with
  | nil => exact start
  | cons symbol rest ih =>
    refine ih (indexed.removeColumn (internal symbol List.mem_cons_self))
      (fun other member => internal other (List.mem_cons_of_mem symbol member))
      (fun other member => indifferent other (List.mem_cons_of_mem symbol member)) ?_
    intro next assignment found held
    rw [row?_removeColumn indexed] at found
    obtain ⟨row, was, rfl⟩ := Option.map_eq_some_iff.mp found
    obtain ⟨stillHeld, same⟩ := indifferent symbol List.mem_cons_self assignment held
    rw [valueAt_removeTerm_zero, start row _ was stillHeld, same]

end Tableau

namespace Solver

variable {before after : Solver K} {constraint : Constraint K} {entry : Installed K}
  {dropped : Tableau K} {offsets : Nat → K} {surplus : K} {assignment : Symbol → K}
  {given : Constraint K → Prop}

/-! Moves -/

section Moving

theorem PricesUpTo.settleStays {pairs : List (Symbol × Symbol)}
    (prices : before.PricesUpTo surplus) (sound : before.Sound)
    (areStays : ∀ pair ∈ pairs, pair ∈ before.stays) :
    ∃ later, (before.setTableau (pairs.foldl settleStay before.tableau)).PricesUpTo later := by
  induction pairs generalizing before surplus with
  | nil => exact ⟨surplus, prices⟩
  | cons pair rest ih =>
    have isStay := areStays pair List.mem_cons_self
    obtain ⟨amount, translates⟩ := Tableau.translates_settleStay sound.fits.indexed pair (by
      rw [stayRow_slack sound isStay]
      nofun)
    have settledSound : (before.setTableau (settleStay before.tableau pair)).Sound :=
      ⟨sound.fits.settleStays [pair], sound.books⟩
    exact ih (prices.translate translates) settledSound fun other member =>
      areStays other (List.mem_cons_of_mem pair member)

theorem PricesUpTo.retargeted (prices : before.PricesUpTo surplus) (sound : before.Sound)
    {unknown : Variable} {info : EditInfo K} (registered : before.edits.get? unknown = some info)
    (target : K) : ∃ later, (before.retargeted unknown info target).PricesUpTo later := by
  obtain ⟨plusSlack, minusSlack, retargets⟩ := retargets_retargeted sound registered target
  rcases retargets.translates sound.fits.indexed plusSlack minusSlack with translates | translates
  · exact ⟨_, (prices.translate translates).of_same rfl rfl⟩
  · exact ⟨_, (prices.translate translates).of_same rfl rfl⟩

theorem PricesUpTo.withdraw (prices : before.settleStays.PricesUpTo surplus) (sound : before.Sound)
    (found : before.installed.get? constraint.key = some entry) {costs : Expression K}
    (isRow : (before.withdraw constraint).tableau.row? .mainObjective = some costs)
    (solves : (before.withdraw constraint).tableau.Solves assignment) :
    costs.valueAt assignment =
      before.errorCost assignment - entry.errorCost assignment + surplus := by
  have settled : before.settleStays.tableau.Fits before.nextId :=
    sound.fits.settleStays before.stays
  have earlier := ((withdraw_tableau sound found).1.solves assignment).mp solves
  obtain ⟨old, was⟩ := (Tableau.isBasic_iff _ _).mp settled.objective
  have worth : old.valueAt assignment = before.errorCost assignment + surplus :=
    prices old assignment was earlier
  have enters := sound.books.entries constraint.key entry found
  unfold Installed.errorCost
  cases required : entry.constraint.isRequired with
  | true =>
    have uncharged : before.charges.get? constraint.key = none :=
      enters.charge.trans ((Demand.chargeAt_eq_none_iff _ _).mpr required)
    unfold Solver.withdraw at isRow
    rw [uncharged] at isRow
    rw [if_pos rfl, sub_zero, ← worth, Option.some.inj (isRow.symm.trans was)]
  | false =>
    have charged := enters.soft_charge required
    have marker := enters.marker_of_soft required
    have areErrors : ∀ symbol ∈ (if entry.constraint.isInequality then [entry.error]
        else [entry.error, ⟨entry.marker.id, .slack⟩]), symbol.kind ≠ .objective := by
      split <;> simp [Installed.error]
    obtain ⟨next, reached, refunded⟩ := Tableau.objective_refunded
      (entry.constraint.strength.unitCost entry.constraint.weight) was earlier areErrors
    unfold Solver.withdraw at isRow
    rw [show before.charges.get? constraint.key = _ from charged] at isRow
    rw [Option.some.inj (isRow.symm.trans reached), refunded, worth, if_neg Bool.false_ne_true]
    split
    · simp only [List.map_cons, List.map_nil, List.sum_cons, List.sum_nil]
      ring
    · rw [← marker]
      simp only [List.map_cons, List.map_nil, List.sum_cons, List.sum_nil]
      ring

theorem errorCost_erase {key : Nat} (found : before.installed.get? key = some entry)
    (installed : after.installed = before.installed.erase key) (assignment : Symbol → K) :
    after.errorCost assignment = before.errorCost assignment - entry.errorCost assignment := by
  unfold errorCost
  rw [installed, Table.total_erase, Table.weightOf, found]
  rfl

theorem errorCost_update_of_erase (sound : before.Sound) {key : Nat}
    (found : before.installed.get? key = some entry)
    (installed : after.installed = before.installed.erase key) {symbol : Symbol}
    (member : symbol ∈ entry.symbols) (assignment : Symbol → K) (value : K) :
    after.errorCost (Function.update assignment symbol value) = after.errorCost assignment := by
  refine Table.total_congr fun item listed => Installed.errorCost_congr fun other named => ?_
  refine Function.update_of_ne ?_ _ _
  rintro rfl
  have isThere := (after.installed.mem_entries_iff item.1 item.2).mp listed
  rw [installed, Table.get?_erase_eq_some_iff] at isThere
  exact isThere.1 (sound.books.apart _ _ _ _ found isThere.2 other member named)

theorem PricesUpTo.uninstall (prices : before.PricesUpTo surplus) (sound : before.Sound)
    (encodes : before.Encodes offsets)
    (uninstalls : before.Uninstalls constraint entry dropped after)
    (sameKind : entry.constraint.kind = constraint.kind) : ∃ later, after.PricesUpTo later := by
  obtain ⟨later, settledPrices⟩ := prices.settleStays sound fun _ member => member
  obtain ⟨balance, settled, droppedPruned, droppedSolves⟩ := encodes.dropped_solves uninstalls sound
  obtain ⟨errors, result, named, _⟩ := uninstalls.tableau_after sound sameKind
  have found := uninstalls.found
  have installed := uninstalls.installed_after
  have markerMember := entry.marker_mem_symbols
  have isMarker := (sound.books.entries _ entry found).symbol_known markerMember
  have droppedIndexed := (uninstalls.dropped_fits sound).indexed
  have start : ∀ costs assignment, dropped.row? .mainObjective = some costs →
      after.Balanced balance assignment →
      costs.valueAt assignment = after.errorCost assignment + later := by
    intro costs assignment isRow balanced
    have isObjective : Symbol.mainObjective.kind = .objective := rfl
    obtain ⟨value, solves, same⟩ := uninstalls.drops.objective
      (withdraw_tableau sound found).2.indexed (withdraw_pruned settled.pruned constraint)
      isMarker.2.2 isObjective ((droppedSolves assignment).mpr balanced)
    rw [isRow] at same
    obtain ⟨old, was, worth⟩ := Option.map_eq_some_iff.mp same.symm
    have withdrawn := PricesUpTo.withdraw settledPrices sound found was solves
    rw [← errorCost_erase found installed,
      errorCost_update_of_erase sound found installed markerMember] at withdrawn
    exact worth.symm.trans withdrawn
  refine ⟨later, fun costs assignment isRow solves => ?_⟩
  rw [result] at isRow solves
  refine Tableau.objective_removeColumns droppedIndexed ?_ ?_ start costs assignment isRow
    (((solves_foldl_removeError sound found installed named droppedIndexed droppedPruned
      droppedSolves).2 assignment).mp solves)
  · intro symbol isError
    obtain ⟨_, rfl⟩ := named symbol isError
    rfl
  · intro symbol isError other balanced
    obtain ⟨soft, rfl⟩ := named symbol isError
    exact ⟨(balanced_update_error sound found soft installed 0).mpr balanced,
      congrArg (· + later) (errorCost_update_of_erase sound found installed
        (Installed.error_mem_symbols soft) other 0)⟩

/-- The tableau encodes the constraints, and its objective says what their errors cost. -/
structure Priced (solver : Solver K) : Prop where
  encodes : ∃ offsets, solver.Encodes offsets
  prices : ∃ surplus, solver.PricesUpTo surplus

theorem priced_fresh (config : Config K) : (withConfig config).Priced :=
  ⟨⟨_, encodes_fresh config⟩, ⟨0, prices_iff.mp (prices_fresh config)⟩⟩

theorem Priced.move (move : Move given before after) (sound : before.Sound)
    (priced : before.Priced) : after.Priced := by
  obtain ⟨offsets, encodes⟩ := priced.encodes
  obtain ⟨surplus, prices⟩ := priced.prices
  refine ⟨Encodes.move move sound ⟨offsets, encodes⟩, ?_⟩
  cases move with
  | tidy tidies =>
    exact ⟨surplus, prices.of_same (congrArg Tableau.rows tidies.tableau) tidies.installed⟩
  | requeue requeues => exact ⟨surplus, prices.of_same requeues.rows rfl⟩
  | pivot leaves pivots =>
    exact ⟨surplus, prices.restate (sound.fits.restates encodes.pruned leaves pivots)⟩
  | settle => exact prices.settleStays sound fun _ member => member
  | suggest registered target => exact prices.retargeted sound registered target
  | install _ external _ installs =>
    exact ⟨surplus, prices.install sound external encodes.pruned installs⟩
  | uninstall sameKind uninstalls => exact prices.uninstall sound encodes uninstalls sameKind

end Moving

end Solver

/-! Coefficients -/

namespace Tableau

variable {tableau : Tableau K}

omit [LinearOrder K] in
def rate (tableau : Tableau K) (parametric symbol : Symbol) : K :=
  match tableau.row? symbol with
  | some row => row.coefficient parametric
  | none => if symbol = parametric then 1 else 0

omit [LinearOrder K] in
theorem completed_update_one (tableau : Tableau K) (parametric symbol : Symbol) :
    tableau.completed (Function.update (fun _ => 0) parametric 1) symbol =
      tableau.basicSolution symbol + tableau.rate parametric symbol := by
  unfold basicSolution completed rate
  cases tableau.row? symbol with
  | some row => simp only [valueAt_update_one, Expression.valueAt_zero]
  | none => simp only [Function.update_apply, zero_add]

theorem shrinks_of_rate_neg [IsStrictOrderedRing K] {parametric symbol : Symbol}
    (shrinks : tableau.rate parametric symbol < 0) :
    ∃ row, tableau.row? symbol = some row ∧ row.coefficient parametric < 0 := by
  unfold rate at shrinks
  split at shrinks
  · rename_i row found
    exact ⟨row, found, shrinks⟩
  · split at shrinks
    · exact absurd shrinks (not_lt.mpr zero_le_one)
    · exact absurd shrinks (lt_irrefl 0)

end Tableau

namespace Solver

variable {solver before after : Solver K} {surplus : K}

/-- What the recorded coefficient of each error symbol of the installed constraints amounts to, for a
unit of a parametric symbol. -/
def recordedRate (solver : Solver K) (parametric : Symbol) : K :=
  solver.installed.total fun key _ =>
    match solver.charges.get? key with
    | some charge =>
      (charge.symbols.map fun error =>
        charge.coefficient * solver.tableau.rate parametric error).sum
    | none => 0

theorem errorCost_rate (sound : solver.Sound) (parametric : Symbol) :
    solver.errorCost (solver.tableau.rate parametric) = solver.recordedRate parametric := by
  refine Table.total_congr fun item listed => ?_
  have found := (solver.installed.mem_entries_iff item.1 item.2).mp listed
  have enters := sound.books.entries item.1 item.2 found
  unfold Installed.errorCost
  cases required : item.2.constraint.isRequired with
  | true =>
    have uncharged : solver.charges.get? item.1 = none :=
      enters.charge.trans ((Demand.chargeAt_eq_none_iff _ _).mpr required)
    rw [uncharged, if_pos rfl]
  | false =>
    rw [show solver.charges.get? item.1 = _ from enters.soft_charge required,
      if_neg Bool.false_ne_true, ← enters.marker_of_soft required]
    dsimp only
    split
    · simp
    · simp only [List.map_cons, List.map_nil, List.sum_cons, List.sum_nil]
      ring

theorem PricesUpTo.coefficient_eq (prices : solver.PricesUpTo surplus) (sound : solver.Sound)
    {costs : Expression K} (found : solver.tableau.row? .mainObjective = some costs)
    (parametric : Symbol) : costs.coefficient parametric = solver.recordedRate parametric := by
  have indexed := sound.fits.indexed
  have worth := fun values =>
    prices costs _ found (Tableau.solves_completed indexed values)
  have start := worth fun _ => 0
  have raised := worth (Function.update (fun _ => 0) parametric 1)
  rw [Tableau.row_valueAt_completed indexed found] at start raised
  rw [costs.valueAt_zero] at start
  rw [Tableau.valueAt_update_one, funext (solver.tableau.completed_update_one parametric),
    errorCost_add, start] at raised
  rw [← errorCost_rate sound]
  change solver.errorCost solver.tableau.basicSolution + surplus + _ = _ at raised
  linear_combination raised

section Bounding

variable [IsStrictOrderedRing K]

theorem PricesUpTo.leaving (prices : solver.PricesUpTo surplus) (sound : solver.Sound)
    (weighs : ∀ key entry, solver.installed.get? key = some entry →
      entry.constraint.isRequired = false → 0 ≤ entry.constraint.weight)
    {costs : Expression K} (found : solver.tableau.row? .mainObjective = some costs)
    {entering : Symbol} (enters : Tableau.enteringSymbol? costs = some entering) :
    solver.tableau.leavingSymbol? entering ≠ none := by
  have negative := Tableau.entering_negative enters
  rw [prices.coefficient_eq sound found] at negative
  by_contra noneLeaves
  refine absurd negative (not_lt.mpr (List.sum_nonneg ?_))
  intro cost member
  obtain ⟨item, listed, rfl⟩ := List.mem_map.mp member
  have isThere := (solver.installed.mem_entries_iff item.1 item.2).mp listed
  have books := sound.books.entries item.1 item.2 isThere
  dsimp only
  split
  · rename_i charge isCharge
    refine List.sum_nonneg fun share isShare => ?_
    obtain ⟨error, isError, rfl⟩ := List.mem_map.mp isShare
    obtain ⟨soft, symbols⟩ := books.charge_symbols isCharge
    have charged := Option.some.inj (isCharge.symm.trans (books.soft_charge soft))
    have isSlack : error.kind = .slack := by
      rcases symbols error isError with rfl | rfl
      · rw [books.marker_of_soft soft]
      · rfl
    refine mul_nonneg ?_ ?_
    · rw [charged]
      exact Strength.unitCost_nonneg _ (weighs item.1 item.2 isThere soft)
    · by_contra shrinks
      obtain ⟨row, isRow, below⟩ := Tableau.shrinks_of_rate_neg (not_le.mp shrinks)
      exact Tableau.leaving_of_shrinking sound.fits.indexed
        (by simp [Symbol.isPivotable, isSlack, SymbolKind.isPivotable]) isRow below noneLeaves
  · exact le_rfl

theorem Priced.not_escapes (priced : before.Priced) (sound : before.Sound)
    (weighs : ∀ key entry, before.installed.get? key = some entry →
      entry.constraint.isRequired = false → 0 ≤ entry.constraint.weight) :
    ¬ before.Escapes after := by
  rintro escapes
  have reachedSound := escapes.sound sound
  obtain ⟨tableau, ⟨improved, costs, entering, found, enters, noneLeaves⟩, rfl⟩ := escapes
  obtain ⟨offsets, encodes⟩ := priced.encodes
  obtain ⟨surplus, prices⟩ := priced.prices
  have reached := prices.restate
    (Tableau.restates_of_improvements improved sound.fits.indexed encodes.pruned)
  exact reached.leaving reachedSound weighs found enters noneLeaves

theorem Priced.not_findsUnbounded (priced : before.Priced) (sound : before.Sound)
    (weighs : ∀ key entry, after.installed.get? key = some entry →
      entry.constraint.isRequired = false → 0 ≤ entry.constraint.weight) :
    ¬ before.FindsUnbounded after := by
  have kept : ∀ {earlier : Solver K}, earlier.Escapes after →
      after.installed = earlier.installed := by
    rintro earlier ⟨tableau, _, rfl⟩
    rfl
  intro findsUnbounded
  cases findsUnbounded with
  | @add constraint external older fails =>
    cases fails with
    | objected objects =>
      rcases objection_cases objects with same | ⟨_, same⟩ | ⟨_, same⟩ <;> cases same
    | refused _ chosen refuses =>
      obtain ⟨offsets, encodes⟩ := priced.encodes
      cases Tableau.chooses_of_choosePlacement chosen
      cases refuses with
      | unbounded escapes =>
        exact (charged_entry sound.fits external).not_unbounded
          (charged_pruned encodes.pruned constraint) (before.equationFor_pruned constraint) escapes
    | unbounded installs _ escapes =>
      have move : Move (fun _ => True) before _ := .install trivial external older installs
      exact (priced.move move sound).not_escapes (move.sound sound) (kept escapes ▸ weighs) escapes
  | remove sameKind fails =>
    cases fails with
    | unbounded uninstalls _ escapes =>
      have move : Move (fun _ => True) before _ :=
        .uninstall (sameKind _ uninstalls.found) uninstalls
      exact (priced.move move sound).not_escapes (move.sound sound) (kept escapes ▸ weighs) escapes
  | optimize escapes => exact priced.not_escapes sound (kept escapes ▸ weighs) escapes

end Bounding

end Solver

namespace Session

variable {session : Session K}

theorem Reachable.priced (reachable : session.Reachable) :
    session.Sound ∧ session.solver.Priced :=
  reachable.keeps (fun _ _ _ allowed => allowed) Solver.Priced Solver.priced_fresh
    fun _ _ _ move sound => Solver.Priced.move move sound

variable [IsStrictOrderedRing K]

/-- In every reachable state the objective row has the recorded coefficients. So it has a least value
wherever no installed weight is negative, however infeasible the rows are: neither optimizing nor
any call can fail for want of one. -/
theorem objective_recorded (reachable : session.Reachable) :
    (∃ costs, session.solver.tableau.row? .mainObjective = some costs ∧
      ∀ symbol, costs.coefficient symbol = session.solver.recordedRate symbol) ∧
    ((∀ key entry, session.solver.installed.get? key = some entry → 0 ≤ entry.constraint.weight) →
      ∀ limit, (Solver.optimize limit session.solver).Meets (fun _ _ => True) fun _ _ => False) ∧
    ∀ (request : Call K) limit next, request.External →
      (perform request limit session).state? = some next →
      (∀ key entry, next.solver.installed.get? key = some entry → 0 ≤ entry.constraint.weight) →
      (perform request limit session).fault? ≠ some (.internal .objectiveUnbounded) := by
  obtain ⟨sound, priced⟩ := Reachable.priced reachable
  obtain ⟨surplus, prices⟩ := priced.prices
  refine ⟨?_, fun weighs limit => ?_, fun request limit next external returned weighs failed => ?_⟩
  · obtain ⟨costs, found⟩ := (Tableau.isBasic_iff _ _).mp sound.solver.fits.objective
    exact ⟨costs, found, prices.coefficient_eq sound.solver found⟩
  · refine (Solver.optimize_meets sound.solver.fits).imp (fun _ _ _ => trivial) ?_
    exact fun fault after failure =>
      priced.not_escapes sound.solver (fun key entry found _ => weighs key entry found) failure.2
  · have halts : (perform request limit session).Meets _ _ := perform_advances sound external
    revert halts returned failed
    cases perform request limit session with
    | done reply reached events => exact nofun
    | failed fault reached events =>
      rintro ⟨⟩ ⟨⟩ ⟨⟨given, failing⟩, _⟩
      obtain ⟨middle, reaches, findsUnbounded⟩ := failing.findsUnbounded rfl
      obtain ⟨middleSound, middlePriced⟩ := reaches.keeps Solver.Priced
        (fun _ _ move moveSound => Solver.Priced.move move moveSound) sound.solver priced
      exact middlePriced.not_findsUnbounded middleSound
        (fun key entry found _ => weighs key entry found)
        findsUnbounded
    | unfinished => exact nofun

/-- A suggestion below the limit leaves an error of the edit under zero. Its row still carries the
weight of the edit to the slack of the limit, and a removal in this state finds its least value. -/
theorem objective_recorded_pending :
    let session : Session ℚ := (start (.withConfig .standard) .log).replay 8
      [.newVariable none 0, .newVariable none 5,
        .make (.atMost (.ofVariable ⟨1⟩) (.ofConstant 10) .required), .add 0,
        .make (.atLeast (.ofVariable ⟨2⟩) (.ofVariable ⟨1⟩) .required), .add 1,
        .addStay ⟨2⟩ .weak 1, .addEdit ⟨1⟩ .strong, .beginEdit, .suggest ⟨1⟩ 5]
    session.solver.tableau.infeasible.keys = [⟨7, .slack⟩] ∧
      (∃ costs, session.solver.tableau.row? .mainObjective = some costs ∧
        costs.coefficient ⟨3, .slack⟩ = 1000000) ∧
      (Solver.optimize 8 session.solver).Meets (fun _ _ => True) (fun _ _ => False) ∧
      (perform (.remove 1) 8 session).state?.isSome = true ∧
      (perform (.remove 1) 8 session).fault? ≠ some (.internal .objectiveUnbounded) := by
  intro session
  have reachable : session.Reachable :=
    (Runs.fresh _ _).replay ⟨trivial, trivial, Demand.external_upperBound ⟨1⟩ 10 .required, trivial,
      show Demand.External _ from by decide +kernel, trivial, trivial, trivial, trivial, trivial,
      trivial⟩
  have weighing : ∀ {solver : Solver ℚ},
      (∀ item ∈ solver.installed.entries, 0 ≤ item.2.constraint.weight) →
      ∀ key entry, solver.installed.get? key = some entry → 0 ≤ entry.constraint.weight :=
    fun weighs key entry found => weighs (key, entry) ((Table.mem_entries_iff _ key entry).mpr found)
  have ends : (perform (.remove 1) 8 session).state?.isSome = true := by decide +kernel
  obtain ⟨next, returned⟩ := Option.isSome_iff_exists.mp ends
  have nextWeighs : ∀ reached ∈ (perform (.remove 1) 8 session).state?,
      ∀ item ∈ reached.solver.installed.entries, 0 ≤ item.2.constraint.weight := by decide +kernel
  have rate : session.solver.recordedRate ⟨3, .slack⟩ = 1000000 := by decide +kernel
  obtain ⟨⟨costs, found, recorded⟩, optimizes, calls⟩ := objective_recorded reachable
  exact ⟨by decide +kernel, ⟨costs, found, (recorded _).trans rate⟩,
    optimizes (weighing (by decide +kernel)) 8, ends,
    calls (.remove 1) 8 next trivial returned (weighing (nextWeighs next returned))⟩

end Session

end SoftSimplex
