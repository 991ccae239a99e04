import SoftSimplex.Proofs.Publication

/-!
Costs. The objective is worth what the error symbols cost together, on every solution and after any
sequence of additions; the errors of a constraint cost at least what missing it costs, and exactly
that where the constraint splits its own value between them.
-/

namespace SoftSimplex

variable {K : Type} [Field K] [LinearOrder K]

/-! What constraints cost -/

def Demand.violation (demand : Demand K) (valueOf : Variable → K) : K :=
  if demand.isInequality then max 0 (-demand.expression.evaluate valueOf)
  else |demand.expression.evaluate valueOf|

def Demand.penalty (demand : Demand K) (valueOf : Variable → K) : K :=
  if demand.isRequired then 0
  else demand.strength.unitCost demand.weight * demand.violation valueOf

def Installed.errorCost (entry : Installed K) (assignment : Symbol → K) : K :=
  if entry.constraint.isRequired then 0
  else entry.constraint.strength.unitCost entry.constraint.weight *
    if entry.constraint.isInequality then assignment entry.error
    else assignment entry.error + assignment entry.marker

theorem Installed.errorCost_congr {entry : Installed K} {left right : Symbol → K}
    (same : ∀ symbol ∈ entry.symbols, left symbol = right symbol) :
    entry.errorCost left = entry.errorCost right := by
  unfold errorCost
  split
  · rfl
  · rename_i soft
    rw [same entry.marker entry.marker_mem_symbols,
      same entry.error (error_mem_symbols (by simpa using soft))]

def Solver.penalty (solver : Solver K) (valueOf : Variable → K) : K :=
  solver.installed.total fun _ entry => entry.constraint.penalty valueOf

def Solver.errorCost (solver : Solver K) (assignment : Symbol → K) : K :=
  solver.installed.total fun _ entry => entry.errorCost assignment

theorem Solver.errorCost_add (solver : Solver K) (left right : Symbol → K) :
    solver.errorCost (fun symbol => left symbol + right symbol) =
      solver.errorCost left + solver.errorCost right := by
  unfold Solver.errorCost Table.total
  rw [← List.sum_map_add]
  refine congrArg List.sum (List.map_congr_left fun item _ => ?_)
  unfold Installed.errorCost
  dsimp only
  split_ifs <;> ring

theorem Strength.unitCost_nonneg [IsStrictOrderedRing K] (strength : Strength) {weight : K}
    (nonneg : 0 ≤ weight) : 0 ≤ strength.unitCost weight := by
  cases strength <;>
    · simp only [unitCost, levelWeight, Weight.times, Weight.collapse, Scalar.placeValue]
      positivity

theorem Strength.unitCost_pos [IsStrictOrderedRing K] (strength : Strength) {weight : K}
    (positive : 0 < weight) : 0 < strength.unitCost weight := by
  cases strength <;>
    · simp only [unitCost, levelWeight, Weight.times, Weight.collapse, Scalar.placeValue]
      positivity

section Shares

variable [IsStrictOrderedRing K] {entry : Installed K} {valueOf : Variable → K}
  {assignment : Symbol → K}

theorem Installed.errorCost_of_share
    (shares : ∀ symbol ∈ entry.symbols,
      assignment symbol = entry.share (entry.constraint.expression.evaluate valueOf) symbol) :
    entry.errorCost assignment = entry.constraint.penalty valueOf := by
  unfold errorCost Demand.penalty Demand.violation
  split
  · rfl
  · rename_i soft
    have different := entry.marker_ne_error
    have marker := shares entry.marker entry.marker_mem_symbols
    have error := shares entry.error (error_mem_symbols (by simpa using soft))
    simp only [share, soft, if_false, if_true, Bool.false_eq_true, Ne.symm different] at marker error
    rw [marker, error, max_comm (-_) 0]
    split
    · rfl
    · rw [max_comm 0, add_comm, max_zero_add_max_neg_zero_eq_abs_self]

theorem Installed.penalty_le
    (weighs : entry.constraint.isRequired = false → 0 ≤ entry.constraint.weight)
    (extending : Extends valueOf assignment)
    (external : entry.constraint.External)
    (kind : entry.marker.kind = entry.constraint.markerKind)
    (balanced : entry.constraint.expression.valueAt assignment = entry.balance assignment) :
    entry.constraint.penalty valueOf ≤ entry.errorCost assignment := by
  unfold errorCost Demand.penalty Demand.violation
  split
  · exact le_rfl
  · rename_i soft
    refine mul_le_mul_of_nonneg_left ?_
      (Strength.unitCost_nonneg _ (weighs (eq_false_of_ne_true soft)))
    have isSlack : entry.marker.kind = .slack := by simpa [Demand.markerKind, soft] using kind
    have errorNonneg := extending.slacks entry.error rfl
    have markerNonneg := extending.slacks entry.marker isSlack
    rw [← Expression.evaluate_eq_valueAt external extending.unknowns, balance, if_neg soft]
      at balanced
    rw [balanced]
    split
    · exact max_le errorNonneg (by linarith)
    · exact abs_le.mpr ⟨by linarith, by linarith⟩

end Shares

namespace Solver

variable {before after : Solver K} {constraint : Constraint K} {offsets : Nat → K}
  {assignment : Symbol → K}

section Comparing

variable [IsStrictOrderedRing K] {solver : Solver K} {valueOf : Variable → K}

theorem errorCost_spread (sound : solver.Sound) (valueOf : Variable → K) :
    solver.errorCost (solver.spread (fun _ => 0) valueOf) = solver.penalty valueOf := by
  refine Table.total_congr fun item member => ?_
  have found := (solver.installed.mem_entries_iff item.1 item.2).mp member
  refine Installed.errorCost_of_share fun symbol named => ?_
  rw [spread_symbol sound found named, add_zero]

theorem penalty_le_errorCost (sound : solver.Sound)
    (weighs : ∀ key entry, solver.installed.get? key = some entry →
      entry.constraint.isRequired = false → 0 ≤ entry.constraint.weight)
    (extending : Extends valueOf assignment) (balanced : solver.Balanced (fun _ => 0) assignment) :
    solver.penalty valueOf ≤ solver.errorCost assignment := by
  refine List.sum_le_sum fun item member => ?_
  have found := (solver.installed.mem_entries_iff item.1 item.2).mp member
  have enters := sound.books.entries item.1 item.2 found
  have holds := balanced item.1 item.2 found
  rw [add_zero] at holds
  exact Installed.penalty_le (weighs item.1 item.2 found) extending enters.external enters.marker
    holds

end Comparing

/-! The objective -/

def Prices (solver : Solver K) : Prop :=
  ∀ costs assignment, solver.tableau.row? .mainObjective = some costs →
    solver.tableau.Solves assignment → costs.valueAt assignment = solver.errorCost assignment

theorem prices_fresh (config : Config K) : (withConfig config).Prices := by
  intro costs assignment found _
  obtain ⟨_, rfl⟩ := row_fresh found
  exact Expression.valueAt_ofConstant assignment 0

/-- The objective may be worth more than the errors cost, but everywhere by the same. -/
def PricesUpTo (solver : Solver K) (surplus : K) : Prop :=
  ∀ costs assignment, solver.tableau.row? .mainObjective = some costs →
    solver.tableau.Solves assignment → costs.valueAt assignment = solver.errorCost assignment + surplus

theorem prices_iff : before.Prices ↔ before.PricesUpTo 0 := by
  simp only [Prices, PricesUpTo, add_zero]

section Surplus

variable {surplus : K} (prices : before.PricesUpTo surplus)

include prices

theorem PricesUpTo.restate {tableau : Tableau K} (restates : before.tableau.Restates tableau) :
    (before.setTableau tableau).PricesUpTo surplus := by
  intro costs assignment found solves
  have earlier := (restates.solves assignment).mp solves
  have same := restates.objectives .mainObjective rfl assignment earlier
  rw [show tableau.row? .mainObjective = some costs from found] at same
  obtain ⟨old, was, worth⟩ := Option.map_eq_some_iff.mp same.symm
  exact worth.symm.trans (prices old assignment was earlier)

theorem PricesUpTo.of_same (rows : after.tableau.rows = before.tableau.rows)
    (installed : after.installed = before.installed) : after.PricesUpTo surplus := by
  unfold PricesUpTo errorCost Tableau.Solves Tableau.row?
  rw [rows, installed]
  exact prices

theorem PricesUpTo.translate {tableau : Tableau K} {symbol : Symbol} {amount : K}
    (translates : before.tableau.Translates tableau symbol amount) :
    (before.setTableau tableau).PricesUpTo
      (surplus + before.errorCost (Function.update (fun _ => 0) symbol amount)) := by
  intro costs assignment found solves
  have earlier := (translates.solves assignment).mp solves
  have same := translates.objectives .mainObjective rfl assignment
  rw [show tableau.row? .mainObjective = some costs from found] at same
  obtain ⟨old, was, worth⟩ := Option.map_eq_some_iff.mp same.symm
  have moved : Function.update assignment symbol (assignment symbol + amount) =
      fun other => assignment other + Function.update (fun _ => (0 : K)) symbol amount other := by
    funext other
    by_cases here : other = symbol
    · subst here
      rw [Function.update_self, Function.update_self]
    · rw [Function.update_of_ne here, Function.update_of_ne here, add_zero]
  have charged := prices old _ was earlier
  rw [moved, errorCost_add, ← moved, worth] at charged
  change costs.valueAt assignment = before.errorCost assignment + _
  linear_combination charged

end Surplus

theorem Prices.of_same (prices : before.Prices) (rows : after.tableau.rows = before.tableau.rows)
    (installed : after.installed = before.installed) : after.Prices :=
  prices_iff.mpr ((prices_iff.mp prices).of_same rows installed)

theorem objective_charged {tableau : Tableau K} {costs : Expression K} {symbols : List Symbol}
    (found : tableau.row? .mainObjective = some costs) (distinct : symbols.Nodup)
    (missing : ∀ symbol ∈ symbols, symbol ∉ costs.symbols) (value : K) :
    ∃ next, (symbols.foldl (fun current symbol => current.setTermInRow .mainObjective symbol value)
      tableau).row? .mainObjective = some next ∧
        ∀ assignment, next.valueAt assignment =
          costs.valueAt assignment + value * (symbols.map assignment).sum := by
  induction symbols generalizing tableau costs with
  | nil => exact ⟨costs, found, fun _ => by simp⟩
  | cons symbol rest ih =>
    obtain ⟨new, restDistinct⟩ := List.nodup_cons.mp distinct
    have stepped : (tableau.setTermInRow .mainObjective symbol value).row? .mainObjective =
        some (costs.setTerm symbol value).1 := by
      rw [Tableau.row?_setTermInRow, if_pos rfl, found]
      rfl
    have restMissing : ∀ other ∈ rest, other ∉ (costs.setTerm symbol value).1.symbols := by
      intro other member named
      have different : other ≠ symbol := by
        rintro rfl
        exact new member
      rw [Expression.mem_symbols_setTerm, if_neg different] at named
      exact missing other (List.mem_cons_of_mem symbol member) named
    obtain ⟨next, reached, worth⟩ := ih stepped restDistinct restMissing
    refine ⟨next, reached, fun assignment => ?_⟩
    rw [worth, Expression.valueAt_setTerm,
      Expression.coefficient_eq_zero _ (missing symbol List.mem_cons_self), List.map_cons,
      List.sum_cons]
    ring

section Installing

variable {placement : Placement K} {tableau : Tableau K} {nextId : Nat}

theorem PricesUpTo.charge {surplus : K} (prices : before.PricesUpTo surplus)
    (fits : before.tableau.Fits before.nextId)
    {costs : Expression K} (found : (before.charged constraint).row? .mainObjective = some costs)
    (solves : before.tableau.Solves assignment) :
    costs.valueAt assignment = before.errorCost assignment + surplus +
      (⟨constraint, (before.equationFor constraint).marker⟩ : Installed K).errorCost assignment := by
  have made := before.equationFor_made constraint
  obtain ⟨old, was⟩ := (before.tableau.isBasic_iff .mainObjective).mp fits.objective
  rw [← prices old assignment was solves]
  unfold Installed.errorCost
  cases required : constraint.isRequired with
  | true =>
    have uncharged : (before.equationFor constraint).charge = none := by
      rw [made.charge, Demand.chargeAt_eq_none_iff]
      exact required
    unfold charged at found
    rw [uncharged] at found
    rw [if_pos rfl, add_zero, Option.some.inj (found.symm.trans was)]
  | false =>
    obtain ⟨charge, isCharge, symbols, coefficient⟩ : ∃ charge,
        (before.equationFor constraint).charge = some charge ∧
        charge.symbols = (if constraint.isInequality then [⟨before.nextId + 1, .slack⟩]
          else [⟨before.nextId + 1, .slack⟩, ⟨before.nextId, .slack⟩]) ∧
        charge.coefficient = constraint.strength.unitCost constraint.weight := by
      rw [made.charge, Demand.chargeAt, if_neg (by simpa using required)]
      exact ⟨_, rfl, rfl, rfl⟩
    have marker : (before.equationFor constraint).marker = ⟨before.nextId, .slack⟩ := by
      rw [made.marker, Demand.markerKind, if_neg (by simp [required])]
    have distinct : charge.symbols.Nodup := by
      rw [symbols]
      split <;> simp
    obtain ⟨next, reached, worth⟩ := objective_charged was distinct (fun symbol member =>
      Tableau.not_mem_of_noColumn fits.indexed (charge_fresh fits isCharge member).2.2 was)
      charge.coefficient
    unfold charged chargeObjective at found
    rw [isCharge] at found
    rw [Option.some.inj (found.symm.trans reached), worth, symbols, coefficient, marker,
      if_neg Bool.false_ne_true]
    split <;> simp [Installed.error]

theorem Installs.objective (installs : before.Installs constraint placement tableau nextId after)
    (fits : before.tableau.Fits before.nextId) (external : constraint.External)
    (pruned : before.tableau.Pruned) (solves : tableau.Solves assignment) :
    (tableau.row? .mainObjective).map (·.valueAt assignment) =
      ((before.charged constraint).row? .mainObjective).map (·.valueAt assignment) := by
  have holds := (((installs.solves fits external pruned).2 assignment).mp solves).2
  have entry := charged_entry fits external
  have rowPruned := before.equationFor_pruned constraint
  have chooses := Tableau.chooses_of_choosePlacement installs.chosen
  have symbols := chooses.symbols
  cases installs.places with
  | @direct subject placed solved _ introduces =>
    obtain ⟨sameSymbols, occurs⟩ := symbols
    obtain ⟨placedPruned, placedHolds⟩ :=
      Tableau.Chooses.holds_iff assignment chooses rowPruned
    refine introduces.objective placedPruned (sameSymbols ▸ occurs) ?_ (placedHolds.mpr holds)
    rintro rfl
    exact (equationFor_kind fits external occurs).1 rfl
  | artificial passes =>
    dsimp only at symbols
    subst symbols
    exact entry.objectives_of_passes (charged_pruned pruned constraint) rowPruned passes rfl
      (by simp [Symbol.mainObjective]) solves

theorem PricesUpTo.install {surplus : K} (prices : before.PricesUpTo surplus)
    (sound : before.Sound) (external : constraint.External) (pruned : before.tableau.Pruned)
    (installs : before.Installs constraint placement tableau nextId after) :
    after.PricesUpTo surplus := by
  intro costs assignment found solves
  rw [installs.tableau_eq] at found solves
  have fresh := installs.fresh
  have total : after.errorCost assignment = before.errorCost assignment +
      (⟨constraint, (before.equationFor constraint).marker⟩ : Installed K).errorCost assignment := by
    unfold errorCost
    rw [installs.result, installed_record, Table.total_insert, Table.weightOf, fresh]
    simp
  obtain ⟨_, narrows⟩ := installs.solves sound.fits external pruned
  obtain ⟨earlier, holds⟩ := (narrows assignment).mp solves
  have kept : (tableau.row? .mainObjective).map (·.valueAt assignment) =
      ((before.charged constraint).row? .mainObjective).map (·.valueAt assignment) :=
    installs.objective sound.fits external pruned solves
  rw [found] at kept
  obtain ⟨old, was, worth⟩ := Option.map_eq_some_iff.mp kept.symm
  rw [total, add_right_comm]
  exact worth.symm.trans (prices.charge sound.fits was earlier)

theorem Prices.install (prices : before.Prices) (sound : before.Sound)
    (external : constraint.External) (pruned : before.tableau.Pruned)
    (installs : before.Installs constraint placement tableau nextId after) : after.Prices :=
  prices_iff.mpr ((prices_iff.mp prices).install sound external pruned installs)

end Installing

end Solver

end SoftSimplex
