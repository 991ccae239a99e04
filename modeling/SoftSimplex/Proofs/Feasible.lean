import Mathlib.Algebra.Order.BigOperators.Group.List
import SoftSimplex.Proofs.Restating

/-!
Feasible tableaus: no pivotable symbol is below zero in the basic solution, restricted symbols
depend on restricted symbols alone, and basic dummies are zero and depend on dummies alone. Every
pivot that follows the ratio test keeps a tableau feasible.
-/

namespace SoftSimplex

variable {K : Type} [Field K] [LinearOrder K]

/-! Constants -/

namespace Expression

variable {expression solved : Expression K}

theorem constant_substitute (expression : Expression K) (symbol : Symbol)
    (replacement : Expression K) : (expression.substitute symbol replacement).constant =
      expression.constant + expression.coefficient symbol * replacement.constant := by
  have value := expression.valueAt_substitute (fun _ => 0) symbol replacement
  simpa only [valueAt_zero, sub_zero] using value

theorem constant_exchange {leaving entering : Symbol}
    (solves : expression.exchange? leaving entering = some solved)
    (missing : leaving ∉ expression.symbols) (nonzero : expression.coefficient entering ≠ 0) :
    expression.coefficient entering * solved.constant = -expression.constant := by
  have value := valueAt_exchange (fun _ => 0) solves missing nonzero
  simpa only [valueAt_zero, sub_zero, zero_sub] using value

omit [LinearOrder K] in
theorem constant_solveFor {subject : Symbol} {reciprocal : K}
    (solves : expression.solveFor? subject = some (reciprocal, solved))
    (nonzero : expression.coefficient subject ≠ 0) :
    expression.coefficient subject * solved.constant = -expression.constant := by
  have value : (expression.valueAt fun _ => 0) =
      expression.coefficient subject * (0 - solved.valueAt fun _ => 0) :=
    valueAt_solveFor solves nonzero
  simp only [valueAt_zero, zero_sub] at value
  rw [value, mul_neg, neg_neg]

end Expression

/-! What is worth a pivot -/

/-- What is worth a pivot is below zero, and so is worth one whatever is lower. -/
structure Scalar.Oriented (K : Type) [Field K] [LinearOrder K] [Scalar K] : Prop where
  negative : ∀ value : K, Scalar.improving value = true → value < 0
  lower : ∀ lower value : K, lower ≤ value → Scalar.improving value = true →
    Scalar.improving lower = true

theorem Scalar.oriented_exact : Scalar.Oriented K where
  negative _ worth := of_decide_eq_true worth
  lower _ _ below worth := decide_eq_true (below.trans_lt (of_decide_eq_true worth))

namespace Tableau

variable {before after : Tableau K} {objective : Symbol}

structure RowFeasible (basic : Symbol) (row : Expression K) : Prop where
  nonneg : basic.isPivotable = true → 0 ≤ row.constant
  enclosed : basic.isRestricted = true → ∀ symbol ∈ row.symbols, symbol.isRestricted = true
  rests : basic.isDummy = true → row.constant = 0 ∧ ∀ symbol ∈ row.symbols, symbol.isDummy = true

def Feasible (tableau : Tableau K) : Prop :=
  ∀ basic row, tableau.row? basic = some row → RowFeasible basic row

structure RowLayered (basic : Symbol) (row : Expression K) : Prop where
  enclosed : basic.isRestricted = true → ∀ symbol ∈ row.symbols, symbol.isRestricted = true
  rests : basic.isDummy = true → row.constant = 0 ∧ ∀ symbol ∈ row.symbols, symbol.isDummy = true

def Layered (tableau : Tableau K) : Prop :=
  ∀ basic row, tableau.row? basic = some row → RowLayered basic row

theorem Feasible.layered (feasible : before.Feasible) : before.Layered := fun basic row found =>
  ⟨(feasible basic row found).enclosed, (feasible basic row found).rests⟩

section Kinds

omit [Field K] [LinearOrder K]

theorem restricted_of_pivotable {symbol : Symbol} (pivotable : symbol.isPivotable = true) :
    symbol.isRestricted = true := by
  rcases symbol with ⟨id, kind⟩
  cases kind <;> first | rfl | cases pivotable

theorem restricted_of_dummy {symbol : Symbol} (isDummy : symbol.isDummy = true) :
    symbol.isRestricted = true := by
  rcases symbol with ⟨id, kind⟩
  cases kind <;> first | rfl | cases isDummy

theorem pivotable_or_dummy {symbol : Symbol} (restricted : symbol.isRestricted = true) :
    symbol.isPivotable = true ∨ symbol.isDummy = true := by
  rcases symbol with ⟨id, kind⟩
  cases kind <;> first | exact Or.inl rfl | exact Or.inr rfl | cases restricted

theorem not_dummy_of_pivotable {symbol : Symbol} (pivotable : symbol.isPivotable = true) :
    symbol.isDummy = false := by
  rcases symbol with ⟨id, kind⟩
  cases kind <;> first | rfl | cases pivotable

end Kinds

theorem RowFeasible.constant_nonneg {basic : Symbol} {row : Expression K}
    (feasible : RowFeasible basic row) (restricted : basic.isRestricted = true) :
    0 ≤ row.constant := by
  rcases pivotable_or_dummy restricted with pivotable | isDummy
  · exact feasible.nonneg pivotable
  · exact (feasible.rests isDummy).1.ge

theorem RowLayered.substitute {basic symbol : Symbol} {row solved : Expression K}
    (layered : RowLayered basic row)
    (closed : basic.isRestricted = true → symbol ∈ row.symbols →
      ∀ other ∈ solved.symbols, other.isRestricted = true)
    (still : basic.isDummy = true → symbol ∈ row.symbols →
      solved.constant = 0 ∧ ∀ other ∈ solved.symbols, other.isDummy = true) :
    RowLayered basic (row.substitute symbol solved) := by
  by_cases occurs : symbol ∈ row.symbols
  · constructor
    · intro restricted
      exact Expression.forall_symbols_substitute symbol (layered.enclosed restricted)
        (closed restricted occurs)
    · intro isDummy
      obtain ⟨zero, dummies⟩ := layered.rests isDummy
      obtain ⟨solvedZero, solvedDummies⟩ := still isDummy occurs
      refine ⟨by rw [Expression.constant_substitute, zero, solvedZero, mul_zero, add_zero], ?_⟩
      exact Expression.forall_symbols_substitute symbol dummies solvedDummies
  · rw [Expression.substitute_of_not_mem occurs]
    exact layered

theorem Layered.pivot {entering leaving : Symbol} {row solved : Expression K}
    (layered : before.Layered) (pivots : before.Pivots entering leaving row solved after)
    (leaves : leaving.isPivotable = true) (enters : entering.isPivotable = true) :
    after.Layered := by
  have restricted := restricted_of_pivotable leaves
  have notDummy := not_dummy_of_pivotable enters
  have closed : ∀ other ∈ solved.symbols, other.isRestricted = true :=
    Expression.forall_symbols_exchange pivots.solves restricted
      ((layered leaving row pivots.leaves).enclosed restricted)
  intro basic next found
  rcases pivots.row_cases found with ⟨rfl, rfl⟩ | ⟨_, _, old, was, rfl⟩
  · refine ⟨fun _ => closed, fun isDummy => ?_⟩
    rw [notDummy] at isDummy
    cases isDummy
  · refine (layered basic old was).substitute (fun _ _ => closed) ?_
    intro isDummy occurs
    have impossible := ((layered basic old was).rests isDummy).2 entering occurs
    rw [notDummy] at impossible
    cases impossible

theorem Layered.feasible (layered : before.Layered)
    (nonneg : ∀ basic row, before.row? basic = some row → basic.isPivotable = true →
      0 ≤ row.constant) : before.Feasible := fun basic row found =>
  ⟨nonneg basic row found, (layered basic row found).enclosed, (layered basic row found).rests⟩

theorem rowFeasible_of_unrestricted {basic : Symbol} (unrestricted : basic.isRestricted = false)
    (row : Expression K) : RowFeasible basic row := by
  refine ⟨fun pivotable => ?_, fun restricted => ?_, fun isDummy => ?_⟩
  · rw [restricted_of_pivotable pivotable] at unrestricted
    cases unrestricted
  · rw [restricted] at unrestricted
    cases unrestricted
  · rw [restricted_of_dummy isDummy] at unrestricted
    cases unrestricted

section Constants

variable {entering leaving : Symbol} {row solved : Expression K}
  (pivots : before.Pivots entering leaving row solved after) (indexed : before.Indexed)

include pivots indexed

theorem Pivots.coefficient_mul_constant (nonzero : row.coefficient entering ≠ 0) :
    row.coefficient entering * solved.constant = -row.constant :=
  Expression.constant_exchange pivots.solves (pivots.leaving_not_mem indexed) nonzero

theorem Pivots.constant (pruned : before.Pruned) :
    row.coefficient entering ≠ 0 ∧ row.coefficient entering * solved.constant = -row.constant :=
  ⟨pivots.coefficient_ne_zero pruned,
    pivots.coefficient_mul_constant indexed (pivots.coefficient_ne_zero pruned)⟩

end Constants

/-! Improving -/

section Improving

variable [IsStrictOrderedRing K] {entering leaving : Symbol} {row solved : Expression K}

theorem step_nonneg {constant coefficient other factor step : K} (nonneg : 0 ≤ constant)
    (forward : 0 ≤ step) (reached : factor * step = -other) (shrinks : factor < 0)
    (least : coefficient < 0 → -other / factor ≤ -constant / coefficient) :
    0 ≤ constant + coefficient * step := by
  rcases lt_or_ge coefficient 0 with negative | positive
  · have limit : step ≤ -constant / coefficient := by
      have same : step = -other / factor := (eq_div_iff shrinks.ne).mpr (by rw [mul_comm, reached])
      exact same ▸ least negative
    have scaled := mul_le_mul_of_nonpos_left limit negative.le
    rw [mul_div_cancel₀ _ negative.ne] at scaled
    linarith
  · exact add_nonneg nonneg (mul_nonneg positive forward)

theorem step_forward {other factor step : K} (reached : factor * step = -other)
    (nonneg : 0 ≤ other) (shrinks : factor < 0) : 0 ≤ step := by
  by_contra negative
  have positive := mul_pos_of_neg_of_neg shrinks (not_le.mp negative)
  linarith

omit [IsStrictOrderedRing K] in
theorem leaving_limits (indexed : before.Indexed)
    (chosen : before.leavingSymbol? entering = some leaving)
    (found : before.row? leaving = some row) :
    row.coefficient entering < 0 ∧ ∀ basic other, before.row? basic = some other →
      basic.isPivotable = true → other.coefficient entering < 0 →
      -row.constant / row.coefficient entering ≤ -other.constant / other.coefficient entering := by
  obtain ⟨limit, least⟩ := leaving_cases chosen
  obtain ⟨_, _, same, isRow, shrinks, rfl⟩ := mem_growthLimits.mp (least?_mem least)
  rw [found] at isRow
  cases isRow
  refine ⟨shrinks, ?_⟩
  intro basic other isRow pivotable negative
  have occurs : entering ∈ other.symbols := Expression.mem_symbols_of_coefficient negative.ne
  have used := (indexed.agrees entering basic).mpr ⟨other, isRow, occurs⟩
  exact least?_le least (mem_growthLimits.mpr ⟨used, pivotable, other, isRow, negative, rfl⟩) rfl

omit [IsStrictOrderedRing K] in
theorem leaving_of_shrinking (indexed : before.Indexed) {basic : Symbol} {other : Expression K}
    (pivotable : basic.isPivotable = true) (isRow : before.row? basic = some other)
    (shrinks : other.coefficient entering < 0) : before.leavingSymbol? entering ≠ none := by
  intro noneLeaves
  have occurs : entering ∈ other.symbols := Expression.mem_symbols_of_coefficient shrinks.ne
  have used := (indexed.agrees entering basic).mpr ⟨other, isRow, occurs⟩
  have limited := mem_growthLimits.mpr ⟨used, pivotable, other, isRow, shrinks, rfl⟩
  have rejected := rejected_of_least?_eq_none (Option.map_eq_none_iff.mp noneLeaves) limited
  cases rejected

/-- No pivotable basic symbol is below zero in the basic solution. -/
def PrimalFeasible (tableau : Tableau K) : Prop :=
  ∀ basic row, tableau.row? basic = some row → basic.isPivotable = true → 0 ≤ row.constant

omit [IsStrictOrderedRing K] in
theorem Feasible.primal (feasible : before.Feasible) : before.PrimalFeasible :=
  fun basic row found => (feasible basic row found).nonneg

theorem PrimalFeasible.improves (primal : before.PrimalFeasible) (indexed : before.Indexed)
    (improves : before.Improves objective after) : after.PrimalFeasible := by
  obtain ⟨costs, entering, leaving, row, solved, _, enters, leaves, pivots⟩ := improves
  obtain ⟨shrinks, least⟩ := leaving_limits indexed leaves pivots.leaves
  have reached := pivots.coefficient_mul_constant indexed shrinks.ne
  have forward := step_forward reached
    (primal leaving row pivots.leaves (leaving_mem leaves).2) shrinks
  intro basic next found pivotable
  rcases pivots.row_cases found with ⟨rfl, rfl⟩ | ⟨_, _, old, was, rfl⟩
  · exact forward
  · rw [Expression.constant_substitute]
    exact step_nonneg (primal basic old was pivotable) forward reached shrinks
      (least basic old was pivotable)

theorem Feasible.improves (feasible : before.Feasible) (indexed : before.Indexed)
    (improves : before.Improves objective after) : after.Feasible := by
  refine Layered.feasible ?_ (feasible.primal.improves indexed improves)
  obtain ⟨costs, entering, leaving, row, solved, _, enters, leaves, pivots⟩ := improves
  exact feasible.layered.pivot pivots (leaving_mem leaves).2 (entering_mem enters).2

theorem feasible_of_improvements
    (improved : Relation.ReflTransGen (Improves objective) before after) (indexed : before.Indexed)
    (pruned : before.Pruned) (feasible : before.Feasible) : after.Feasible := by
  have kept := improvements_keep
    (fun current => current.Indexed ∧ current.Pruned ∧ current.Feasible) improved ?_
    ⟨indexed, pruned, feasible⟩
  · exact kept.2.2
  · rintro earlier later improves ⟨earlierIndexed, earlierPruned, earlierFeasible⟩
    exact ⟨improves.indexed, (improves.restates earlierIndexed earlierPruned).pruned,
      earlierFeasible.improves earlierIndexed improves⟩

end Improving

/-! Least objectives -/

section Least

omit [LinearOrder K] in
theorem valueAt_update (expression : Expression K) (symbol : Symbol) (value : K) :
    expression.valueAt (Function.update (fun _ => 0) symbol value) =
      expression.constant + expression.coefficient symbol * value := by
  rw [expression.valueAt_update, expression.valueAt_zero, sub_zero]

omit [LinearOrder K] in
theorem valueAt_update_one (expression : Expression K) (symbol : Symbol) :
    expression.valueAt (Function.update (fun _ => 0) symbol 1) =
      expression.constant + expression.coefficient symbol := by
  rw [valueAt_update, mul_one]

def Determined (tableau : Tableau K) (costs : Expression K) : Prop :=
  ∀ left right, tableau.Solves left → tableau.Solves right →
    (∀ symbol, symbol.isRestricted = true → left symbol = right symbol) →
    costs.valueAt left = costs.valueAt right

omit [LinearOrder K] in
theorem Layered.enclosed_of_determined (layered : before.Layered) (indexed : before.Indexed)
    {costs : Expression K} (pruned : costs.Pruned) (found : before.row? objective = some costs)
    (determined : before.Determined costs) :
    ∀ symbol ∈ costs.symbols, symbol.isRestricted = true := by
  intro symbol member
  by_contra unrestricted
  have raised := determined (before.completed fun _ => 0)
    (before.completed (Function.update (fun _ => 0) symbol 1)) (solves_completed indexed _)
    (solves_completed indexed _) ?_
  · rw [row_valueAt_completed indexed found, row_valueAt_completed indexed found,
      valueAt_update_one, costs.valueAt_zero] at raised
    exact pruned.coefficient_ne_zero member (left_eq_add.mp raised)
  · intro other restricted
    have different : other ≠ symbol := by
      rintro rfl
      exact unrestricted restricted
    cases isRow : before.row? other with
    | none => simp only [completed, isRow, Function.update_of_ne different]
    | some row =>
      have missing : symbol ∉ row.symbols := fun occurs =>
        unrestricted ((layered other row isRow).enclosed restricted symbol occurs)
      simp only [completed, isRow, valueAt_update_fresh missing]

/-- Raising a pivotable symbol costs something or nothing. -/
def DualFeasible (objective : Symbol) (tableau : Tableau K) : Prop :=
  ∀ costs, tableau.row? objective = some costs → ∀ symbol : Symbol, symbol.isPivotable = true →
    0 ≤ costs.coefficient symbol

theorem not_improving_of_settled [Scalar K] (oriented : Scalar.Oriented K) {costs : Expression K}
    (settled : enteringSymbol? costs = none) (symbol : Symbol) (pivotable : symbol.isPivotable = true) :
    Scalar.improving (costs.coefficient symbol) = false := by
  rw [Bool.eq_false_iff]
  intro worth
  have negative := oriented.negative _ worth
  cases found : costs.terms.get? symbol with
  | none => simp [Expression.coefficient, found] at negative
  | some value =>
    have member := (costs.terms.mem_entries_iff symbol value).mpr found
    rw [Expression.coefficient_of_mem_entries member] at worth negative
    have candidate : (symbol, value) ∈ costs.terms.entries.filter fun entry => entry.1.isPivotable :=
      List.mem_filter.mpr ⟨member, pivotable⟩
    unfold enteringSymbol? at settled
    simp only at settled
    split at settled
    · rename_i nothing
      have rejected := rejected_of_least?_eq_none nothing candidate
      simp only [decide_eq_false_iff_not] at rejected
      exact rejected negative
    · rename_i other least found
      split at settled
      · cases settled
      · rename_i unworthy
        have below := least?_le found candidate (decide_eq_true negative)
        exact unworthy (oriented.lower _ _ below worth)

theorem settled_nonneg {costs : Expression K} (settled : enteringSymbol? costs = none)
    (symbol : Symbol) (pivotable : symbol.isPivotable = true) : 0 ≤ costs.coefficient symbol :=
  not_lt.mp (of_decide_eq_false
    (not_improving_of_settled Scalar.oriented_exact settled symbol pivotable))

theorem entering_negative {costs : Expression K} {entering : Symbol}
    (enters : enteringSymbol? costs = some entering) : costs.coefficient entering < 0 := by
  unfold enteringSymbol? at enters
  simp only at enters
  split at enters
  · cases enters
  · rename_i symbol value found
    split at enters
    · rename_i improving
      cases enters
      rw [Expression.coefficient_of_mem_entries (List.mem_filter.mp (least?_mem found)).1]
      exact of_decide_eq_true improving
    · cases enters

theorem constant_le_of_products [IsStrictOrderedRing K] {costs : Expression K}
    {assignment : Symbol → K}
    (products : ∀ symbol ∈ costs.symbols, 0 ≤ costs.coefficient symbol * assignment symbol) :
    costs.constant ≤ costs.valueAt assignment := by
  refine le_add_of_nonneg_right (List.sum_nonneg ?_)
  intro term isTerm
  obtain ⟨⟨symbol, value⟩, member, rfl⟩ := List.mem_map.mp isTerm
  have product := products symbol (Expression.mem_symbols_of_mem_entries member)
  rwa [Expression.coefficient_of_mem_entries member] at product

theorem constant_le_valueAt [IsStrictOrderedRing K] {costs : Expression K}
    (assignment : Symbol → K)
    (settled : ∀ symbol : Symbol, symbol.isPivotable = true → 0 ≤ costs.coefficient symbol)
    (enclosed : ∀ symbol ∈ costs.symbols, symbol.isRestricted = true)
    (nonneg : ∀ symbol ∈ costs.symbols, symbol.isPivotable = true → 0 ≤ assignment symbol)
    (dummies : ∀ symbol, symbol.isDummy = true → assignment symbol = 0) :
    costs.constant ≤ costs.valueAt assignment := by
  refine constant_le_of_products fun symbol member => ?_
  rcases pivotable_or_dummy (enclosed symbol member) with pivotable | isDummy
  · exact mul_nonneg (settled symbol pivotable) (nonneg symbol member pivotable)
  · rw [dummies symbol isDummy, mul_zero]

end Least

/-! Proper solutions -/

/-- No pivotable symbol below zero and every dummy zero. -/
structure Proper (assignment : Symbol → K) : Prop where
  nonneg : ∀ symbol : Symbol, symbol.isPivotable = true → 0 ≤ assignment symbol
  dummies : ∀ symbol : Symbol, symbol.isDummy = true → assignment symbol = 0

theorem Proper.update {assignment : Symbol → K} (proper : Proper assignment) {symbol : Symbol}
    {value : K} (nonneg : symbol.isPivotable = true → 0 ≤ value)
    (zero : symbol.isDummy = true → value = 0) : Proper (Function.update assignment symbol value) := by
  constructor
  · intro other pivotable
    by_cases same : other = symbol
    · subst same
      rw [Function.update_self]
      exact nonneg pivotable
    · rw [Function.update_of_ne same]
      exact proper.nonneg other pivotable
  · intro other isDummy
    by_cases same : other = symbol
    · subst same
      rw [Function.update_self]
      exact zero isDummy
    · rw [Function.update_of_ne same]
      exact proper.dummies other isDummy

theorem Feasible.proper (feasible : before.Feasible) : Proper before.basicSolution := by
  constructor
  · intro symbol pivotable
    cases isBasic : before.isBasic symbol with
    | false => rw [basicSolution_of_not_basic isBasic]
    | true =>
      obtain ⟨row, found⟩ := (before.isBasic_iff symbol).mp isBasic
      rw [basicSolution_of_row found]
      exact (feasible symbol row found).nonneg pivotable
  · intro symbol isDummy
    cases isBasic : before.isBasic symbol with
    | false => exact basicSolution_of_not_basic isBasic
    | true =>
      obtain ⟨row, found⟩ := (before.isBasic_iff symbol).mp isBasic
      rw [basicSolution_of_row found]
      exact ((feasible symbol row found).rests isDummy).1

/-! Introducing -/

section Introducing

theorem Feasible.introduce (feasible : before.Feasible) {subject : Symbol} {row solved : Expression K}
    (introduces : before.Introduces subject row solved after)
    (apart : ∀ basic old, before.row? basic = some old → basic.isRestricted = true →
      subject ∉ old.symbols)
    (solvedFeasible : RowFeasible subject solved) : after.Feasible := by
  intro basic next found
  rw [introduces.defines.rows] at found
  split at found
  · rename_i same
    cases found
    exact same ▸ solvedFeasible
  · obtain ⟨old, was, rfl⟩ := Option.map_eq_some_iff.mp found
    cases restricted : basic.isRestricted with
    | false => exact rowFeasible_of_unrestricted restricted _
    | true =>
      rw [Expression.substitute_of_not_mem (apart basic old was restricted)]
      exact feasible basic old was

theorem Feasible.recost (feasible : before.Feasible) (recosts : before.Recosts after) :
    after.Feasible := by
  intro basic row found
  by_cases same : basic = .mainObjective
  · subst same
    exact rowFeasible_of_unrestricted rfl row
  · rw [recosts.rows basic same] at found
    exact feasible basic row found

theorem Feasible.removeRow (feasible : before.Feasible) (symbol : Symbol) :
    (before.removeRow symbol).Feasible := by
  intro basic row found
  exact feasible basic row ((row?_removeRow_eq_some_iff ..).mp found).2

theorem Feasible.removeColumn (feasible : before.Feasible) (indexed : before.Indexed)
    (symbol : Symbol) : (before.removeColumn symbol).Feasible := by
  intro basic next found
  rw [row?_removeColumn indexed] at found
  obtain ⟨old, was, rfl⟩ := Option.map_eq_some_iff.mp found
  have oldFeasible := feasible basic old was
  have fewer : ∀ other ∈ (old.removeTerm symbol).symbols, other ∈ old.symbols :=
    fun other member => ((old.mem_symbols_removeTerm symbol other).mp member).2
  exact ⟨oldFeasible.nonneg, fun restricted other member =>
      oldFeasible.enclosed restricted other (fewer other member),
    fun isDummy => ⟨(oldFeasible.rests isDummy).1, fun other member =>
      (oldFeasible.rests isDummy).2 other (fewer other member)⟩⟩

end Introducing

/-! Artificial symbols -/

section Artificial

variable [IsStrictOrderedRing K] {artificial : Symbol} {row : Expression K}
  (entry : before.Entry artificial objective row)

include entry

omit [IsStrictOrderedRing K] in
theorem Entry.feasible (feasible : before.Feasible) (nonneg : 0 ≤ row.constant)
    (enclosed : ∀ symbol ∈ row.symbols, symbol.isRestricted = true) :
    (before.withArtificial artificial objective row).Feasible := by
  have notDummy : artificial.isDummy = false := by
    simp [Symbol.isDummy, entry.isArtificial, SymbolKind.isDummy]
  have unrestricted : objective.isRestricted = false := by
    simp [Symbol.isRestricted, entry.isObjective, SymbolKind.isRestricted]
  intro basic other found
  rw [row?_withArtificial] at found
  split at found
  · rename_i same
    subst same
    cases found
    refine ⟨fun _ => nonneg, fun _ => enclosed, fun isDummy => ?_⟩
    rw [notDummy] at isDummy
    cases isDummy
  · split at found
    · rename_i same
      exact same ▸ rowFeasible_of_unrestricted unrestricted other
    · exact feasible basic other found

omit entry in
theorem Feasible.expel {reached : Tableau K} (feasible : reached.Feasible)
    (indexed : reached.Indexed) (pruned : reached.Pruned)
    (isArtificial : artificial.kind = .artificial)
    (zero : reached.basicSolution artificial = 0) (expels : reached.Expels artificial objective after) :
    after.Feasible := by
  cases expels with
  | parametric _ => exact (feasible.removeColumn indexed artificial).removeRow objective
  | constant _ _ => exact (feasible.removeRow artificial).removeRow objective
  | @pivot entering stays solved middle enters pivots =>
    refine Feasible.removeRow (Feasible.removeColumn ?_ pivots.indexed artificial) objective
    have pivotable : entering.isPivotable = true := List.find?_some enters
    have leaves : artificial.isPivotable = true := by
      simp [Symbol.isPivotable, isArtificial, SymbolKind.isPivotable]
    have solvedZero : solved.constant = 0 := by
      obtain ⟨nonzero, reachedZero⟩ := pivots.constant indexed pruned
      rw [← basicSolution_of_row pivots.leaves, zero, neg_zero] at reachedZero
      exact (mul_eq_zero.mp reachedZero).resolve_left nonzero
    refine (feasible.layered.pivot pivots leaves pivotable).feasible ?_
    intro basic next found basicPivotable
    rcases pivots.row_cases found with ⟨rfl, rfl⟩ | ⟨_, _, old, was, rfl⟩
    · exact solvedZero.ge
    · rw [Expression.constant_substitute, solvedZero, mul_zero, add_zero]
      exact (feasible basic old was).nonneg basicPivotable

section Way

variable {reached : Tableau K} (pruned : before.Pruned) (rowPruned : row.Pruned)
  (feasible : before.Feasible) (nonneg : 0 ≤ row.constant)
  (enclosed : ∀ symbol ∈ row.symbols, symbol.isRestricted = true)

include pruned rowPruned feasible nonneg enclosed

theorem Entry.along (improved : Relation.ReflTransGen (Improves objective)
      (before.withArtificial artificial objective row) reached) :
    reached.Indexed ∧ (before.withArtificial artificial objective row).Restates reached ∧
      reached.Feasible := by
  have started := entry.indexed_withArtificial
  have startedPruned : (before.withArtificial artificial objective row).Pruned :=
    pruned_withArtificial pruned rowPruned
  exact ⟨indexed_of_improvements improved started,
    restates_of_improvements improved started startedPruned,
    feasible_of_improvements improved started startedPruned (entry.feasible feasible nonneg enclosed)⟩

theorem Entry.feasible_of_passes (passes : before.Passes artificial objective row after) :
    after.Feasible := by
  obtain ⟨reached, improved, _, _, zero, expels⟩ := entry.expels_of_passes pruned rowPruned passes
  obtain ⟨indexed, restates, reachedFeasible⟩ :=
    entry.along pruned rowPruned feasible nonneg enclosed improved
  exact reachedFeasible.expel indexed restates.pruned entry.isArtificial zero expels

end Way

end Artificial

/-! Dropping a marker -/

section Dropping

variable {marker leaving : Symbol} {row solved : Expression K}

/-- A marker can be dropped without moving a basic dummy off zero: none depends on the marker, or
the marker exchanges with a dummy. -/
def Unentangled (tableau : Tableau K) (marker : Symbol) : Prop :=
  (∀ basic row, tableau.row? basic = some row → basic.isDummy = true → marker ∉ row.symbols) ∨
    ∃ leaving, tableau.exitFor? marker = some leaving ∧ leaving.isDummy = true

omit [LinearOrder K] in
theorem mem_restrictedUses_of_occurs (indexed : before.Indexed) {basic : Symbol}
    (found : before.row? basic = some row) (restricted : basic.isRestricted = true)
    (occurs : marker ∈ row.symbols) :
    (basic, row.coefficient marker, row.constant) ∈ before.restrictedUses marker :=
  mem_restrictedUses.mpr ⟨(indexed.agrees marker basic).mpr ⟨row, found, occurs⟩, restricted, row,
    found, rfl, rfl⟩

/-- The choice of an exit: the restricted row that shrinks first, else the restricted row that
grows least, else a row of no restricted symbol. -/
theorem exit_limits (indexed : before.Indexed) (chosen : before.exitFor? marker = some leaving)
    (found : before.row? leaving = some row) :
    leaving.isRestricted = true ∧ row.coefficient marker < 0 ∧
        (∀ basic other, before.row? basic = some other → basic.isRestricted = true →
          marker ∈ other.symbols → other.coefficient marker < 0 →
          -row.constant / row.coefficient marker ≤ -other.constant / other.coefficient marker) ∨
      leaving.isRestricted = true ∧ ¬ row.coefficient marker < 0 ∧
        (∀ basic other, before.row? basic = some other → basic.isRestricted = true →
          marker ∈ other.symbols → ¬ other.coefficient marker < 0 ∧
          row.constant / row.coefficient marker ≤ other.constant / other.coefficient marker) ∨
      ∀ basic other, before.row? basic = some other → basic.isRestricted = true →
        marker ∉ other.symbols := by
  have shrinking : ∀ basic other, before.row? basic = some other → basic.isRestricted = true →
      marker ∈ other.symbols → other.coefficient marker < 0 →
      (basic, -other.constant / other.coefficient marker) ∈
        (before.restrictedUses marker).filterMap fun use =>
          if use.2.1 < 0 then some (use.1, -use.2.2 / use.2.1) else none := by
    intro basic other isRow restricted occurs negative
    have used := mem_restrictedUses_of_occurs indexed isRow restricted occurs
    exact List.mem_filterMap.mpr ⟨_, used, if_pos negative⟩
  unfold exitFor? at chosen
  simp only at chosen
  split at chosen
  · rename_i basic ratio least
    cases chosen
    obtain ⟨⟨user, value, constant⟩, member, taken⟩ := List.mem_filterMap.mp (least?_mem least)
    split at taken
    · rename_i shrinks
      cases taken
      obtain ⟨_, restricted, other, isRow, rfl, rfl⟩ := mem_restrictedUses.mp member
      rw [found] at isRow
      cases isRow
      refine Or.inl ⟨restricted, shrinks, ?_⟩
      intro basic other isRow restricted occurs negative
      exact least?_le least (shrinking basic other isRow restricted occurs negative) rfl
    · cases taken
  · rename_i noneShrinks
    have grows : ∀ basic other, before.row? basic = some other → basic.isRestricted = true →
        marker ∈ other.symbols → ¬ other.coefficient marker < 0 := by
      intro basic other isRow restricted occurs negative
      have candidate := shrinking basic other isRow restricted occurs negative
      have rejected := rejected_of_least?_eq_none noneShrinks candidate
      cases rejected
    split at chosen
    · rename_i basic ratio least
      cases chosen
      obtain ⟨⟨user, value, constant⟩, member, taken⟩ := List.mem_map.mp (least?_mem least)
      cases taken
      obtain ⟨used, restricted, other, isRow, rfl, rfl⟩ := mem_restrictedUses.mp member
      obtain ⟨same, isSame, occursIn⟩ := (indexed.agrees marker _).mp used
      rw [found] at isRow isSame
      cases isRow
      cases isSame
      refine Or.inr (Or.inl ⟨restricted, grows _ row found restricted occursIn, ?_⟩)
      intro basic other isRow restricted occurs
      have used := mem_restrictedUses_of_occurs indexed isRow restricted occurs
      exact ⟨grows basic other isRow restricted occurs,
        least?_le least (List.mem_map.mpr ⟨_, used, rfl⟩) rfl⟩
    · rename_i noneUses
      refine Or.inr (Or.inr ?_)
      intro basic other isRow restricted occurs
      have used := mem_restrictedUses_of_occurs indexed isRow restricted occurs
      have rejected := rejected_of_least?_eq_none noneUses (List.mem_map.mpr ⟨_, used, rfl⟩)
      cases rejected

theorem exit_restricted (indexed : before.Indexed) (chosen : before.exitFor? marker = some leaving)
    (found : before.row? leaving = some row) {basic : Symbol} {other : Expression K}
    (isRow : before.row? basic = some other) (restricted : basic.isRestricted = true)
    (occurs : marker ∈ other.symbols) : leaving.isRestricted = true := by
  rcases exit_limits indexed chosen found with ⟨isRestricted, _⟩ | ⟨isRestricted, _⟩ | unused
  · exact isRestricted
  · exact isRestricted
  · exact absurd occurs (unused basic other isRow restricted)

theorem Pivots.row?_removed (pivots : before.Pivots marker leaving row solved after)
    {basic : Symbol} {next : Expression K}
    (found : (after.removeRow marker).row? basic = some next) :
    ∃ old, before.row? basic = some old ∧ next = old.substitute marker solved := by
  obtain ⟨notMarker, stays⟩ := (row?_removeRow_eq_some_iff ..).mp found
  rcases pivots.row_cases stays with ⟨rfl, _⟩ | ⟨_, _, replaced⟩
  · exact absurd rfl notMarker
  · exact replaced

def RestrictedFeasible (tableau : Tableau K) : Prop :=
  ∀ basic row, tableau.row? basic = some row → basic.isRestricted = true → 0 ≤ row.constant

theorem Feasible.restricted (feasible : before.Feasible) : before.RestrictedFeasible :=
  fun basic row found => (feasible basic row found).constant_nonneg

variable [IsStrictOrderedRing K]

theorem exit_step (indexed : before.Indexed) (pruned : before.Pruned)
    (feasible : before.RestrictedFeasible)
    (chosen : before.exitFor? marker = some leaving) (found : before.row? leaving = some row)
    {step : K} (nonzero : row.coefficient marker ≠ 0)
    (reached : row.coefficient marker * step = -row.constant) {basic : Symbol}
    {other : Expression K} (isRow : before.row? basic = some other)
    (restricted : basic.isRestricted = true) :
    0 ≤ other.constant + other.coefficient marker * step := by
  have nonneg := feasible basic other isRow restricted
  by_cases occurs : marker ∈ other.symbols
  · rcases exit_limits indexed chosen found with ⟨leavingRestricted, shrinks, least⟩ |
        ⟨leavingRestricted, grows, least⟩ | unused
    · have forward := step_forward reached (feasible leaving row found leavingRestricted) shrinks
      exact step_nonneg nonneg forward reached shrinks (least basic other isRow restricted occurs)
    · obtain ⟨otherGrows, ratio⟩ := least basic other isRow restricted occurs
      have otherNonzero := (pruned basic other isRow).coefficient_ne_zero occurs
      have otherPositive := lt_of_le_of_ne (not_lt.mp otherGrows) (Ne.symm otherNonzero)
      have back : step = -(row.constant / row.coefficient marker) := by
        rw [← neg_div, eq_div_iff nonzero, mul_comm, reached]
      have scaled := mul_le_mul_of_nonneg_left ratio otherPositive.le
      rw [mul_div_cancel₀ _ otherNonzero] at scaled
      rw [back, mul_neg]
      linarith
    · exact absurd occurs (unused basic other isRow restricted)
  · rw [other.coefficient_eq_zero occurs, zero_mul, add_zero]
    exact nonneg

theorem RestrictedFeasible.exchange (feasible : before.RestrictedFeasible)
    (indexed : before.Indexed) (pruned : before.Pruned)
    (chosen : before.exitFor? marker = some leaving)
    (pivots : before.Pivots marker leaving row solved after) :
    (after.removeRow marker).RestrictedFeasible := by
  obtain ⟨nonzero, reached⟩ := pivots.constant indexed pruned
  intro basic next found restricted
  obtain ⟨old, was, rfl⟩ := pivots.row?_removed found
  rw [Expression.constant_substitute]
  exact exit_step indexed pruned feasible chosen pivots.leaves nonzero reached was restricted

theorem Feasible.layered_exchange (feasible : before.Feasible) (indexed : before.Indexed)
    (pruned : before.Pruned) (unentangled : before.Unentangled marker)
    (chosen : before.exitFor? marker = some leaving)
    (pivots : before.Pivots marker leaving row solved after) {basic : Symbol} {old : Expression K}
    (was : before.row? basic = some old) : RowLayered basic (old.substitute marker solved) := by
  obtain ⟨nonzero, reached⟩ := pivots.constant indexed pruned
  have leavingLayered := feasible leaving row pivots.leaves
  refine (feasible.layered basic old was).substitute ?_ ?_
  · intro restricted occurs
    have leavingRestricted := exit_restricted indexed chosen pivots.leaves was restricted occurs
    exact Expression.forall_symbols_exchange pivots.solves leavingRestricted
      (leavingLayered.enclosed leavingRestricted)
  · intro isDummy occurs
    rcases unentangled with apart | ⟨exit, sameExit, exitDummy⟩
    · exact absurd occurs (apart basic old was isDummy)
    · have same : leaving = exit := Option.some.inj (chosen.symm.trans sameExit)
      subst same
      obtain ⟨zero, dummies⟩ := leavingLayered.rests exitDummy
      rw [zero, neg_zero] at reached
      exact ⟨(mul_eq_zero.mp reached).resolve_left nonzero,
        Expression.forall_symbols_exchange pivots.solves exitDummy dummies⟩

theorem Feasible.drop (feasible : before.Feasible) (indexed : before.Indexed)
    (pruned : before.Pruned) (unentangled : before.Unentangled marker)
    (drops : before.Drops marker after) : after.Feasible := by
  cases drops with
  | basic _ => exact feasible.removeRow marker
  | unused _ _ => exact feasible.removeColumn indexed marker
  | @exchange leaving row solved middle _ chosen pivots =>
    intro basic next isRow
    have nonneg := feasible.restricted.exchange indexed pruned chosen pivots basic next isRow
    obtain ⟨old, was, rfl⟩ := pivots.row?_removed isRow
    have layered := feasible.layered_exchange indexed pruned unentangled chosen pivots was
    exact ⟨fun pivotable => nonneg (restricted_of_pivotable pivotable), layered.enclosed,
      layered.rests⟩

omit [IsStrictOrderedRing K] in
theorem Pivots.leaving_occurs (pivots : before.Pivots marker leaving row solved after)
    (indexed : before.Indexed) (pruned : before.Pruned) {basic : Symbol} {other : Expression K}
    (isRow : before.row? basic = some other) (occurs : marker ∈ other.symbols) :
    leaving ∈ (other.substitute marker solved).symbols := by
  by_contra missing
  have absent : ∀ {user expression}, before.row? user = some expression →
      leaving ∉ expression.symbols :=
    indexed.not_mem_of_basic (isBasic_of_row? pivots.leaves)
  have nonzero := (pruned leaving row pivots.leaves).coefficient_ne_zero pivots.mem
  have atRest := Expression.valueAt_exchange (fun _ => 0) pivots.solves (absent pivots.leaves) nonzero
  have raised := Expression.valueAt_exchange (Function.update (fun _ => 0) leaving 1) pivots.solves
    (absent pivots.leaves) nonzero
  have still := other.valueAt_substitute (fun _ => 0) marker solved
  have moved := other.valueAt_substitute (Function.update (fun _ => 0) leaving 1) marker solved
  have different : marker ≠ leaving := pivots.different indexed
  rw [valueAt_update_fresh (absent pivots.leaves), Function.update_self,
    Function.update_of_ne different] at raised
  rw [valueAt_update_fresh missing, valueAt_update_fresh (absent isRow),
    Function.update_of_ne different, still] at moved
  have otherNonzero := (pruned basic other isRow).coefficient_ne_zero occurs
  have same := mul_left_cancel₀ otherNonzero (add_left_cancel moved)
  rw [← same, atRest] at raised
  exact zero_ne_one (sub_left_injective raised)

/-- A feasible tableau stays feasible without a marker exactly if the marker is unentangled. -/
theorem Feasible.drop_iff (feasible : before.Feasible) (indexed : before.Indexed)
    (pruned : before.Pruned) (drops : before.Drops marker after) :
    after.Feasible ↔ before.Unentangled marker := by
  refine ⟨fun kept => ?_, fun unentangled => feasible.drop indexed pruned unentangled drops⟩
  cases drops with
  | basic isBasic =>
    refine Or.inl fun user other isRow _ member => ?_
    exact absurd member (indexed.not_mem_of_basic isBasic isRow)
  | unused _ noExit =>
    refine Or.inl fun user other isRow isDummy member => ?_
    have used := (indexed.agrees marker user).mpr ⟨other, isRow, member⟩
    have isObjective := objective_of_no_exit noExit used
    simp [Symbol.isDummy, isObjective, SymbolKind.isDummy] at isDummy
  | @exchange leaving row solved middle notBasic chosen pivots =>
    by_cases exitDummy : leaving.isDummy = true
    · exact Or.inr ⟨leaving, chosen, exitDummy⟩
    · refine Or.inl fun user other isRow isDummy member => exitDummy ?_
      have notLeaving : leaving ≠ user := by
        rintro rfl
        exact exitDummy isDummy
      have notMarker : marker ≠ user := by
        rintro rfl
        rw [isBasic_of_row? isRow] at notBasic
        cases notBasic
      have stays : (middle.removeRow marker).row? user = some (other.substitute marker solved) := by
        rw [row?_removeRow, if_neg notMarker, pivots.row?_after, if_neg notMarker,
          if_neg notLeaving, isRow]
        rfl
      exact ((kept user _ stays).rests isDummy).2 leaving
        (pivots.leaving_occurs indexed pruned isRow member)

end Dropping

end Tableau

end SoftSimplex
