import Mathlib.Algebra.BigOperators.Ring.List
import Mathlib.Algebra.Order.Field.Basic
import Mathlib.Tactic.Abel
import Mathlib.Tactic.FieldSimp
import Mathlib.Tactic.Linarith
import Mathlib.Tactic.LinearCombination
import Mathlib.Tactic.Ring
import SoftSimplex.Constraint
import SoftSimplex.Proofs.Pruning

/-!
Exact numbers, and what expressions are worth over them. Every judgement that rounded numbers need
becomes a comparison with zero; each operation on expressions then has an equation for its value
under any assignment of the symbols.
-/

namespace SoftSimplex

instance exactScalar {K : Type} [Field K] [LinearOrder K] : Scalar K where
  negligible value := decide (value = 0)
  close left right := decide (left = right)
  improving value := decide (value < 0)
  bounded _ := true
  placeValue := 1000

section Totals

variable {α β K : Type} [AddCommGroup K]

def Table.total (table : Table α β) (weigh : α → β → K) : K :=
  (table.entries.map fun entry => weigh entry.1 entry.2).sum

theorem Table.total_congr {table : Table α β} {weigh other : α → β → K}
    (same : ∀ entry ∈ table.entries, weigh entry.1 entry.2 = other entry.1 entry.2) :
    table.total weigh = table.total other := by
  unfold Table.total
  rw [List.map_congr_left same]

variable [DecidableEq α]

def Table.weightOf (table : Table α β) (weigh : α → β → K) (key : α) : K :=
  ((table.get? key).map (weigh key)).getD 0

theorem Entries.sum_insert (weigh : α → β → K) (key : α) (value : β) (entries : List (α × β)) :
    ((Entries.insert key value entries).map fun entry => weigh entry.1 entry.2).sum =
      (entries.map fun entry => weigh entry.1 entry.2).sum -
        ((Entries.get? key entries).map (weigh key)).getD 0 + weigh key value := by
  induction entries with
  | nil => simp [Entries.insert, Entries.get?]
  | cons entry rest ih =>
    by_cases same : entry.1 = key
    · subst same
      simp [Entries.insert, Entries.get?, add_comm]
    · simp only [Entries.insert, Entries.get?, same, if_false, List.map_cons, List.sum_cons, ih]
      abel

theorem Entries.sum_erase (weigh : α → β → K) (key : α) (entries : List (α × β)) :
    ((Entries.erase key entries).map fun entry => weigh entry.1 entry.2).sum =
      (entries.map fun entry => weigh entry.1 entry.2).sum -
        ((Entries.get? key entries).map (weigh key)).getD 0 := by
  induction entries with
  | nil => simp [Entries.erase, Entries.get?]
  | cons entry rest ih =>
    by_cases same : entry.1 = key
    · subst same
      simp [Entries.erase, Entries.get?]
    · simp only [Entries.erase, Entries.get?, same, if_false, List.map_cons, List.sum_cons, ih]
      abel

theorem Table.total_insert (table : Table α β) (weigh : α → β → K) (key : α) (value : β) :
    (table.insert key value).total weigh =
      table.total weigh - table.weightOf weigh key + weigh key value :=
  Entries.sum_insert weigh key value table.entries

theorem Table.total_erase (table : Table α β) (weigh : α → β → K) (key : α) :
    (table.erase key).total weigh = table.total weigh - table.weightOf weigh key :=
  Entries.sum_erase weigh key table.entries

theorem Table.total_swapErase (table : Table α β) (weigh : α → β → K) (key : α) :
    (table.swapErase key).total weigh = table.total weigh - table.weightOf weigh key := by
  have permuted := (Entries.swapErase_perm key table.entries).map
    fun entry => weigh entry.1 entry.2
  exact permuted.sum_eq.trans (Entries.sum_erase weigh key table.entries)

end Totals

namespace Expression

variable {K : Type} [Field K] [LinearOrder K]

omit [LinearOrder K] in
def valueAt (expression : Expression K) (assignment : Symbol → K) : K :=
  expression.constant + expression.terms.total fun symbol value => value * assignment symbol

section Values

variable (expression : Expression K) (assignment : Symbol → K)

omit [LinearOrder K] in
theorem weightOf_terms (symbol : Symbol) :
    expression.terms.weightOf (fun symbol value => value * assignment symbol) symbol =
      expression.coefficient symbol * assignment symbol := by
  unfold Table.weightOf coefficient
  cases expression.terms.get? symbol <;> simp

omit [LinearOrder K] in
theorem valueAt_ofConstant (value : K) : (ofConstant value).valueAt assignment = value := by
  simp [valueAt, ofConstant, Table.total, EmptyCollection.emptyCollection, Table.empty]

omit [LinearOrder K] in
theorem valueAt_withConstant (value : K) :
    (expression.withConstant value).valueAt assignment =
      expression.valueAt assignment + (value - expression.constant) := by
  simp only [valueAt, withConstant]
  ring

omit [LinearOrder K] in
theorem valueAt_increaseConstant (amount : K) :
    (expression.increaseConstant amount).valueAt assignment =
      expression.valueAt assignment + amount := by
  rw [increaseConstant, valueAt_withConstant]
  ring

omit [LinearOrder K] in
theorem valueAt_removeTerm (symbol : Symbol) :
    (expression.removeTerm symbol).valueAt assignment =
      expression.valueAt assignment - expression.coefficient symbol * assignment symbol := by
  rw [← weightOf_terms]
  simp only [valueAt, removeTerm, Table.total_swapErase]
  ring

omit [LinearOrder K] in
theorem valueAt_insert (symbol : Symbol) (value : K) :
    ({ expression with terms := expression.terms.insert symbol value } : Expression K).valueAt
        assignment =
      expression.valueAt assignment - expression.coefficient symbol * assignment symbol +
        value * assignment symbol := by
  rw [← weightOf_terms]
  simp only [valueAt, Table.total_insert]
  ring

omit [LinearOrder K] in
theorem valueAt_times (factor : K) :
    (expression.times factor).valueAt assignment = expression.valueAt assignment * factor := by
  have terms : ((expression.terms.mapValues (· * factor)).total
      fun symbol value => value * assignment symbol) =
        (expression.terms.total fun symbol value => value * assignment symbol) * factor := by
    unfold Table.total Table.mapValues
    rw [← List.sum_map_mul_right, List.map_map]
    refine congrArg List.sum (List.map_congr_left fun entry _ => ?_)
    simp only [Function.comp_apply]
    ring
  simp only [valueAt, times, terms]
  ring

theorem valueAt_addTerm (symbol : Symbol) (amount : K) :
    (expression.addTerm symbol amount).1.valueAt assignment =
      expression.valueAt assignment + amount * assignment symbol := by
  unfold addTerm
  split
  · rename_i present found
    have here : expression.coefficient symbol = present := by simp [coefficient, found]
    split
    · rename_i cancels
      have opposite : present = -amount := eq_neg_of_add_eq_zero_left (by simpa [Scalar.negligible]
        using cancels)
      refine (valueAt_removeTerm expression assignment symbol).trans ?_
      rw [here, opposite]
      ring
    · refine (valueAt_insert expression assignment symbol _).trans ?_
      rw [here]
      ring
  · rename_i missing
    have here : expression.coefficient symbol = 0 := by simp [coefficient, missing]
    split
    · rename_i vanishes
      have zero : amount = 0 := by simpa [Scalar.negligible] using vanishes
      rw [zero]
      ring
    · refine (valueAt_insert expression assignment symbol _).trans ?_
      rw [here]
      ring

theorem valueAt_setTerm (symbol : Symbol) (value : K) :
    (expression.setTerm symbol value).1.valueAt assignment =
      expression.valueAt assignment - expression.coefficient symbol * assignment symbol +
        value * assignment symbol := by
  unfold setTerm
  split
  · rename_i vanishes
    have zero : value = 0 := by simpa [Scalar.negligible] using vanishes
    split
    · refine (valueAt_removeTerm expression assignment symbol).trans ?_
      rw [zero]
      ring
    · rename_i missing
      have none : expression.terms.get? symbol = none := by
        simpa [contains, Table.contains] using missing
      have here : expression.coefficient symbol = 0 := by simp [coefficient, none]
      rw [zero, here]
      ring
  · exact valueAt_insert expression assignment symbol value

omit expression in
theorem valueAt_ofSymbol (symbol : Symbol) (value : K) :
    (ofSymbol symbol value).valueAt assignment = value * assignment symbol := by
  refine (valueAt_setTerm (ofConstant 0) assignment symbol value).trans ?_
  have absent : (ofConstant (0 : K)).coefficient symbol = 0 := rfl
  rw [valueAt_ofConstant, absent]
  ring

omit expression in
theorem valueAt_ofVariable (unknown : Variable) :
    (ofVariable unknown : Expression K).valueAt assignment = assignment unknown.symbol :=
  (valueAt_ofSymbol assignment unknown.symbol 1).trans (one_mul _)

theorem valueAt_addTerms (factor : K) (added : List (Symbol × K)) :
    (addTerms factor added expression).1.valueAt assignment =
      expression.valueAt assignment +
        (added.map fun entry => entry.2 * assignment entry.1).sum * factor := by
  induction added generalizing expression with
  | nil => simp [addTerms]
  | cons entry rest ih =>
    simp only [addTerms, ih, valueAt_addTerm, List.map_cons, List.sum_cons]
    ring

theorem valueAt_addScaled (other : Expression K) (factor : K) :
    (expression.addScaled other factor).valueAt assignment =
      expression.valueAt assignment + other.valueAt assignment * factor := by
  unfold addScaled addScaledReporting
  rw [valueAt_addTerms, valueAt_increaseConstant]
  simp only [valueAt, Table.total]
  ring

theorem valueAt_substitute (symbol : Symbol) (replacement : Expression K) :
    (expression.substitute symbol replacement).valueAt assignment =
      expression.valueAt assignment + expression.coefficient symbol *
        (replacement.valueAt assignment - assignment symbol) := by
  unfold substitute substituteReporting?
  cases found : expression.terms.get? symbol with
  | none =>
    have here : expression.coefficient symbol = 0 := by simp [coefficient, found]
    simp [here]
  | some value =>
    have here : expression.coefficient symbol = value := by simp [coefficient, found]
    have added := valueAt_addScaled (expression.removeTerm symbol) assignment replacement value
    simp only [Option.map_some, Option.getD_some]
    refine added.trans ?_
    rw [valueAt_removeTerm, here]
    ring

omit [LinearOrder K] in
theorem valueAt_congr {other : Symbol → K}
    (same : ∀ symbol ∈ expression.symbols, assignment symbol = other symbol) :
    expression.valueAt assignment = expression.valueAt other := by
  unfold valueAt
  congr 1
  refine Table.total_congr fun entry member => ?_
  rw [same entry.1 (mem_symbols_of_mem_entries member)]

omit [LinearOrder K] in
theorem valueAt_update (symbol : Symbol) (value : K) :
    expression.valueAt (Function.update assignment symbol value) =
      expression.valueAt assignment + expression.coefficient symbol * (value - assignment symbol) := by
  have still := expression.valueAt_removeTerm assignment symbol
  have moved := expression.valueAt_removeTerm (Function.update assignment symbol value) symbol
  have apart : (expression.removeTerm symbol).valueAt (Function.update assignment symbol value) =
      (expression.removeTerm symbol).valueAt assignment := by
    refine valueAt_congr _ _ fun other member => Function.update_of_ne ?_ _ _
    exact ((expression.mem_symbols_removeTerm symbol other).mp member).1
  rw [apart, Function.update_self] at moved
  linear_combination still - moved

omit [LinearOrder K] in
theorem valueAt_zero : (expression.valueAt fun _ => 0) = expression.constant := by
  simp [valueAt, Table.total]

omit [LinearOrder K] in
theorem coefficient_eq_zero {symbol : Symbol} (missing : symbol ∉ expression.symbols) :
    expression.coefficient symbol = 0 := by
  simp [coefficient, (expression.not_mem_symbols_iff symbol).mp missing]

omit [LinearOrder K] expression in
theorem mem_symbols_of_coefficient {expression : Expression K} {symbol : Symbol}
    (nonzero : expression.coefficient symbol ≠ 0) : symbol ∈ expression.symbols := by
  by_contra missing
  exact nonzero (expression.coefficient_eq_zero missing)

omit [LinearOrder K] expression in
theorem coefficient_of_mem_entries {expression : Expression K} {symbol : Symbol} {value : K}
    (member : (symbol, value) ∈ expression.terms.entries) :
    expression.coefficient symbol = value := by
  simp [coefficient, (expression.terms.mem_entries_iff symbol value).mp member]

end Values

section Solving

variable {expression solved : Expression K} {assignment : Symbol → K}

omit [LinearOrder K] in
theorem valueAt_solveFor {subject : Symbol} {reciprocal : K}
    (solves : expression.solveFor? subject = some (reciprocal, solved))
    (nonzero : expression.coefficient subject ≠ 0) :
    expression.valueAt assignment = expression.coefficient subject *
      (assignment subject - solved.valueAt assignment) := by
  obtain ⟨value, found, same⟩ := Option.map_eq_some_iff.mp solves
  cases same
  have here : expression.coefficient subject = value := by simp [coefficient, found]
  rw [here] at nonzero
  rw [valueAt_times, valueAt_removeTerm, here]
  field_simp
  ring

theorem valueAt_exchange (assignment : Symbol → K) {leaving entering : Symbol}
    (solves : expression.exchange? leaving entering = some solved)
    (missing : leaving ∉ expression.symbols) (nonzero : expression.coefficient entering ≠ 0) :
    expression.coefficient entering * (solved.valueAt assignment - assignment entering) =
      assignment leaving - expression.valueAt assignment := by
  obtain ⟨⟨reciprocal, partly⟩, solvesFor, same⟩ := Option.map_eq_some_iff.mp solves
  cases same
  have fresh : leaving ∉ partly.symbols := fun member =>
    missing ((mem_symbols_solveFor solvesFor leaving).mp member).2
  have inverse : expression.coefficient entering * reciprocal = 1 := by
    obtain ⟨value, found, same⟩ := Option.map_eq_some_iff.mp solvesFor
    cases same
    have here : expression.coefficient entering = value := by simp [coefficient, found]
    rw [here] at nonzero ⊢
    exact mul_one_div_cancel nonzero
  rw [valueAt_setTerm, coefficient_eq_zero partly fresh, valueAt_solveFor solvesFor nonzero]
  linear_combination assignment leaving * inverse

end Solving

/-! Coefficients that are kept are not zero. -/

section Pruned

omit [LinearOrder K] in
def Pruned (expression : Expression K) : Prop :=
  ∀ symbol value, expression.terms.get? symbol = some value → value ≠ 0

variable {expression : Expression K}

omit [LinearOrder K] in
theorem Pruned.coefficient_ne_zero (pruned : expression.Pruned) {symbol : Symbol}
    (member : symbol ∈ expression.symbols) : expression.coefficient symbol ≠ 0 := by
  obtain ⟨value, found⟩ := (expression.mem_symbols_iff symbol).mp member
  simpa [coefficient, found] using pruned symbol value found

omit [LinearOrder K] in
theorem pruned_ofConstant (value : K) : (ofConstant value).Pruned := nofun

omit [LinearOrder K] in
theorem Pruned.withConstant (pruned : expression.Pruned) (value : K) :
    (expression.withConstant value).Pruned := pruned

omit [LinearOrder K] in
theorem Pruned.removeTerm (pruned : expression.Pruned) (symbol : Symbol) :
    (expression.removeTerm symbol).Pruned := by
  intro other value found
  refine pruned other value ?_
  have lookup := Table.get?_swapErase expression.terms symbol other
  rw [show (expression.terms.swapErase symbol).get? other = some value from found] at lookup
  split at lookup
  · cases lookup
  · exact lookup.symm

theorem Pruned.of_keepsNegligible {changed : Expression K} (pruned : expression.Pruned)
    (lingered : ∀ symbol, changed.KeepsNegligible symbol → expression.KeepsNegligible symbol) :
    changed.Pruned := by
  intro symbol value found zero
  have vanishes : Scalar.negligible value = true := decide_eq_true zero
  obtain ⟨old, was, vanished⟩ := lingered symbol ⟨value, found, vanishes⟩
  exact pruned symbol old was (of_decide_eq_true vanished)

theorem Pruned.addTerm (pruned : expression.Pruned) (symbol : Symbol) (amount : K) :
    (expression.addTerm symbol amount).1.Pruned :=
  pruned.of_keepsNegligible fun other remains =>
    ((expression.keepsNegligible_addTerm symbol other amount).mp remains).2

theorem Pruned.setTerm (pruned : expression.Pruned) (symbol : Symbol) (value : K) :
    (expression.setTerm symbol value).1.Pruned :=
  pruned.of_keepsNegligible fun other remains =>
    ((expression.keepsNegligible_setTerm symbol other value).mp remains).2

omit [LinearOrder K] in
theorem Pruned.times (pruned : expression.Pruned) {factor : K} (nonzero : factor ≠ 0) :
    (expression.times factor).Pruned := by
  intro symbol value found
  have lookup := Table.get?_mapValues expression.terms (· * factor) symbol
  rw [show (expression.terms.mapValues (· * factor)).get? symbol = some value from found] at lookup
  obtain ⟨old, was, same⟩ := Option.map_eq_some_iff.mp lookup.symm
  rw [← same]
  exact mul_ne_zero (pruned symbol old was) nonzero

theorem Pruned.addScaled (pruned : expression.Pruned) (other : Expression K) (factor : K) :
    (expression.addScaled other factor).Pruned :=
  pruned.of_keepsNegligible fun symbol remains =>
    ((keepsNegligible_addScaled symbol expression other factor).mp remains).2

theorem Pruned.substitute (pruned : expression.Pruned) (symbol : Symbol)
    (replacement : Expression K) : (expression.substitute symbol replacement).Pruned := by
  by_cases occurs : symbol ∈ expression.symbols
  · obtain ⟨value, found⟩ := (expression.mem_symbols_iff symbol).mp occurs
    exact pruned.of_keepsNegligible fun other remains =>
      ((keepsNegligible_substitute other expression replacement found).mp remains).2.2
  · rwa [substitute_of_not_mem occurs]

omit [LinearOrder K] in
theorem Pruned.solveFor (pruned : expression.Pruned) {subject : Symbol} {reciprocal : K}
    {solved : Expression K} (solves : expression.solveFor? subject = some (reciprocal, solved)) :
    solved.Pruned := by
  obtain ⟨value, found, same⟩ := Option.map_eq_some_iff.mp solves
  cases same
  exact (pruned.removeTerm subject).times
    (neg_ne_zero.mpr (one_div_ne_zero (pruned subject value found)))

theorem Pruned.exchange (pruned : expression.Pruned) {leaving entering : Symbol}
    {solved : Expression K} (solves : expression.exchange? leaving entering = some solved) :
    solved.Pruned := by
  obtain ⟨⟨reciprocal, partly⟩, solvesFor, same⟩ := Option.map_eq_some_iff.mp solves
  cases same
  exact (pruned.solveFor solvesFor).setTerm leaving reciprocal

end Pruned

section Evaluating

omit [LinearOrder K]

theorem evaluate_eq_valueAt {expression : Expression K}
    (external : ∀ symbol ∈ expression.symbols, symbol.isExternal = true)
    {valueOf : Variable → K} {assignment : Symbol → K}
    (agrees : ∀ unknown : Variable, assignment unknown.symbol = valueOf unknown) :
    expression.evaluate valueOf = expression.valueAt assignment := by
  have folded : ∀ (products : List K) (start : K),
      products.foldl (· + ·) start = start + products.sum := by
    intro products
    induction products with
    | nil => simp
    | cons product rest ih =>
      intro start
      rw [List.foldl_cons, ih, List.sum_cons]
      ring
  have mapped : ∀ entries : List (Symbol × K), (∀ entry ∈ entries, entry.1.isExternal = true) →
      (entries.filterMap fun entry => entry.1.unknown?.map fun unknown => entry.2 * valueOf unknown) =
        entries.map fun entry => entry.2 * assignment entry.1 := by
    intro entries
    induction entries with
    | nil => simp
    | cons entry rest ih =>
      intro allExternal
      have isExternal := allExternal entry List.mem_cons_self
      have named : assignment entry.1 = valueOf ⟨entry.1.id⟩ := by
        rw [← agrees]
        congr 1
        rcases entry with ⟨⟨id, kind⟩, value⟩
        cases kind <;> first | rfl | cases isExternal
      rw [List.filterMap_cons, List.map_cons,
        ih fun later member => allExternal later (List.mem_cons_of_mem entry member)]
      simp [Symbol.unknown?, isExternal, named]
  unfold evaluate valueAt Table.total
  dsimp only
  rw [folded, mapped _ fun entry member => external _ (mem_symbols_of_mem_entries member)]
  ring

end Evaluating

end Expression

end SoftSimplex
