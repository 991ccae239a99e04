import SoftSimplex.Proofs.Symbols

/-!
Negligible coefficients after each operation, whatever the numbers are. Sums and assignments drop
the terms that they touch if they make them negligible, and leave the others as they are; scaling
drops none.
-/

namespace SoftSimplex

namespace Expression

variable {K : Type} [Scalar K]

def KeepsNegligible (expression : Expression K) (symbol : Symbol) : Prop :=
  ∃ value, expression.terms.get? symbol = some value ∧ Scalar.negligible value = true

def ScalesToNegligible [Mul K] (expression : Expression K) (factor : K) (symbol : Symbol) : Prop :=
  ∃ value, expression.terms.get? symbol = some value ∧ Scalar.negligible (value * factor) = true

/-- Wherever an expression shows its terms, no coefficient is negligible. -/
structure Clear [Zero K] (expression : Expression K) : Prop where
  contained : ∀ symbol, expression.contains symbol = true →
    Scalar.negligible (expression.coefficient symbol) = false
  listed : ∀ entry ∈ expression.terms.entries, Scalar.negligible entry.2 = false
  named : ∀ symbol ∈ expression.symbols,
    Scalar.negligible (expression.coefficient symbol) = false
  constant : expression.isConstant = false →
    ∃ symbol, Scalar.negligible (expression.coefficient symbol) = false
  pivotable : ∀ symbol, expression.firstPivotable? = some symbol →
    Scalar.negligible (expression.coefficient symbol) = false

theorem clear_iff [Zero K] (expression : Expression K) :
    expression.Clear ↔ ∀ symbol, ¬ expression.KeepsNegligible symbol := by
  constructor
  · rintro isClear symbol ⟨value, found, negligible⟩
    have kept := isClear.listed (symbol, value) ((expression.terms.mem_entries_iff ..).mpr found)
    exact Bool.false_ne_true (kept.symm.trans negligible)
  · intro noneKeepsNegligible
    have kept : ∀ {symbol value}, expression.terms.get? symbol = some value →
        Scalar.negligible value = false := by
      intro symbol value found
      exact Bool.eq_false_iff.mpr fun negligible =>
        noneKeepsNegligible symbol ⟨value, found, negligible⟩
    have named : ∀ symbol ∈ expression.symbols,
        Scalar.negligible (expression.coefficient symbol) = false := by
      intro symbol member
      obtain ⟨value, found⟩ := (expression.mem_symbols_iff symbol).mp member
      rw [coefficient, found]
      exact kept found
    constructor
    case contained =>
      intro symbol contains
      exact named symbol ((expression.contains_iff symbol).mp contains)
    case listed =>
      intro entry member
      exact kept ((expression.terms.mem_entries_iff entry.1 entry.2).mp member)
    case named => exact named
    case constant =>
      intro notConstant
      obtain ⟨entry, member⟩ := List.exists_mem_of_ne_nil expression.terms.entries
        (by simpa [isConstant, Table.isEmpty] using notConstant)
      exact ⟨entry.1, named entry.1 (mem_symbols_of_mem_entries member)⟩
    case pivotable =>
      intro symbol first
      exact named symbol (List.mem_of_find?_eq_some first)

/-! Single terms -/

section Terms

variable (expression : Expression K) (symbol other : Symbol)

theorem keepsNegligible_removeTerm :
    (expression.removeTerm symbol).KeepsNegligible other ↔ other ≠ symbol ∧
      expression.KeepsNegligible other := by
  unfold KeepsNegligible removeTerm
  simp only [Table.get?_swapErase]
  by_cases same : symbol = other
  · simp [same]
  · simp [same, Ne.symm same]

variable {expression symbol} in
theorem keepsNegligible_insert {value : K} (kept : ¬ Scalar.negligible value = true) :
    ({ expression with terms := expression.terms.insert symbol value } : Expression K).KeepsNegligible
        other ↔ other ≠ symbol ∧ expression.KeepsNegligible other := by
  unfold KeepsNegligible
  simp only [Table.get?_insert]
  by_cases same : symbol = other
  · simp [same, kept]
  · simp [same, Ne.symm same]

variable {expression symbol} in
theorem keepsNegligible_of_missing (missing : expression.terms.get? symbol = none) :
    expression.KeepsNegligible other ↔ other ≠ symbol ∧ expression.KeepsNegligible other := by
  refine ⟨fun remains => ⟨?_, remains⟩, fun both => both.2⟩
  rintro rfl
  obtain ⟨value, found, _⟩ := remains
  rw [missing] at found
  cases found

theorem keepsNegligible_addTerm [Add K] (amount : K) :
    (expression.addTerm symbol amount).1.KeepsNegligible other ↔
      other ≠ symbol ∧ expression.KeepsNegligible other := by
  unfold addTerm
  split
  · split
    · exact expression.keepsNegligible_removeTerm symbol other
    · rename_i kept
      exact keepsNegligible_insert other kept
  · rename_i missing
    split
    · exact keepsNegligible_of_missing other missing
    · rename_i kept
      exact keepsNegligible_insert other kept

theorem keepsNegligible_setTerm (value : K) :
    (expression.setTerm symbol value).1.KeepsNegligible other ↔
      other ≠ symbol ∧ expression.KeepsNegligible other := by
  unfold setTerm
  split
  · split
    · exact expression.keepsNegligible_removeTerm symbol other
    · rename_i missing
      refine keepsNegligible_of_missing other ?_
      exact (expression.not_mem_symbols_iff symbol).mp fun member =>
        missing ((expression.contains_iff symbol).mpr member)
  · rename_i kept
    exact keepsNegligible_insert other kept

end Terms

/-! Whole expressions -/

section Sums

variable [Add K] [Mul K] (symbol : Symbol)

theorem keepsNegligible_addTerms (factor : K) (added : List (Symbol × K)) (expression : Expression K) :
    (addTerms factor added expression).1.KeepsNegligible symbol ↔
      symbol ∉ added.map Prod.fst ∧ expression.KeepsNegligible symbol := by
  induction added generalizing expression with
  | nil => simp [addTerms]
  | cons entry rest ih =>
    refine (ih (expression.addTerm entry.1 (entry.2 * factor)).1).trans ?_
    rw [keepsNegligible_addTerm, List.map_cons, List.mem_cons, not_or, and_left_comm, and_assoc]

theorem keepsNegligible_addScaled (expression added : Expression K) (factor : K) :
    (expression.addScaled added factor).KeepsNegligible symbol ↔
      symbol ∉ added.symbols ∧ expression.KeepsNegligible symbol :=
  keepsNegligible_addTerms symbol factor added.terms.entries
    (expression.increaseConstant (added.constant * factor))

theorem keepsNegligible_substitute (expression replacement : Expression K) {replaced : Symbol}
    {value : K}
    (found : expression.terms.get? replaced = some value) :
    (expression.substitute replaced replacement).KeepsNegligible symbol ↔
      symbol ∉ replacement.symbols ∧ symbol ≠ replaced ∧ expression.KeepsNegligible symbol := by
  have same : expression.substitute replaced replacement =
      (expression.removeTerm replaced).addScaled replacement value := by
    simp only [substitute, substituteReporting?, found, Option.map_some, Option.getD_some,
      addScaled]
  rw [same, keepsNegligible_addScaled, keepsNegligible_removeTerm]

end Sums

section Scaling

variable [Mul K] (expression : Expression K) (symbol : Symbol)

theorem keepsNegligible_times (factor : K) :
    (expression.times factor).KeepsNegligible symbol ↔ expression.ScalesToNegligible factor symbol := by
  have scaled := expression.terms.get?_mapValues (· * factor) symbol
  constructor
  · rintro ⟨_, found, negligible⟩
    obtain ⟨value, was, rfl⟩ := Option.map_eq_some_iff.mp (scaled.symm.trans found)
    exact ⟨value, was, negligible⟩
  · rintro ⟨value, found, negligible⟩
    rw [found] at scaled
    exact ⟨value * factor, scaled, negligible⟩

variable {expression} [One K] [Neg K] [Div K]

theorem keepsNegligible_solveFor {subject : Symbol} {value : K}
    (found : expression.terms.get? subject = some value) :
    ∃ reciprocal solved, expression.solveFor? subject = some (reciprocal, solved) ∧
      (solved.KeepsNegligible symbol ↔ symbol ≠ subject ∧
        expression.ScalesToNegligible (-(1 / value)) symbol) := by
  refine ⟨1 / value, (expression.removeTerm subject).times (-(1 / value)), by
    simp only [solveFor?, found, Option.map_some], ?_⟩
  rw [keepsNegligible_times]
  unfold ScalesToNegligible removeTerm
  simp only [Table.get?_swapErase]
  by_cases same : subject = symbol
  · simp [same]
  · simp [same, Ne.symm same]

end Scaling

end Expression

end SoftSimplex
