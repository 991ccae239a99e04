import Mathlib.Data.Finset.Powerset
import Mathlib.Data.Option.Basic
import SoftSimplex.Proofs.Feasible
import SoftSimplex.Proofs.Linkage

/-!
Which symbols are basic decides the rest. Of two linked tableaus with the same basic symbols and the
same solutions every row has the same constant and the same coefficients, in whatever order its
terms stand. A pivot keeps the solutions and exchanges one basic symbol, among those that are there.
-/

namespace SoftSimplex

variable {K : Type} [Field K]

namespace Expression

structure Coincides (left right : Expression K) : Prop where
  constant : left.constant = right.constant
  coefficient : ∀ symbol, left.coefficient symbol = right.coefficient symbol

theorem coincides_of_valueAt {left right : Expression K}
    (same : ∀ assignment, left.valueAt assignment = right.valueAt assignment) :
    left.Coincides right := by
  have constant : left.constant = right.constant := by
    simpa only [valueAt_zero] using same fun _ => 0
  refine ⟨constant, fun symbol => ?_⟩
  have raised := same (Function.update (fun _ => 0) symbol 1)
  rw [Tableau.valueAt_update_one, Tableau.valueAt_update_one, constant] at raised
  exact add_left_cancel raised

end Expression

namespace Tableau

variable {before after left right tableau : Tableau K} {entering leaving : Symbol}

/-- Every row holds as the equation `basic = row`, objectives included. -/
def SolvesAll (tableau : Tableau K) (assignment : Symbol → K) : Prop :=
  ∀ basic row, tableau.row? basic = some row → assignment basic = row.valueAt assignment

def Coincides (left right : Tableau K) : Prop :=
  ∀ basic, Option.Rel Expression.Coincides (left.row? basic) (right.row? basic)

omit [Field K] in
theorem Linked.not_basic_of_mem (linked : tableau.Linked) {symbol basic : Symbol}
    {row : Expression K} (found : tableau.row? basic = some row) (member : symbol ∈ row.symbols) :
    tableau.isBasic symbol = false :=
  linked.parametric symbol basic ⟨row, found, member⟩

/-! Rows from the basic symbols -/

section Deciding

theorem Linked.solvesAll_completed (linked : tableau.Linked) (parametric : Symbol → K) :
    tableau.SolvesAll (tableau.completed parametric) := by
  intro basic row found
  rw [valueAt_completed fun _ member => linked.not_basic_of_mem found member]
  simp only [completed, found]

theorem Linked.row?_coincides (leftLinked : left.Linked) (rightLinked : right.Linked)
    (basics : ∀ symbol, left.isBasic symbol = right.isBasic symbol) {basic : Symbol}
    (follows : ∀ assignment, left.SolvesAll assignment → ∀ row, right.row? basic = some row →
      assignment basic = row.valueAt assignment) :
    Option.Rel Expression.Coincides (left.row? basic) (right.row? basic) := by
  have same := basics basic
  cases leftRow : left.row? basic with
  | none =>
    rw [(left.not_isBasic_iff basic).mpr leftRow] at same
    rw [(right.not_isBasic_iff basic).mp same.symm]
    exact .none
  | some row =>
    rw [isBasic_of_row? leftRow] at same
    obtain ⟨other, rightRow⟩ := (right.isBasic_iff basic).mp same.symm
    rw [rightRow]
    refine .some (Expression.coincides_of_valueAt fun parametric => ?_)
    have solution := leftLinked.solvesAll_completed parametric
    have first := solution basic row leftRow
    have second := follows _ solution other rightRow
    rw [valueAt_completed fun _ member => leftLinked.not_basic_of_mem leftRow member] at first
    rw [valueAt_completed fun symbol member =>
      (basics symbol).trans (rightLinked.not_basic_of_mem rightRow member)] at second
    exact first.symm.trans second

/-- With the same basic symbols there is one way to write the rows, up to the order of terms. -/
theorem Linked.coincides (leftLinked : left.Linked) (rightLinked : right.Linked)
    (basics : ∀ symbol, left.isBasic symbol = right.isBasic symbol)
    (solves : ∀ assignment, left.SolvesAll assignment → right.SolvesAll assignment) :
    left.Coincides right := fun basic =>
  leftLinked.row?_coincides rightLinked basics fun assignment solution row found =>
    solves assignment solution basic row found

/-- Objectives apart, the rows are those that a system has for these basic symbols: they have its
solutions, and so has no other way to write rows for the same basic symbols. -/
structure RowsFor (tableau : Tableau K) (system : (Symbol → K) → Prop) : Prop where
  solves : ∀ assignment, tableau.Solves assignment ↔ system assignment
  unique : ∀ other : Tableau K, other.Linked →
    (∀ symbol, other.isBasic symbol = tableau.isBasic symbol) →
    (∀ assignment, other.Solves assignment ↔ system assignment) →
    ∀ basic, basic.kind ≠ .objective →
      Option.Rel Expression.Coincides (tableau.row? basic) (other.row? basic)

theorem Linked.rowsFor {system : (Symbol → K) → Prop} (linked : tableau.Linked)
    (solves : ∀ assignment, tableau.Solves assignment ↔ system assignment) :
    tableau.RowsFor system := by
  refine ⟨solves, fun other otherLinked basics otherSolves basic notObjective => ?_⟩
  refine linked.row?_coincides otherLinked (fun symbol => (basics symbol).symm) ?_
  intro assignment solution row found
  have solved := (solves assignment).mp fun other equation isRow _ => solution other equation isRow
  exact (otherSolves assignment).mpr solved basic row found notObjective

theorem Coincides.basicSolution (coincides : left.Coincides right) (symbol : Symbol) :
    left.basicSolution symbol = right.basicSolution symbol := by
  have rows := coincides symbol
  unfold Tableau.basicSolution completed
  generalize left.row? symbol = leftRow, right.row? symbol = rightRow at rows ⊢
  cases rows with
  | none => rfl
  | some same =>
    simp only [Expression.valueAt_zero]
    exact same.constant

end Deciding

/-! The basic symbols -/

section Basis

variable (tableau)

omit [Field K]

def basis (tableau : Tableau K) : Finset Symbol := tableau.rows.keys.toFinset

def symbols (tableau : Tableau K) : Finset Symbol :=
  tableau.basis ∪ (tableau.rows.values.flatMap (·.symbols)).toFinset

def bases (tableau : Tableau K) : Finset (Finset Symbol) :=
  tableau.symbols.powersetCard tableau.basis.card

theorem mem_basis (symbol : Symbol) : symbol ∈ tableau.basis ↔ tableau.isBasic symbol = true := by
  rw [basis, List.mem_toFinset, isBasic, Table.contains_iff]

theorem mem_symbols (symbol : Symbol) : symbol ∈ tableau.symbols ↔
    tableau.isBasic symbol = true ∨ ∃ basic, tableau.Occurs symbol basic := by
  rw [symbols, Finset.mem_union, mem_basis, List.mem_toFinset, List.mem_flatMap]
  refine or_congr_right ⟨?_, ?_⟩
  · rintro ⟨row, listed, member⟩
    obtain ⟨entry, isEntry, rfl⟩ := List.mem_map.mp listed
    exact ⟨entry.1, entry.2, (tableau.rows.mem_entries_iff _ _).mp isEntry, member⟩
  · rintro ⟨basic, row, found, member⟩
    exact ⟨row, List.mem_map.mpr ⟨_, (tableau.rows.mem_entries_iff _ _).mpr found, rfl⟩, member⟩

variable {tableau}

theorem isBasic_eq_of_basis (same : left.basis = right.basis) (symbol : Symbol) :
    left.isBasic symbol = right.isBasic symbol := by
  rw [Bool.eq_iff_iff, ← mem_basis, ← mem_basis, same]

theorem mem_bases_of_subset (within : right.symbols ⊆ left.symbols)
    (size : right.basis.card = left.basis.card) : right.basis ∈ left.bases :=
  Finset.mem_powersetCard.mpr ⟨Finset.subset_union_left.trans within, size⟩

end Basis

/-! Pivots -/

section Pivoting

theorem Alike.solvesAll (alike : left.Alike right) (assignment : Symbol → K) :
    left.SolvesAll assignment ↔ right.SolvesAll assignment := by
  unfold SolvesAll
  simp only [alike.row?]

structure Rebases (before : Tableau K) (entering leaving : Symbol) (after : Tableau K) : Prop where
  linked : after.Linked
  solves : ∀ assignment, after.SolvesAll assignment ↔ before.SolvesAll assignment
  leaves : before.isBasic leaving = true
  enters : before.isBasic entering = false
  basics : ∀ symbol, after.isBasic symbol = true ↔
    symbol = entering ∨ symbol ≠ leaving ∧ before.isBasic symbol = true
  symbols : after.symbols ⊆ before.symbols

theorem Rebases.different (rebases : before.Rebases entering leaving after) :
    entering ≠ leaving := by
  rintro rfl
  have enters := rebases.enters
  rw [rebases.leaves] at enters
  cases enters

theorem Rebases.basis (rebases : before.Rebases entering leaving after) :
    after.basis = insert entering (before.basis.erase leaving) := by
  ext symbol
  rw [mem_basis, rebases.basics, Finset.mem_insert, Finset.mem_erase, mem_basis]

theorem Rebases.card_basis (rebases : before.Rebases entering leaving after) :
    after.basis.card = before.basis.card := by
  have leaves : leaving ∈ before.basis := (before.mem_basis leaving).mpr rebases.leaves
  have enters : entering ∉ before.basis.erase leaving := by
    intro member
    have isBasic := (before.mem_basis entering).mp (Finset.mem_of_mem_erase member)
    rw [rebases.enters] at isBasic
    cases isBasic
  rw [rebases.basis, Finset.card_insert_of_notMem enters, Finset.card_erase_add_one leaves]

omit [Field K] in
theorem Alike.symbols (alike : left.Alike right) : left.symbols = right.symbols := by
  unfold Tableau.symbols Tableau.basis
  rw [alike.rows]

theorem Rebases.of_alike {twin : Tableau K} (rebases : left.Rebases entering leaving twin)
    (alike : before.Alike left) (echo : after.Alike twin) :
    before.Rebases entering leaving after where
  linked := echo.linked rebases.linked
  solves assignment := by
    rw [echo.solvesAll, alike.solvesAll]
    exact rebases.solves assignment
  leaves := (alike.isBasic leaving).trans rebases.leaves
  enters := (alike.isBasic entering).trans rebases.enters
  basics symbol := by
    rw [echo.isBasic, alike.isBasic]
    exact rebases.basics symbol
  symbols := by
    rw [echo.symbols, alike.symbols]
    exact rebases.symbols

variable [LinearOrder K] {row solved : Expression K}

theorem Pivots.symbols_subset (pivots : before.Pivots entering leaving row solved after) :
    after.symbols ⊆ before.symbols := by
  have leavingThere : leaving ∈ before.symbols :=
    (before.mem_symbols leaving).mpr (Or.inl (isBasic_of_row? pivots.leaves))
  have rowThere : ∀ {basic other symbol}, before.row? basic = some other →
      symbol ∈ other.symbols → symbol ∈ before.symbols := fun found member =>
    (before.mem_symbols _).mpr (Or.inr ⟨_, _, found, member⟩)
  have solvedThere : ∀ symbol ∈ solved.symbols, symbol ∈ before.symbols :=
    Expression.forall_symbols_exchange pivots.solves leavingThere fun _ => rowThere pivots.leaves
  intro symbol member
  rcases (after.mem_symbols symbol).mp member with isBasic | ⟨basic, next, found, inNext⟩
  · rcases (pivots.isBasic_after symbol).mp isBasic with rfl | ⟨_, earlier⟩
    · exact rowThere pivots.leaves pivots.mem
    · exact (before.mem_symbols symbol).mpr (Or.inl earlier)
  · rcases pivots.row_cases found with ⟨rfl, rfl⟩ | ⟨_, _, old, was, rfl⟩
    · exact solvedThere symbol inNext
    · exact Expression.forall_symbols_substitute entering (fun _ => rowThere was) solvedThere symbol
        inNext

theorem Pivots.rebases (pivots : before.Pivots entering leaving row solved after)
    (indexed : before.Indexed) (nonzero : row.coefficient entering ≠ 0) :
    before.Rebases entering leaving after where
  linked := pivots.indexed.linked
  solves assignment := by
    have equations := pivots.equations_iff assignment indexed nonzero (fun _ => True) trivial
      trivial
    simp only [forall_const] at equations
    exact equations
  leaves := isBasic_of_row? pivots.leaves
  enters := indexed.not_basic_of_mem pivots.leaves pivots.mem
  basics := pivots.isBasic_after
  symbols := pivots.symbols_subset

end Pivoting

end Tableau

end SoftSimplex
