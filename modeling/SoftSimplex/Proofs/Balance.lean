import SoftSimplex.Proofs.Adding
import SoftSimplex.Proofs.Restating

/-!
The equation of a constraint over exact numbers. What the expression of a constraint is worth is
balanced by the symbols made for it: a slack, a dummy, or two error symbols of opposite sign.
-/

namespace SoftSimplex

section Balance

variable {K : Type} [Field K]

/-- What the symbols made for a constraint say its expression is worth. -/
def Installed.balance (entry : Installed K) (assignment : Symbol → K) : K :=
  if entry.constraint.isRequired then
    if entry.constraint.isInequality then assignment entry.marker else -assignment entry.marker
  else assignment entry.marker - assignment entry.error

theorem Installed.balance_congr {entry : Installed K} {assignment other : Symbol → K}
    (same : ∀ symbol ∈ entry.symbols, assignment symbol = other symbol) :
    entry.balance assignment = entry.balance other := by
  have marker := same entry.marker entry.marker_mem_symbols
  unfold balance
  split
  · rw [marker]
  · rename_i soft
    rw [marker, same entry.error (Installed.error_mem_symbols (by simpa using soft))]

theorem Installed.balance_update {entry : Installed K} {symbol : Symbol}
    (missing : symbol ∉ entry.symbols) (assignment : Symbol → K) (value : K) :
    entry.balance (Function.update assignment symbol value) = entry.balance assignment := by
  refine balance_congr fun other member => Function.update_of_ne ?_ _ _
  rintro rfl
  exact missing member

end Balance

namespace Tableau

variable {K : Type} [Field K] [LinearOrder K] {tableau : Tableau K}

section Reducing

theorem valueAt_addReduced {assignment : Symbol → K} (solves : tableau.Solves assignment)
    (row : Expression K) {entry : Symbol × K} (notObjective : entry.1.kind ≠ .objective) :
    (tableau.addReduced row entry).valueAt assignment =
      row.valueAt assignment + entry.2 * assignment entry.1 := by
  unfold addReduced
  split
  · rename_i definition found
    rw [Expression.valueAt_addScaled, ← solves entry.1 definition found notObjective]
    ring
  · exact row.valueAt_addTerm assignment entry.1 entry.2

theorem valueAt_foldl_addReduced {assignment : Symbol → K} (solves : tableau.Solves assignment)
    (row : Expression K) {entries : List (Symbol × K)}
    (notObjective : ∀ entry ∈ entries, entry.1.kind ≠ .objective) :
    (entries.foldl tableau.addReduced row).valueAt assignment =
      row.valueAt assignment + (entries.map fun entry => entry.2 * assignment entry.1).sum := by
  induction entries generalizing row with
  | nil => simp
  | cons entry rest ih =>
    rw [List.foldl_cons, ih _ fun later member => notObjective later (List.mem_cons_of_mem entry
      member), valueAt_addReduced solves row (notObjective entry List.mem_cons_self), List.map_cons,
      List.sum_cons]
    ring

theorem valueAt_reduce {assignment : Symbol → K} (solves : tableau.Solves assignment)
    {expression : Expression K}
    (external : ∀ symbol ∈ expression.symbols, symbol.isExternal = true) :
    (tableau.reduce expression).valueAt assignment = expression.valueAt assignment := by
  unfold reduce
  rw [valueAt_foldl_addReduced solves, Expression.valueAt_ofConstant]
  · rfl
  · intro entry member
    have isExternal := external entry.1 (Expression.mem_symbols_of_mem_entries member)
    exact Symbol.kind_ne_of_external isExternal rfl

theorem pruned_foldl_addReduced (tableau : Tableau K) {row : Expression K} (pruned : row.Pruned)
    (entries : List (Symbol × K)) : (entries.foldl tableau.addReduced row).Pruned := by
  induction entries generalizing row with
  | nil => exact pruned
  | cons entry rest ih =>
    refine ih ?_
    unfold addReduced
    split
    · exact pruned.addScaled _ _
    · exact pruned.addTerm _ _

theorem pruned_reduce (tableau : Tableau K) (expression : Expression K) :
    (tableau.reduce expression).Pruned :=
  tableau.pruned_foldl_addReduced (Expression.pruned_ofConstant _) _

end Reducing

section Forming

variable {start : Nat} {constraint : Constraint K}

theorem pruned_rawEquation (tableau : Tableau K) (start : Nat) (demand : Demand K) :
    (tableau.rawEquation start demand).row.Pruned := by
  have reduced := tableau.pruned_reduce demand.expression
  unfold rawEquation
  cases demand.isInequality <;> cases demand.isRequired
  · exact (reduced.setTerm _ _).setTerm _ _
  · exact reduced.setTerm _ _
  · exact (reduced.setTerm _ _).setTerm _ _
  · exact reduced.setTerm _ _

theorem pruned_equationOf (tableau : Tableau K) (start : Nat) (demand : Demand K) :
    (tableau.equationOf start demand).row.Pruned := by
  unfold equationOf
  dsimp only
  split
  · exact (tableau.pruned_rawEquation start demand).times (neg_ne_zero.mpr one_ne_zero)
  · exact tableau.pruned_rawEquation start demand

theorem not_mem_reduce (fits : tableau.Fits start) (external : constraint.External)
    {symbol : Symbol} (later : start ≤ symbol.id) (kind : symbol.kind = .slack ∨ symbol.kind = .dummy) :
    symbol ∉ (tableau.reduce constraint.expression).symbols := by
  intro member
  rcases (mem_symbols_of_reduce fits.indexed member).2 with mentioned | column
  · have isExternal := external symbol mentioned
    rcases kind with kind | kind <;> exact Symbol.kind_ne_of_external isExternal rfl kind
  · rcases fits.known_of_column column with isExternal | ⟨_, earlier⟩
    · rcases kind with kind | kind <;> exact Symbol.kind_ne_of_external isExternal rfl kind
    · omega

theorem valueAt_rawEquation (fits : tableau.Fits start) (external : constraint.External)
    {assignment : Symbol → K} (solves : tableau.Solves assignment) :
    (tableau.rawEquation start constraint.toDemand).row.valueAt assignment =
      constraint.expression.valueAt assignment -
        (⟨constraint, ⟨start, constraint.markerKind⟩⟩ : Installed K).balance assignment := by
  have reduced := valueAt_reduce solves external
  have slackMissing : (tableau.reduce constraint.expression).coefficient ⟨start, .slack⟩ = 0 :=
    Expression.coefficient_eq_zero _
      (not_mem_reduce fits external (Nat.le_refl start) (Or.inl rfl))
  have dummyMissing : (tableau.reduce constraint.expression).coefficient ⟨start, .dummy⟩ = 0 :=
    Expression.coefficient_eq_zero _
      (not_mem_reduce fits external (Nat.le_refl start) (Or.inr rfl))
  have errorMissing : (((tableau.reduce constraint.expression).setTerm ⟨start, .slack⟩
      (-1)).1).coefficient ⟨start + 1, .slack⟩ = 0 := by
    refine Expression.coefficient_eq_zero _ fun member => ?_
    rcases Expression.mem_symbols_of_setTerm member with same | earlier
    · simp at same
    · exact not_mem_reduce fits external (Nat.le_succ start) (Or.inl rfl) earlier
  unfold rawEquation
  cases inequality : constraint.isInequality <;> cases required : constraint.isRequired <;>
    simp only [Expression.valueAt_setTerm, Installed.balance, Demand.markerKind, Installed.error,
      inequality, required, reduced, slackMissing, dummyMissing, errorMissing]
  · simp
    ring
  · simp
  · simp
    ring
  · simp
    ring

theorem equationOf_holds_iff (fits : tableau.Fits start) (external : constraint.External)
    {assignment : Symbol → K} (solves : tableau.Solves assignment) :
    (tableau.equationOf start constraint.toDemand).row.valueAt assignment = 0 ↔
      constraint.expression.valueAt assignment =
        (⟨constraint, ⟨start, constraint.markerKind⟩⟩ : Installed K).balance assignment := by
  have raw := valueAt_rawEquation fits external solves
  unfold equationOf
  dsimp only
  split
  · rw [Expression.valueAt_times, raw, mul_neg_one, neg_eq_zero, sub_eq_zero]
  · rw [raw, sub_eq_zero]

theorem equationOf_constant_nonneg [IsStrictOrderedRing K] (tableau : Tableau K) (start : Nat)
    (demand : Demand K) : 0 ≤ (tableau.equationOf start demand).row.constant := by
  unfold equationOf
  dsimp only
  split
  · rename_i negative
    simp only [Expression.times]
    linarith
  · rename_i notNegative
    exact not_lt.mp notNegative

end Forming

end Tableau

end SoftSimplex
