import SoftSimplex.Proofs.Adding

/-!
Constraints that are not required always find a basic symbol at once. Of the numbers this asks only
what the coefficients of the error symbols need: one and minus one.
-/

namespace SoftSimplex

variable {K : Type} [Zero K] [One K] [Add K] [Neg K] [Mul K] [LT K] [DecidableLT K]
  [Scalar K]

/-- One and minus one count, minus one is negative, and turning an equation around makes the one
the other. -/
structure Scalar.Units (K : Type) [Zero K] [One K] [Neg K] [Mul K] [LT K] [Scalar K] : Prop where
  one_kept : Scalar.negligible (1 : K) = false
  minus_kept : Scalar.negligible (-1 : K) = false
  minus_negative : (-1 : K) < 0
  one_turned : (1 : K) * -1 = -1

omit [Zero K] [One K] [Add K] [Neg K] [Mul K] [LT K] [DecidableLT K] in
theorem Expression.get?_setTerm (expression : Expression K) (symbol other : Symbol) {value : K}
    (kept : Scalar.negligible value = false) :
    (expression.setTerm symbol value).1.terms.get? other =
      if symbol = other then some value else expression.terms.get? other := by
  unfold setTerm
  rw [kept, if_neg Bool.false_ne_true]
  exact Table.get?_insert ..

namespace Solver

variable {before : Solver K} {constraint : Constraint K} {fault : Fault}

theorem ready_of_soft (units : Scalar.Units K) (fits : before.tableau.Fits before.nextId)
    (soft : constraint.isRequired = false) :
    before.tableau.readySubject? (before.equationFor constraint).row ≠ none := by
  intro notReady
  have refused := Tableau.restricted_of_not_ready notReady
  have suitable : ∀ id, before.nextId ≤ id → before.tableau.SuitableSubject (⟨id, .slack⟩, -1) := by
    intro id later
    refine ⟨rfl, units.minus_negative, ?_⟩
    have noColumn : before.tableau.hasColumn ⟨id, .slack⟩ = false :=
      (fits.fresh later (by simp [Symbol.mainObjective]) rfl).2
    have missing : before.tableau.columns.get? ⟨id, .slack⟩ = none := by
      rw [← Table.not_mem_keys_iff, ← Table.contains_iff]
      simpa [Tableau.hasColumn] using noColumn
    unfold Tableau.isUnused
    rw [missing]
  have raw : ∀ symbol, ((before.tableau.rawEquation before.nextId constraint.toDemand).row.terms.get?
      symbol) = if (⟨before.nextId + 1, .slack⟩ : Symbol) = symbol then some 1
        else if (⟨before.nextId, .slack⟩ : Symbol) = symbol then some (-1)
        else (before.tableau.reduce constraint.expression).terms.get? symbol := by
    intro symbol
    unfold Tableau.rawEquation
    rw [show constraint.isRequired = false from soft]
    cases constraint.isInequality <;>
      rw [Expression.get?_setTerm _ _ _ units.one_kept,
        Expression.get?_setTerm _ _ _ units.minus_kept]
  by_cases negative : (before.tableau.rawEquation before.nextId constraint.toDemand).row.constant < 0
  · have row : (before.equationFor constraint).row =
        (before.tableau.rawEquation before.nextId constraint.toDemand).row.times (-1) := by
      simp only [equationFor, Tableau.equationOf, negative, if_true]
    have entry : ((⟨before.nextId + 1, .slack⟩ : Symbol), (-1 : K)) ∈
        (before.equationFor constraint).row.terms.entries := by
      rw [Table.mem_entries_iff, row]
      refine (Table.get?_mapValues _ _ _).trans ?_
      rw [raw, if_pos rfl, Option.map_some, units.one_turned]
    exact (refused _ entry).2 (suitable _ (Nat.le_succ _))
  · have row : (before.equationFor constraint).row =
        (before.tableau.rawEquation before.nextId constraint.toDemand).row := by
      simp only [equationFor, Tableau.equationOf, negative, if_false]
    have entry : ((⟨before.nextId, .slack⟩ : Symbol), (-1 : K)) ∈
        (before.equationFor constraint).row.terms.entries := by
      rw [Table.mem_entries_iff, row, raw, if_neg (by simp), if_pos rfl]
    exact (refused _ entry).2 (suitable _ (Nat.le_refl _))

theorem placement_of_soft (units : Scalar.Units K) (fits : before.tableau.Fits before.nextId)
    (soft : constraint.isRequired = false) :
    ∃ subject, before.tableau.choosePlacement? (before.equationFor constraint).row =
      some (.direct subject (before.equationFor constraint).row) := by
  unfold Tableau.choosePlacement?
  cases ready : before.tableau.readySubject? (before.equationFor constraint).row with
  | none => exact absurd ready (ready_of_soft units fits soft)
  | some subject => exact ⟨subject, rfl⟩

omit [Zero K] [One K] [Add K] [Neg K] [Mul K] [LT K] [DecidableLT K] [Scalar K] in
theorem objection_cases (objects : before.objection? constraint = some fault) :
    fault = .duplicateConstraint ∨ (∃ unknown, fault = .requiredEditVariable unknown) ∨
      ∃ unknown, fault = .duplicateEditVariable unknown := by
  unfold objection? at objects
  split at objects
  · exact Or.inl (Option.some.inj objects).symm
  · split at objects
    · rename_i unknown _
      split at objects
      · exact Or.inr (Or.inl ⟨unknown, (Option.some.inj objects).symm⟩)
      · split at objects
        · exact Or.inr (Or.inr ⟨unknown, (Option.some.inj objects).symm⟩)
        · cases objects
    · cases objects

omit [Zero K] [One K] [Add K] [Neg K] [Mul K] [LT K] [DecidableLT K] [Scalar K] in
theorem edit_of_unobjected {unknown : Variable} (isEdit : constraint.kind = .edit unknown)
    (unobjected : before.objection? constraint = none) :
    constraint.isRequired = false ∧ before.edits.contains unknown = false := by
  unfold objection? at unobjected
  split at unobjected
  · cases unobjected
  · simp only [isEdit] at unobjected
    split at unobjected
    · cases unobjected
    · rename_i soft
      split at unobjected
      · cases unobjected
      · rename_i free
        exact ⟨Bool.eq_false_iff.mpr soft, Bool.eq_false_iff.mpr free⟩

theorem AddFails.unbounded_of_soft [Div K] {after : Solver K} (units : Scalar.Units K)
    (fits : before.tableau.Fits before.nextId) (fails : before.AddFails constraint fault after)
    (unobjected : before.objection? constraint = none) (soft : constraint.isRequired = false) :
    fault = .internal .objectiveUnbounded := by
  obtain ⟨subject, direct⟩ := placement_of_soft units fits soft
  cases fails with
  | objected objects => cases unobjected.symm.trans objects
  | contradicted _ noPlace => cases direct.symm.trans noPlace
  | refused _ chosen _ => cases direct.symm.trans chosen
  | unbounded _ _ _ => rfl

theorem AddFails.not_refused [Div K] {after : Solver K} (units : Scalar.Units K)
    (fits : before.tableau.Fits before.nextId) (fails : before.AddFails constraint fault after)
    (soft : before.objection? constraint = none → constraint.isRequired = false) :
    fault ≠ .requiredFailure := by
  by_cases unobjected : before.objection? constraint = none
  · rw [fails.unbounded_of_soft units fits unobjected (soft unobjected)]
    exact nofun
  · cases fails with
    | objected objects =>
      rcases objection_cases objects with rfl | ⟨unknown, rfl⟩ | ⟨unknown, rfl⟩ <;> exact nofun
    | contradicted free _ => exact absurd free unobjected
    | refused free _ _ => exact absurd free unobjected
    | unbounded installs _ _ => exact absurd installs.unobjected unobjected

end Solver

end SoftSimplex
