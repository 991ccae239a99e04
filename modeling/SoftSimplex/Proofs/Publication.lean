import SoftSimplex.Proofs.Building

/-!
What publishing gives the variables. A published variable of the tableau has its value in the basic
solution; with the values of the other variables the basic solution is still one, and it is proper
if the tableau is feasible.
-/

namespace SoftSimplex

variable {K : Type}

theorem Symbol.unknown?_eq_some_iff (symbol : Symbol) (unknown : Variable) :
    symbol.unknown? = some unknown ↔ symbol = unknown.symbol := by
  rcases symbol with ⟨id, kind⟩
  rcases unknown with ⟨other⟩
  cases kind <;> simp [Symbol.unknown?, Symbol.isExternal, SymbolKind.isExternal, Variable.symbol]

theorem Variable.symbol_injective : Function.Injective Variable.symbol := by
  rintro ⟨left⟩ ⟨right⟩ same
  exact congrArg Variable.mk (congrArg Symbol.id same)

namespace Solver

section Values

variable [Zero K]

theorem value_setValue (solver : Solver K) (unknown other : Variable) (value : K) :
    (solver.setValue unknown value).value other =
      if unknown = other then value else solver.value other := by
  unfold Solver.value setValue
  rw [Table.get?_upsert]
  split <;> rfl

omit [Zero K] in
theorem get?_setValues {values : List (Variable × K)} {solver : Solver K} {unknown : Variable}
    {worth : K} (agree : ∀ value, (unknown, value) ∈ values → value = worth)
    (present : (unknown, worth) ∈ values ∨
      ∃ info, solver.unknowns.get? unknown = some info ∧ info.value = worth) :
    ∃ info, (values.foldl (fun current entry => current.setValue entry.1 entry.2)
      solver).unknowns.get? unknown = some info ∧ info.value = worth := by
  induction values generalizing solver with
  | nil => exact present.resolve_left nofun
  | cons entry rest ih =>
    refine ih (fun value member => agree value (List.mem_cons_of_mem entry member)) ?_
    unfold setValue
    rw [Table.get?_upsert]
    by_cases same : entry.1 = unknown
    · subst same
      rw [if_pos rfl]
      exact Or.inr ⟨_, rfl, agree entry.2 List.mem_cons_self⟩
    · rw [if_neg same]
      refine present.imp_left fun member => (List.mem_cons.mp member).resolve_left ?_
      rintro rfl
      exact same rfl

omit [Zero K] in
theorem get?_setValues_of_missing {values : List (Variable × K)} {solver : Solver K}
    {unknown : Variable} (missing : ∀ value, (unknown, value) ∉ values) :
    (values.foldl (fun current entry => current.setValue entry.1 entry.2)
      solver).unknowns.get? unknown = solver.unknowns.get? unknown := by
  induction values generalizing solver with
  | nil => rfl
  | cons entry rest ih =>
    refine (ih fun value member => missing value (List.mem_cons_of_mem entry member)).trans ?_
    have different : entry.1 ≠ unknown := by
      rintro rfl
      exact missing entry.2 List.mem_cons_self
    unfold setValue
    rw [Table.get?_upsert, if_neg different]

end Values

/-! What is published -/

section Assignments

variable [Zero K] {solver : Solver K} {unknown : Variable}

def assignments (solver : Solver K) : List (Variable × K) :=
  ((solver.tableau.parametricExternals.keys.filter fun symbol =>
    !solver.tableau.isBasic symbol).filterMap (·.unknown?)).map (fun unknown => (unknown, (0 : K))) ++
  solver.tableau.basicExternals.keys.filterMap fun symbol =>
    match symbol.unknown?, solver.tableau.row? symbol with
    | some unknown, some row => some (unknown, row.constant)
    | _, _ => none

theorem publishValues_eq (solver : Solver K) : solver.publishValues =
    { solver.assignments.foldl (fun current entry => current.setValue entry.1 entry.2) solver with
      needsSolving := false } := by
  refine (congrArg (fun current : Solver K => { current with needsSolving := false }) ?_).symm
  exact List.foldl_append.trans (congrArg (List.foldl _ · _) List.foldl_map)

variable (indexed : solver.tableau.Indexed)

include indexed

theorem mem_assignments {value : K} :
    (unknown, value) ∈ solver.assignments ↔
      (∃ row, solver.tableau.row? unknown.symbol = some row ∧ value = row.constant) ∨
        solver.tableau.hasColumn unknown.symbol = true ∧ value = 0 := by
  have named : unknown.symbol.unknown? = some unknown :=
    (Symbol.unknown?_eq_some_iff _ _).mpr rfl
  have isExternal : unknown.symbol.isExternal = true := rfl
  unfold assignments
  rw [List.mem_append, List.mem_map, List.mem_filterMap]
  constructor
  · rintro (⟨other, zeroed, same⟩ | ⟨symbol, _, solved⟩)
    · cases same
      obtain ⟨symbol, parametric, isUnknown⟩ := List.mem_filterMap.mp zeroed
      have listed := (indexed.listsParametric symbol).mp (List.mem_filter.mp parametric).1
      rw [(Symbol.unknown?_eq_some_iff _ _).mp isUnknown] at listed
      exact Or.inr ⟨listed.2, rfl⟩
    · split at solved
      · rename_i other row isUnknown found
        cases solved
        rw [(Symbol.unknown?_eq_some_iff _ _).mp isUnknown] at found
        exact Or.inl ⟨row, found, rfl⟩
      · cases solved
  · rintro (⟨row, found, rfl⟩ | ⟨column, rfl⟩)
    · refine Or.inr ⟨unknown.symbol, ?_, by rw [named, found]⟩
      exact (indexed.listsBasic unknown.symbol id).mpr
        ⟨isExternal, Tableau.isBasic_of_row? found⟩
    · refine Or.inl ⟨unknown, List.mem_filterMap.mpr ⟨unknown.symbol, List.mem_filter.mpr
        ⟨(indexed.listsParametric unknown.symbol).mpr ⟨isExternal, column⟩, ?_⟩, named⟩, rfl⟩
      cases isBasic : solver.tableau.isBasic unknown.symbol with
      | false => rfl
      | true =>
        rw [indexed.parametric unknown.symbol isBasic] at column
        cases column

theorem assignments_agree {first second : K} (member : (unknown, first) ∈ solver.assignments)
    (other : (unknown, second) ∈ solver.assignments) : first = second := by
  have apart : ∀ {row}, solver.tableau.row? unknown.symbol = some row →
      solver.tableau.hasColumn unknown.symbol ≠ true := by
    intro row found column
    rw [indexed.parametric unknown.symbol (Tableau.isBasic_of_row? found)] at column
    cases column
  rcases (mem_assignments indexed).mp member with ⟨row, found, rfl⟩ | ⟨column, rfl⟩ <;>
    rcases (mem_assignments indexed).mp other with ⟨same, foundSame, rfl⟩ | ⟨otherColumn, rfl⟩
  · rw [found] at foundSame
    rw [Option.some.inj foundSame]
  · exact absurd otherColumn (apart found)
  · exact absurd column (apart foundSame)
  · rfl

theorem get?_publishValues_of_mem {value : K} (member : (unknown, value) ∈ solver.assignments) :
    ∃ info, solver.publishValues.unknowns.get? unknown = some info ∧ info.value = value := by
  rw [publishValues_eq]
  exact get?_setValues (fun _ other => assignments_agree indexed other member) (Or.inl member)

theorem value_publishValues_of_mem {value : K} (member : (unknown, value) ∈ solver.assignments) :
    solver.publishValues.value unknown = value := by
  obtain ⟨info, found, same⟩ := get?_publishValues_of_mem indexed member
  rw [Solver.value, found]
  exact same

theorem value_publishValues_of_row {row : Expression K}
    (found : solver.tableau.row? unknown.symbol = some row) :
    solver.publishValues.value unknown = row.constant :=
  value_publishValues_of_mem indexed ((mem_assignments indexed).mpr (Or.inl ⟨row, found, rfl⟩))

theorem value_publishValues_of_column (column : solver.tableau.hasColumn unknown.symbol = true) :
    solver.publishValues.value unknown = 0 :=
  value_publishValues_of_mem indexed ((mem_assignments indexed).mpr (Or.inr ⟨column, rfl⟩))

theorem get?_publishValues_of_missing (missing : solver.containsVariable unknown = false) :
    solver.publishValues.unknowns.get? unknown = solver.unknowns.get? unknown := by
  obtain ⟨noColumn, notBasic⟩ := Bool.or_eq_false_iff.mp missing
  rw [publishValues_eq]
  refine get?_setValues_of_missing fun value member => ?_
  rcases (mem_assignments indexed).mp member with ⟨row, found, _⟩ | ⟨column, _⟩
  · rw [Tableau.isBasic_of_row? found] at notBasic
    cases notBasic
  · rw [noColumn] at column
    cases column

theorem value_publishValues_of_missing (missing : solver.containsVariable unknown = false) :
    solver.publishValues.value unknown = solver.value unknown := by
  unfold Solver.value
  rw [get?_publishValues_of_missing indexed missing]

end Assignments

variable [Field K] {solver : Solver K} {offsets : Nat → K}

/-- The variables of the tableau have their values in the basic solution. -/
def Published (solver : Solver K) : Prop :=
  ∀ unknown, solver.containsVariable unknown = true →
    solver.value unknown = solver.tableau.basicSolution unknown.symbol

theorem Published.idle {after : Solver K} (published : solver.Published)
    (keepsShown : solver.KeepsShown after) : after.Published := by
  intro unknown contained
  unfold containsVariable at contained
  rw [keepsShown.tableau] at contained ⊢
  rw [keepsShown.values unknown contained, published unknown contained]

theorem published_publishValues (indexed : solver.tableau.Indexed) :
    solver.publishValues.Published := by
  intro unknown contained
  have tidies := tidies_publishValues solver
  unfold containsVariable at contained
  rw [tidies.tableau, Bool.or_eq_true] at contained
  rw [tidies.tableau]
  cases found : solver.tableau.row? unknown.symbol with
  | some row =>
    rw [value_publishValues_of_row indexed found, Tableau.basicSolution_of_row found]
  | none =>
    have notBasic := (solver.tableau.not_isBasic_iff _).mpr found
    have column : solver.tableau.hasColumn unknown.symbol = true :=
      contained.resolve_right (by rw [notBasic]; exact Bool.false_ne_true)
    rw [value_publishValues_of_column indexed column, Tableau.basicSolution_of_not_basic notBasic]

theorem Published.again (published : solver.Published) {tableau : Tableau K}
    (indexed : tableau.Indexed) (rows : tableau.rows = solver.tableau.rows)
    (columns : tableau.columns = solver.tableau.columns) :
    (solver.setTableau tableau).publishValues.value = solver.value := by
  have tidies := tidies_publishValues (solver.setTableau tableau)
  have again : (solver.setTableau tableau).publishValues.Published :=
    published_publishValues indexed
  have sameContained : ∀ unknown,
      (solver.setTableau tableau).containsVariable unknown = solver.containsVariable unknown := by
    intro unknown
    unfold containsVariable Tableau.hasColumn Tableau.isBasic
    rw [setTableau, rows, columns]
  funext unknown
  cases contained : solver.containsVariable unknown with
  | false => exact value_publishValues_of_missing indexed ((sameContained unknown).trans contained)
  | true =>
    rw [again unknown, published unknown contained, tidies.tableau]
    · unfold Tableau.basicSolution Tableau.completed Tableau.row?
      rw [setTableau, rows]
    · unfold containsVariable
      rw [tidies.tableau]
      exact (sameContained unknown).trans contained

def publishedSolution (solver : Solver K) : Symbol → K :=
  solver.tableau.completed fun symbol => if symbol.isExternal then solver.value ⟨symbol.id⟩ else 0

section Presenting

variable (published : solver.Published) (indexed : solver.tableau.Indexed)

include published indexed

theorem Published.row_value {basic : Symbol} {row : Expression K}
    (found : solver.tableau.row? basic = some row) :
    row.valueAt solver.publishedSolution = row.constant := by
  rw [publishedSolution, Tableau.row_valueAt_completed indexed found, ← row.valueAt_zero]
  refine row.valueAt_congr _ fun symbol member => ?_
  split
  · rename_i isExternal
    have isUnknown : symbol = (⟨symbol.id⟩ : Variable).symbol :=
      (Symbol.unknown?_eq_some_iff _ _).mp (if_pos isExternal)
    have column := indexed.hasColumn_of_occurs ⟨row, found, member⟩
    rw [published ⟨symbol.id⟩, ← isUnknown]
    · exact Tableau.basicSolution_of_not_basic (indexed.not_basic_of_mem found member)
    · rw [containsVariable, ← isUnknown, column, Bool.true_or]
  · rfl

theorem Published.solution_of_row {basic : Symbol} {row : Expression K}
    (found : solver.tableau.row? basic = some row) :
    solver.publishedSolution basic = row.constant := by
  rw [← published.row_value indexed found, publishedSolution,
    Tableau.row_valueAt_completed indexed found]
  simp only [Tableau.completed, found]

theorem Published.solution_variable (unknown : Variable) :
    solver.publishedSolution unknown.symbol = solver.value unknown := by
  cases isBasic : solver.tableau.isBasic unknown.symbol with
  | false =>
    rw [publishedSolution, Tableau.completed_of_not_basic isBasic]
    exact if_pos rfl
  | true =>
    obtain ⟨row, found⟩ := (solver.tableau.isBasic_iff _).mp isBasic
    rw [published.solution_of_row indexed found, published unknown,
      Tableau.basicSolution_of_row found]
    rw [containsVariable, isBasic, Bool.or_true]

theorem Published.solution_internal {symbol : Symbol} (isInternal : symbol.isExternal = false) :
    solver.publishedSolution symbol = solver.tableau.basicSolution symbol := by
  cases isBasic : solver.tableau.isBasic symbol with
  | false =>
    rw [publishedSolution, Tableau.completed_of_not_basic isBasic,
      Tableau.basicSolution_of_not_basic isBasic, isInternal, if_neg Bool.false_ne_true]
  | true =>
    obtain ⟨row, found⟩ := (solver.tableau.isBasic_iff _).mp isBasic
    rw [published.solution_of_row indexed found, Tableau.basicSolution_of_row found]

theorem Published.extends [LinearOrder K] [IsStrictOrderedRing K]
    (feasible : solver.tableau.Feasible) : Extends solver.value solver.publishedSolution := by
  have proper := feasible.proper
  refine ⟨published.solution_variable indexed, ?_, ?_⟩
  · intro symbol isSlack
    rw [published.solution_internal indexed (Symbol.internal_of_kind isSlack rfl)]
    exact proper.nonneg symbol (by simp [Symbol.isPivotable, isSlack, SymbolKind.isPivotable])
  · intro symbol isDummy
    rw [published.solution_internal indexed (Symbol.internal_of_kind isDummy rfl)]
    exact proper.dummies symbol (by simp [Symbol.isDummy, isDummy, SymbolKind.isDummy])

end Presenting

end Solver

end SoftSimplex
