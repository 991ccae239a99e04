import SoftSimplex.Proofs.Exact
import SoftSimplex.Proofs.Upkeep

/-!
The equations that a tableau stands for. An assignment solves a tableau if every row but those of
objectives holds as an equation; the module says what each change of a tableau does to the set of
solutions.
-/

namespace SoftSimplex

namespace Tableau

variable {K : Type} [Field K]

/-- Every row holds as the equation `basic = row`, objectives apart. -/
def Solves (tableau : Tableau K) (assignment : Symbol → K) : Prop :=
  ∀ basic row, tableau.row? basic = some row → basic.kind ≠ .objective →
    assignment basic = row.valueAt assignment

def Pruned (tableau : Tableau K) : Prop :=
  ∀ basic row, tableau.row? basic = some row → row.Pruned

variable {before middle after : Tableau K}

/-! Solutions from values of the parametric symbols -/

section Completion

/-- The parametric symbols as given, the basic ones by their rows. -/
def completed (tableau : Tableau K) (parametric : Symbol → K) (symbol : Symbol) : K :=
  match tableau.row? symbol with
  | some row => row.valueAt parametric
  | none => parametric symbol

def basicSolution (tableau : Tableau K) : Symbol → K := tableau.completed fun _ => 0

variable {tableau : Tableau K} (indexed : tableau.Indexed)

theorem completed_of_not_basic {symbol : Symbol} (notBasic : tableau.isBasic symbol = false)
    (parametric : Symbol → K) : tableau.completed parametric symbol = parametric symbol := by
  unfold completed
  rw [(tableau.not_isBasic_iff symbol).mp notBasic]

theorem valueAt_completed {expression : Expression K}
    (notBasic : ∀ symbol ∈ expression.symbols, tableau.isBasic symbol = false)
    (parametric : Symbol → K) :
    expression.valueAt (tableau.completed parametric) = expression.valueAt parametric :=
  expression.valueAt_congr _ fun symbol member =>
    completed_of_not_basic (notBasic symbol member) parametric

include indexed in
theorem row_valueAt_completed {basic : Symbol} {row : Expression K}
    (found : tableau.row? basic = some row) (parametric : Symbol → K) :
    row.valueAt (tableau.completed parametric) = row.valueAt parametric :=
  valueAt_completed (fun _ member => indexed.not_basic_of_mem found member) parametric

include indexed in
theorem solves_completed (parametric : Symbol → K) :
    tableau.Solves (tableau.completed parametric) := by
  intro basic row found _
  rw [row_valueAt_completed indexed found]
  simp only [completed, found]

theorem basicSolution_of_row {basic : Symbol} {row : Expression K}
    (found : tableau.row? basic = some row) : tableau.basicSolution basic = row.constant := by
  simp only [basicSolution, completed, found, Expression.valueAt_zero]

theorem basicSolution_of_not_basic {symbol : Symbol} (notBasic : tableau.isBasic symbol = false) :
    tableau.basicSolution symbol = 0 :=
  completed_of_not_basic notBasic _

include indexed in
theorem row_valueAt_basicSolution {basic : Symbol} {row : Expression K}
    (found : tableau.row? basic = some row) :
    row.valueAt tableau.basicSolution = row.constant :=
  (row_valueAt_completed indexed found _).trans row.valueAt_zero

end Completion

/-! Rows and columns that go -/

section Removals

variable {tableau : Tableau K} (indexed : tableau.Indexed) {symbol : Symbol} {assignment : Symbol → K}

variable (assignment) in
include indexed in
theorem valueAt_update_basic (isBasic : tableau.isBasic symbol = true) {basic : Symbol}
    {row : Expression K} (found : tableau.row? basic = some row) (value : K) :
    row.valueAt (Function.update assignment symbol value) = row.valueAt assignment := by
  refine row.valueAt_congr _ fun other member => ?_
  refine Function.update_of_ne ?_ _ _
  rintro rfl
  exact indexed.not_mem_of_basic isBasic found member

theorem solves_removeRow_objective (isObjective : symbol.kind = .objective) :
    (tableau.removeRow symbol).Solves assignment ↔ tableau.Solves assignment := by
  unfold Solves
  refine forall_congr' fun basic => ?_
  rw [row?_removeRow]
  by_cases same : symbol = basic
  · subst same
    simp [isObjective]
  · simp [same]

include indexed in
theorem solves_removeRow {row : Expression K} (found : tableau.row? symbol = some row)
    (notObjective : symbol.kind ≠ .objective) :
    (tableau.removeRow symbol).Solves assignment ↔
      tableau.Solves (Function.update assignment symbol (row.valueAt assignment)) := by
  have unchanged := fun {basic : Symbol} {other : Expression K}
      (isRow : tableau.row? basic = some other) =>
    valueAt_update_basic indexed assignment (isBasic_of_row? found) isRow
      (row.valueAt assignment)
  constructor
  · intro solves basic other isRow nonObjective
    rw [unchanged isRow]
    by_cases same : basic = symbol
    · subst same
      rw [found] at isRow
      cases isRow
      exact Function.update_self ..
    · rw [Function.update_of_ne same]
      refine solves basic other ?_ nonObjective
      rw [row?_removeRow, if_neg (Ne.symm same), isRow]
  · intro solves basic other isRow nonObjective
    obtain ⟨different, was⟩ := (row?_removeRow_eq_some_iff ..).mp isRow
    have holds := solves basic other was nonObjective
    rwa [unchanged was, Function.update_of_ne (Ne.symm different)] at holds

theorem valueAt_removeTerm_zero (row : Expression K) :
    (row.removeTerm symbol).valueAt assignment =
      row.valueAt (Function.update assignment symbol 0) := by
  have first := row.valueAt_removeTerm (Function.update assignment symbol 0) symbol
  rw [Function.update_self, mul_zero, sub_zero] at first
  rw [← first]
  refine (row.removeTerm symbol).valueAt_congr _ fun other member => ?_
  exact (Function.update_of_ne ((row.mem_symbols_removeTerm symbol other).mp member).1 _ _).symm

include indexed in
theorem solves_removeColumn (notBasic : tableau.isBasic symbol = false) :
    (tableau.removeColumn symbol).Solves assignment ↔
      tableau.Solves (Function.update assignment symbol 0) := by
  have others : ∀ basic, tableau.isBasic basic = true →
      Function.update assignment symbol 0 basic = assignment basic := by
    intro basic isBasic
    refine Function.update_of_ne ?_ _ _
    rintro rfl
    rw [notBasic] at isBasic
    cases isBasic
  constructor
  · intro solves basic row found nonObjective
    rw [others basic (isBasic_of_row? found), ← valueAt_removeTerm_zero]
    refine solves basic _ ?_ nonObjective
    rw [row?_removeColumn indexed, found]
    rfl
  · intro solves basic next found nonObjective
    rw [row?_removeColumn indexed] at found
    obtain ⟨row, was, rfl⟩ := Option.map_eq_some_iff.mp found
    have holds := solves basic row was nonObjective
    rwa [others basic (isBasic_of_row? was), ← valueAt_removeTerm_zero] at holds

include indexed in
theorem solves_removeColumn_basic (isBasic : tableau.isBasic symbol = true) :
    (tableau.removeColumn symbol).Solves assignment ↔ tableau.Solves assignment := by
  unfold Solves
  refine forall_congr' fun basic => ?_
  rw [row?_removeColumn indexed]
  cases found : tableau.row? basic with
  | none => simp
  | some row =>
    have missing : symbol ∉ row.symbols := indexed.not_mem_of_basic isBasic found
    rw [Option.map_some, Expression.removeTerm_of_not_mem missing]

end Removals

/-! Constants and costs -/

section Upkeep

structure Translates (before after : Tableau K) (moved : Symbol) (amount : K) : Prop where
  solves : ∀ assignment, after.Solves assignment ↔
    before.Solves (Function.update assignment moved (assignment moved + amount))
  objectives : ∀ objective, objective.kind = .objective → ∀ assignment,
    (after.row? objective).map (·.valueAt assignment) = (before.row? objective).map
      (·.valueAt (Function.update assignment moved (assignment moved + amount)))

theorem Shifts.basicSolution {constantOf : Symbol → Expression K → K}
    (shifts : before.Shifts after constantOf) (symbol : Symbol) :
    after.basicSolution symbol = ((before.row? symbol).map (constantOf symbol)).getD 0 := by
  have rows := shifts.rows symbol
  cases found : before.row? symbol with
  | none =>
    rw [found] at rows
    exact basicSolution_of_not_basic ((after.not_isBasic_iff symbol).mpr rows)
  | some row =>
    rw [found] at rows
    exact basicSolution_of_row rows

theorem translates_of_same {moved : Symbol} (same : ∀ basic, after.row? basic = before.row? basic) :
    before.Translates after moved 0 := by
  constructor
  · intro assignment
    rw [add_zero, Function.update_eq_self]
    unfold Solves
    simp only [same]
  · intro objective _ assignment
    rw [add_zero, Function.update_eq_self, same]

theorem Shifts.translates {constantOf : Symbol → Expression K → K}
    (shifts : before.Shifts after constantOf) (indexed : before.Indexed) (amount : K)
    {moved : Symbol} (isBasic : before.isBasic moved = true) (notObjective : moved.kind ≠ .objective)
    (here : ∀ row, before.row? moved = some row → constantOf moved row = row.constant - amount)
    (elsewhere : ∀ basic row, basic ≠ moved → constantOf basic row = row.constant) :
    before.Translates after moved amount := by
  have unchanged := fun (assignment : Symbol → K) {basic : Symbol} {row : Expression K}
      (found : before.row? basic = some row) =>
    valueAt_update_basic indexed assignment isBasic found (assignment moved + amount)
  constructor
  · intro assignment
    constructor
    · intro solves basic row found nonObjective
      have holds := solves basic _ (by rw [shifts.rows, found]; rfl) nonObjective
      rw [Expression.valueAt_withConstant] at holds
      rw [unchanged assignment found]
      by_cases same : basic = moved
      · subst same
        rw [here row found] at holds
        rw [Function.update_self, holds]
        ring
      · rw [elsewhere basic row same] at holds
        rw [Function.update_of_ne same, holds]
        ring
    · intro solves basic next found nonObjective
      rw [shifts.rows] at found
      obtain ⟨row, was, rfl⟩ := Option.map_eq_some_iff.mp found
      have holds := solves basic row was nonObjective
      rw [unchanged assignment was] at holds
      rw [Expression.valueAt_withConstant]
      by_cases same : basic = moved
      · subst same
        rw [Function.update_self] at holds
        rw [here row was]
        linear_combination holds
      · rw [Function.update_of_ne same] at holds
        rw [elsewhere basic row same]
        linear_combination holds
  · intro objective isObjective assignment
    have different : objective ≠ moved := by
      rintro rfl
      exact notObjective isObjective
    rw [shifts.rows]
    cases found : before.row? objective with
    | none => rfl
    | some row =>
      rw [Option.map_some, Option.map_some, Option.map_some, unchanged assignment found,
        elsewhere objective row different, Expression.valueAt_withConstant, sub_self, add_zero]

theorem valueAt_shifted_use (indexed : before.Indexed) {moved basic : Symbol} {row : Expression K}
    (found : before.row? basic = some row) (amount : K) (assignment : Symbol → K) :
    (row.withConstant (if basic ∈ before.column moved then
      row.constant + row.coefficient moved * amount else row.constant)).valueAt assignment =
    row.valueAt (Function.update assignment moved (assignment moved + amount)) := by
  have rest := row.valueAt_removeTerm assignment moved
  have restMoved := row.valueAt_removeTerm
    (Function.update assignment moved (assignment moved + amount)) moved
  have same : (row.removeTerm moved).valueAt assignment = (row.removeTerm moved).valueAt
      (Function.update assignment moved (assignment moved + amount)) := by
    refine (row.removeTerm moved).valueAt_congr _ fun other member => ?_
    exact (Function.update_of_ne ((row.mem_symbols_removeTerm moved other).mp member).1 _ _).symm
  rw [Function.update_self] at restMoved
  rw [Expression.valueAt_withConstant]
  by_cases uses : basic ∈ before.column moved
  · rw [if_pos uses]
    linear_combination same - rest + restMoved
  · have missing : row.coefficient moved = 0 := by
      refine row.coefficient_eq_zero fun member => uses ?_
      exact (indexed.agrees moved basic).mpr ⟨row, found, member⟩
    rw [if_neg uses]
    linear_combination same - rest + restMoved - amount * missing

theorem Shifts.translates_uses {moved : Symbol} {amount : K}
    (shifts : before.Shifts after fun basic row =>
      if basic ∈ before.column moved then row.constant + row.coefficient moved * amount
      else row.constant)
    (indexed : before.Indexed) (notBasic : before.isBasic moved = false) :
    before.Translates after moved amount := by
  have others : ∀ (assignment : Symbol → K) basic, before.isBasic basic = true →
      Function.update assignment moved (assignment moved + amount) basic = assignment basic := by
    intro assignment basic isBasic
    refine Function.update_of_ne ?_ _ _
    rintro rfl
    rw [notBasic] at isBasic
    cases isBasic
  constructor
  · intro assignment
    constructor
    · intro solves basic row found nonObjective
      rw [others assignment basic (isBasic_of_row? found), ← valueAt_shifted_use indexed found]
      exact solves basic _ (by rw [shifts.rows, found]; rfl) nonObjective
    · intro solves basic next found nonObjective
      rw [shifts.rows] at found
      obtain ⟨row, was, rfl⟩ := Option.map_eq_some_iff.mp found
      have holds := solves basic row was nonObjective
      rwa [others assignment basic (isBasic_of_row? was), ← valueAt_shifted_use indexed was] at holds
  · intro objective _ assignment
    rw [shifts.rows]
    cases found : before.row? objective with
    | none => rfl
    | some row =>
      rw [Option.map_some, Option.map_some, Option.map_some, valueAt_shifted_use indexed found]

theorem translates_settleStay (indexed : before.Indexed) (pair : Symbol × Symbol)
    (notObjective : (before.stayRow pair).kind ≠ .objective) :
    ∃ amount, before.Translates (Solver.settleStay before pair) (before.stayRow pair) amount := by
  have shifts := before.shifts_settleStay pair
  cases stayRow : before.row? (before.stayRow pair) with
  | none =>
    refine ⟨0, translates_of_same fun basic => ?_⟩
    rw [shifts.rows]
    cases here : before.row? basic with
    | none => rfl
    | some row =>
      have apart : before.stayRow pair ≠ basic := by
        intro same
        rw [same, here] at stayRow
        cases stayRow
      rw [Option.map_some, if_neg apart]
      rfl
  | some row =>
    refine ⟨row.constant, shifts.translates indexed _ (isBasic_of_row? stayRow) notObjective ?_ ?_⟩
    · intro other here
      rw [stayRow] at here
      cases here
      rw [if_pos rfl, sub_self]
    · intro basic other apart
      rw [if_neg (Ne.symm apart)]

theorem Retargets.translates {plus minus : Symbol} {delta : K}
    (retargets : before.Retargets plus minus delta after) (indexed : before.Indexed)
    (plusSlack : plus.kind = .slack) (minusSlack : minus.kind = .slack) :
    before.Translates after plus (-delta) ∨ before.Translates after minus delta := by
  have apart : ∀ {symbol : Symbol}, symbol.kind = .slack → symbol.kind ≠ .objective := by
    intro symbol slack isObjective
    rw [slack] at isObjective
    cases isObjective
  cases retargets with
  | plus isBasic shifts =>
    refine Or.inl (shifts.translates indexed _ isBasic (apart plusSlack) ?_ ?_)
    · exact fun row _ => by rw [if_pos rfl, sub_neg_eq_add]
    · exact fun basic row different => if_neg (Ne.symm different)
  | minus isBasic shifts =>
    refine Or.inr (shifts.translates indexed _ isBasic (apart minusSlack) ?_ ?_)
    · exact fun row _ => by rw [if_pos rfl, sub_eq_add_neg]
    · exact fun basic row different => if_neg (Ne.symm different)
  | uses _ notMinus shifts => exact Or.inr (shifts.translates_uses indexed notMinus)

theorem Recosts.solves (recosts : before.Recosts after) (assignment : Symbol → K) :
    after.Solves assignment ↔ before.Solves assignment := by
  unfold Solves
  refine forall_congr' fun basic => ?_
  by_cases same : basic = .mainObjective
  · subst same
    simp [Symbol.mainObjective]
  · rw [recosts.rows basic same]

end Upkeep

end Tableau

end SoftSimplex
