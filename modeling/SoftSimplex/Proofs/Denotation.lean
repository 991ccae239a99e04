import SoftSimplex.Proofs.Exact

/-!
What expressions say. Over exact numbers an expression is an affine function of the symbols, and an
operation on expressions is that operation on the functions, whatever symbols its operands share.
Solving for a symbol keeps what the equation says. A constraint is satisfied within a tolerance
exactly when the two sides that it was made from compare so within the tolerance.
-/

namespace SoftSimplex

inductive Operand (K : Type) where
  | compound (expression : Expression K)
  | single (unknown : Variable)
  | number (value : K)

namespace Operand

variable {K : Type} [Field K]

def toExpression [LinearOrder K] : Operand K → Expression K
  | .compound expression => expression
  | .single unknown => .ofVariable unknown
  | .number value => .ofConstant value

def valueAt (operand : Operand K) (assignment : Symbol → K) : K :=
  match operand with
  | .compound expression => expression.valueAt assignment
  | .single unknown => assignment unknown.symbol
  | .number value => value

def External [LinearOrder K] (operand : Operand K) : Prop :=
  ∀ symbol ∈ operand.toExpression.symbols, symbol.isExternal = true

end Operand

def Relation.Within {K : Type} [Field K] [LinearOrder K] (relation : Relation)
    (tolerance left right : K) : Prop :=
  match relation with
  | .atMost => left ≤ right + tolerance
  | .equal => |left - right| ≤ tolerance
  | .atLeast => right - tolerance ≤ left

variable {K : Type} [Field K] [LinearOrder K]

/-! Values -/

namespace Expression

variable (expression : Expression K) (assignment : Symbol → K)

omit [LinearOrder K] in
theorem valueAt_eq_sum : expression.valueAt assignment = expression.constant +
    (expression.symbols.map fun symbol =>
      expression.coefficient symbol * assignment symbol).sum := by
  unfold valueAt Table.total symbols Table.keys
  rw [List.map_map]
  congr 2
  refine List.map_congr_left fun entry member => ?_
  rw [Function.comp_apply, coefficient_of_mem_entries member]

omit [LinearOrder K] in
theorem valueAt_update_zero (symbol : Symbol) :
    expression.valueAt (Function.update assignment symbol 0) =
      expression.valueAt assignment - expression.coefficient symbol * assignment symbol := by
  rw [valueAt_update]
  ring

theorem valueAt_add (left right : Expression K) :
    (left + right).valueAt assignment = left.valueAt assignment + right.valueAt assignment := by
  refine (valueAt_addScaled left assignment right 1).trans ?_
  rw [mul_one]

theorem valueAt_sub (left right : Expression K) :
    (left - right).valueAt assignment = left.valueAt assignment - right.valueAt assignment := by
  refine (valueAt_addScaled left assignment right (-1)).trans ?_
  ring

omit [LinearOrder K] in
theorem valueAt_neg : (-expression).valueAt assignment = -expression.valueAt assignment := by
  refine (valueAt_times expression assignment (-1)).trans ?_
  ring

variable {expression}

omit [LinearOrder K] in
theorem solveFor?_equation {subject : Symbol} (nonzero : expression.coefficient subject ≠ 0) :
    ∃ reciprocal solved, expression.solveFor? subject = some (reciprocal, solved) ∧
      subject ∉ solved.symbols ∧ ∀ assignment,
        assignment subject = solved.valueAt assignment ↔ 0 = expression.valueAt assignment := by
  obtain ⟨reciprocal, solved, solves⟩ :=
    solveFor?_eq_some_of_mem (mem_symbols_of_coefficient nonzero)
  refine ⟨reciprocal, solved, solves, ?_, fun assignment => ?_⟩
  · intro member
    exact ((mem_symbols_solveFor solves subject).mp member).1 rfl
  · rw [valueAt_solveFor solves nonzero, zero_eq_mul, or_iff_right nonzero, sub_eq_zero]

theorem exchange?_equation {leaving entering : Symbol} (missing : leaving ∉ expression.symbols)
    (nonzero : expression.coefficient entering ≠ 0) :
    ∃ solved, expression.exchange? leaving entering = some solved ∧
      entering ∉ solved.symbols ∧ ∀ assignment, assignment entering = solved.valueAt assignment ↔
        assignment leaving = expression.valueAt assignment := by
  have occurs := mem_symbols_of_coefficient nonzero
  obtain ⟨solved, solves⟩ := exchange?_eq_some_of_mem leaving occurs
  refine ⟨solved, solves, ?_, fun assignment => ?_⟩
  · intro member
    rcases mem_symbols_of_exchange solves member with same | ⟨different, _⟩
    · exact missing (same ▸ occurs)
    · exact different rfl
  · have balance := valueAt_exchange assignment solves missing nonzero
    rw [← sub_eq_zero (a := assignment leaving), ← balance, mul_eq_zero, or_iff_right nonzero,
      sub_eq_zero, eq_comm]

structure Faithful (K : Type) [Field K] [LinearOrder K] : Prop where
  affine : ∀ (expression : Expression K) assignment, expression.valueAt assignment =
    expression.constant + (expression.symbols.map fun symbol =>
      expression.coefficient symbol * assignment symbol).sum
  add : ∀ (left right : Operand K) assignment,
    (left.toExpression + right.toExpression).valueAt assignment =
      left.valueAt assignment + right.valueAt assignment
  sub : ∀ (left right : Operand K) assignment,
    (left.toExpression - right.toExpression).valueAt assignment =
      left.valueAt assignment - right.valueAt assignment
  neg : ∀ (expression : Expression K) assignment,
    (-expression).valueAt assignment = -expression.valueAt assignment
  mul : ∀ (expression : Expression K) (factor : K) assignment,
    (expression * factor).valueAt assignment = expression.valueAt assignment * factor
  ofTerm : ∀ (unknown : Variable) (factor : K) assignment,
    (ofTerm unknown factor).valueAt assignment = assignment unknown.symbol * factor
  ofSymbol : ∀ (symbol : Symbol) (factor : K) assignment,
    (ofSymbol symbol factor).valueAt assignment = assignment symbol * factor
  addScaled : ∀ (expression other : Expression K) (factor : K) assignment,
    (expression.addScaled other factor).valueAt assignment =
      expression.valueAt assignment + other.valueAt assignment * factor
  addTerm : ∀ (expression : Expression K) (symbol : Symbol) (amount : K) assignment,
    (expression.addTerm symbol amount).1.valueAt assignment =
      expression.valueAt assignment + amount * assignment symbol
  setTerm : ∀ (expression : Expression K) (symbol : Symbol) (value : K) assignment,
    (expression.setTerm symbol value).1.valueAt assignment =
      expression.valueAt (Function.update assignment symbol 0) + value * assignment symbol
  substitute : ∀ (expression : Expression K) (symbol : Symbol) (replacement : Expression K)
    assignment, (expression.substitute symbol replacement).valueAt assignment =
      expression.valueAt (Function.update assignment symbol (replacement.valueAt assignment))
  solveFor : ∀ (expression : Expression K) (subject : Symbol),
    expression.coefficient subject ≠ 0 →
      ∃ reciprocal solved, expression.solveFor? subject = some (reciprocal, solved) ∧
        subject ∉ solved.symbols ∧ ∀ assignment,
          assignment subject = solved.valueAt assignment ↔ 0 = expression.valueAt assignment
  exchange : ∀ (expression : Expression K) (leaving entering : Symbol),
    leaving ∉ expression.symbols → expression.coefficient entering ≠ 0 →
      ∃ solved, expression.exchange? leaving entering = some solved ∧
        entering ∉ solved.symbols ∧ ∀ assignment, assignment entering = solved.valueAt assignment ↔
          assignment leaving = expression.valueAt assignment

end Expression

theorem Operand.valueAt_toExpression (operand : Operand K) (assignment : Symbol → K) :
    operand.toExpression.valueAt assignment = operand.valueAt assignment := by
  cases operand with
  | compound expression => rfl
  | single unknown => exact Expression.valueAt_ofVariable assignment unknown
  | number value => exact Expression.valueAt_ofConstant assignment value

/-! Comparisons -/

section Comparing

variable [IsStrictOrderedRing K] {tolerance left right : K}

theorem Relation.within_sub (relation : Relation) :
    relation.Within tolerance (left - right) 0 ↔ relation.Within tolerance left right := by
  cases relation with
  | atMost =>
    simp only [Within]
    rw [zero_add, sub_le_iff_le_add']
  | equal =>
    simp only [Within]
    rw [sub_zero]
  | atLeast =>
    simp only [Within]
    rw [zero_sub, neg_le_sub_iff_le_add, sub_le_iff_le_add]

theorem Relation.within_atLeast_swap :
    Relation.atLeast.Within tolerance right left ↔ Relation.atMost.Within tolerance left right :=
  sub_le_iff_le_add

theorem Demand.isSatisfied_iff_within (demand : Demand K) (valueOf : Variable → K) :
    demand.isSatisfied valueOf tolerance = true ↔
      (if demand.isInequality then Relation.atLeast else .equal).Within tolerance
        (demand.expression.evaluate valueOf) 0 := by
  unfold isSatisfied
  dsimp only
  split
  · rw [decide_eq_true_iff, Relation.Within, zero_sub]
  · rw [decide_eq_true_iff, Relation.Within, sub_zero, abs_le]

variable {expression : Expression K} {assignment : Symbol → K}

theorem Demand.ofRelation_satisfied
    (external : ∀ symbol ∈ expression.symbols, symbol.isExternal = true) (relation : Relation)
    (strength : Strength) (weight : K) :
    (ofRelation expression relation strength weight).isSatisfied
        (fun unknown => assignment unknown.symbol) tolerance = true ↔
      relation.Within tolerance (expression.valueAt assignment) 0 := by
  rw [isSatisfied_iff_within]
  cases relation with
  | equal =>
    rw [← Expression.evaluate_eq_valueAt external fun _ => rfl]
    exact Iff.rfl
  | atLeast =>
    rw [← Expression.evaluate_eq_valueAt external fun _ => rfl]
    exact Iff.rfl
  | atMost =>
    have negated : ∀ symbol ∈ (-expression).symbols, symbol.isExternal = true := by
      intro symbol member
      exact external symbol (expression.symbols_times (-1) ▸ member)
    have value : (-expression).evaluate (fun unknown => assignment unknown.symbol) =
        -expression.valueAt assignment :=
      (Expression.evaluate_eq_valueAt negated fun _ => rfl).trans (expression.valueAt_neg assignment)
    simp only [ofRelation, isInequality, beq_self_eq_true, if_true, value, Relation.Within]
    rw [zero_sub, zero_add, neg_le_neg_iff]

end Comparing

/-- A constraint is satisfied exactly when the relation that it was made from holds within the
tolerance. -/
structure Demand.Faithful (K : Type) [Field K] [LinearOrder K] : Prop where
  equal : ∀ (left right : Operand K), left.External → right.External →
    ∀ (strength : Strength) (assignment : Symbol → K) (tolerance : K),
      (Demand.equal left.toExpression right.toExpression strength).isSatisfied
          (fun unknown => assignment unknown.symbol) tolerance = true ↔
        Relation.equal.Within tolerance (left.valueAt assignment) (right.valueAt assignment)
  atLeast : ∀ (left right : Operand K), left.External → right.External →
    ∀ (strength : Strength) (assignment : Symbol → K) (tolerance : K),
      (Demand.atLeast left.toExpression right.toExpression strength).isSatisfied
          (fun unknown => assignment unknown.symbol) tolerance = true ↔
        Relation.atLeast.Within tolerance (left.valueAt assignment) (right.valueAt assignment)
  atMost : ∀ (left right : Operand K), left.External → right.External →
    ∀ (strength : Strength) (assignment : Symbol → K) (tolerance : K),
      (Demand.atMost left.toExpression right.toExpression strength).isSatisfied
          (fun unknown => assignment unknown.symbol) tolerance = true ↔
        Relation.atMost.Within tolerance (left.valueAt assignment) (right.valueAt assignment)
  ofRelation : ∀ (expression : Expression K),
    (∀ symbol ∈ expression.symbols, symbol.isExternal = true) →
      ∀ (relation : Relation) (strength : Strength) (weight : K) (assignment : Symbol → K)
        (tolerance : K), (Demand.ofRelation expression relation strength weight).isSatisfied
            (fun unknown => assignment unknown.symbol) tolerance = true ↔
          relation.Within tolerance (expression.valueAt assignment) 0

section Comparing

variable [IsStrictOrderedRing K] {left right : Operand K}

theorem Operand.difference_satisfied (leftExternal : left.External) (rightExternal : right.External)
    (relation : Relation) (strength : Strength) (assignment : Symbol → K) (tolerance : K) :
    (Demand.ofRelation (left.toExpression - right.toExpression) relation strength 1).isSatisfied
        (fun unknown => assignment unknown.symbol) tolerance = true ↔
      relation.Within tolerance (left.valueAt assignment) (right.valueAt assignment) := by
  have external : ∀ symbol ∈ (left.toExpression - right.toExpression).symbols,
      symbol.isExternal = true := by
    intro symbol member
    rcases Expression.mem_symbols_of_addScaledReporting member with isLeft | isRight
    · exact leftExternal symbol isLeft
    · exact rightExternal symbol isRight
  rw [Demand.ofRelation_satisfied external, Expression.valueAt_sub, valueAt_toExpression,
    valueAt_toExpression, Relation.within_sub]

end Comparing

/-- Expressions compute with affine functions, and constraints compare their values. -/
theorem operations_faithful [IsStrictOrderedRing K] :
    Expression.Faithful K ∧ Demand.Faithful K := by
  constructor
  · constructor
    case affine => exact Expression.valueAt_eq_sum
    case add =>
      intro left right assignment
      rw [Expression.valueAt_add, Operand.valueAt_toExpression, Operand.valueAt_toExpression]
    case sub =>
      intro left right assignment
      rw [Expression.valueAt_sub, Operand.valueAt_toExpression, Operand.valueAt_toExpression]
    case neg => exact Expression.valueAt_neg
    case mul => exact fun expression factor assignment =>
      expression.valueAt_times assignment factor
    case ofTerm =>
      intro unknown factor assignment
      exact (Expression.valueAt_ofSymbol assignment unknown.symbol factor).trans (mul_comm _ _)
    case ofSymbol =>
      intro symbol factor assignment
      exact (Expression.valueAt_ofSymbol assignment symbol factor).trans (mul_comm _ _)
    case addScaled => exact fun expression other factor assignment =>
      expression.valueAt_addScaled assignment other factor
    case addTerm => exact fun expression symbol amount assignment =>
      expression.valueAt_addTerm assignment symbol amount
    case setTerm =>
      intro expression symbol value assignment
      rw [Expression.valueAt_setTerm, Expression.valueAt_update_zero]
    case substitute =>
      intro expression symbol replacement assignment
      rw [Expression.valueAt_substitute, Expression.valueAt_update]
    case solveFor => exact fun _ _ => Expression.solveFor?_equation
    case exchange => exact fun _ _ _ => Expression.exchange?_equation
  · constructor
    case equal => exact fun _ _ leftExternal rightExternal =>
      Operand.difference_satisfied leftExternal rightExternal .equal
    case atLeast => exact fun _ _ leftExternal rightExternal =>
      Operand.difference_satisfied leftExternal rightExternal .atLeast
    case atMost =>
      intro left right leftExternal rightExternal strength assignment tolerance
      refine Iff.trans ?_ Relation.within_atLeast_swap
      exact Operand.difference_satisfied rightExternal leftExternal .atLeast strength assignment
        tolerance
    case ofRelation => exact fun _ external relation strength weight _ _ =>
      Demand.ofRelation_satisfied external relation strength weight

/-- Two temperature scales, solved for either, and a limit that is exceeded by one degree. -/
theorem operations_faithful_temperatures :
    let celsius : Variable := ⟨1⟩
    let fahrenheit : Variable := ⟨2⟩
    let scale : Expression ℚ := .ofTerm celsius (9 / 5) + .ofConstant 32
    (∃ reciprocal solved, (scale - .ofVariable fahrenheit).solveFor? celsius.symbol =
        some (reciprocal, solved) ∧
      ∀ assignment, assignment celsius.symbol = solved.valueAt assignment ↔
        0 = (scale - .ofVariable fahrenheit).valueAt assignment) ∧
      (∃ solved, scale.exchange? fahrenheit.symbol celsius.symbol = some solved ∧
        ∀ assignment, assignment celsius.symbol = solved.valueAt assignment ↔
          assignment fahrenheit.symbol = scale.valueAt assignment) ∧
      (Demand.atMost (.ofVariable celsius) (.ofConstant 100) .weak).isSatisfied (fun _ => 101)
        (1 : ℚ) = true := by
  intro celsius fahrenheit scale
  obtain ⟨expressions, demands⟩ := operations_faithful (K := ℚ)
  obtain ⟨reciprocal, solved, solves, -, same⟩ := expressions.solveFor
    (scale - .ofVariable fahrenheit) celsius.symbol (by decide +kernel)
  obtain ⟨turned, turns, -, alike⟩ := expressions.exchange scale fahrenheit.symbol celsius.symbol
    (by decide +kernel) (by decide +kernel)
  have single : (Operand.single celsius : Operand ℚ).External := by
    unfold Operand.External
    decide +kernel
  have limited := (demands.atMost (.single celsius) (.number 100) single nofun .weak (fun _ => 101)
    1).mpr (by
      unfold Relation.Within
      norm_num [Operand.valueAt])
  exact ⟨⟨reciprocal, solved, solves, same⟩, ⟨turned, turns, alike⟩, limited⟩

end SoftSimplex
