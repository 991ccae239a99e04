import SoftSimplex.Expression
import SoftSimplex.Strength

/-!
Constraints: an expression that is to be zero or not negative, with a strength and a weight.
Two constraints that demand the same are different as long as their keys differ.
-/

namespace SoftSimplex

inductive Relation where
  | atMost
  | equal
  | atLeast
  deriving DecidableEq, Repr

inductive ConstraintKind where
  | inequality
  | equality
  /-- An equality that holds a variable at the value last suggested for it. -/
  | edit (unknown : Variable)
  /-- An equality that keeps a variable where it was. -/
  | stay (unknown : Variable)
  deriving DecidableEq, Repr

structure Demand (K : Type) where
  expression : Expression K
  kind : ConstraintKind
  strength : Strength
  weight : K

namespace Demand

variable {K : Type}

section Building

variable [Zero K] [One K] [Add K] [Neg K] [Mul K] [Scalar K]

def ofRelation (expression : Expression K) (relation : Relation) (strength : Strength)
    (weight : K) : Demand K :=
  match relation with
  | .equal => ⟨expression, .equality, strength, weight⟩
  | .atLeast => ⟨expression, .inequality, strength, weight⟩
  | .atMost => ⟨-expression, .inequality, strength, weight⟩

def equal (left right : Expression K) (strength : Strength) : Demand K :=
  ofRelation (left - right) .equal strength 1

def atLeast (left right : Expression K) (strength : Strength) : Demand K :=
  ofRelation (left - right) .atLeast strength 1

def atMost (left right : Expression K) (strength : Strength) : Demand K :=
  ofRelation (right - left) .atLeast strength 1

def gap (unknown : Variable) (value : K) : Expression K :=
  Expression.ofConstant value - Expression.ofVariable unknown

def edit (unknown : Variable) (value : K) (strength : Strength) : Demand K :=
  ⟨gap unknown value, .edit unknown, strength, 1⟩

def stay (unknown : Variable) (value : K) (strength : Strength) (weight : K) : Demand K :=
  ⟨gap unknown value, .stay unknown, strength, weight⟩

end Building

def isRequired (demand : Demand K) : Bool := demand.strength.isRequired

def isInequality (demand : Demand K) : Bool := demand.kind == .inequality

def isEdit (demand : Demand K) : Bool :=
  match demand.kind with
  | .edit _ => true
  | _ => false

def isStay (demand : Demand K) : Bool :=
  match demand.kind with
  | .stay _ => true
  | _ => false

def unknown? (demand : Demand K) : Option Variable :=
  match demand.kind with
  | .edit unknown | .stay unknown => some unknown
  | .inequality | .equality => none

def isSatisfied [Zero K] [Add K] [Neg K] [Mul K] [LE K] [DecidableLE K] (demand : Demand K)
    (valueOf : Variable → K) (tolerance : K) : Bool :=
  let value := demand.expression.evaluate valueOf
  if demand.isInequality then -tolerance ≤ value
  else -tolerance ≤ value ∧ value ≤ tolerance

end Demand

/-- A demand with an identity of its own. -/
structure Constraint (K : Type) extends Demand K where
  key : Nat

namespace Constraint

variable {K : Type}

/-- Constraints are compared by identity. -/
instance : BEq (Constraint K) := ⟨fun left right => left.key == right.key⟩

def withStrength (constraint : Constraint K) (strength : Strength) : Constraint K :=
  { constraint with strength }

end Constraint

end SoftSimplex
