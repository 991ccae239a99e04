import SoftSimplex.Scalar

/-!
Strengths and the weights that they give to violations. A weight has one slot for each level that
can be violated; an objective sees the slots as one number in which a level outweighs those below.
-/

namespace SoftSimplex

inductive Strength where
  | weak
  | medium
  | strong
  | required
  deriving DecidableEq, Repr

namespace Strength

instance : Inhabited Strength := ⟨required⟩

def isRequired : Strength → Bool
  | required => true
  | _ => false

def rank : Strength → Nat
  | weak => 0
  | medium => 1
  | strong => 2
  | required => 3

def name : Strength → String
  | weak => "weak"
  | medium => "medium"
  | strong => "strong"
  | required => "required"

instance : Ord Strength := ⟨fun left right => compare left.rank right.rank⟩

end Strength

structure Weight (K : Type) where
  strong : K
  medium : K
  weak : K
  deriving BEq, DecidableEq

namespace Weight

variable {K : Type}

def zero [Zero K] : Weight K := ⟨0, 0, 0⟩

def times [Mul K] (weight : Weight K) (factor : K) : Weight K :=
  ⟨weight.strong * factor, weight.medium * factor, weight.weak * factor⟩

def add [Add K] (left right : Weight K) : Weight K :=
  ⟨left.strong + right.strong, left.medium + right.medium, left.weak + right.weak⟩

def slots (weight : Weight K) : List K := [weight.strong, weight.medium, weight.weak]

def collapse [Zero K] [One K] [Add K] [Mul K] [Scalar K] (weight : Weight K) : K :=
  let level := 1 * Scalar.placeValue
  0 + weight.weak * 1 + weight.medium * level + weight.strong * (level * Scalar.placeValue)

def compareSlot? [LT K] [DecidableLT K] [LE K] [DecidableLE K] (left right : K) :
    Option Ordering :=
  if left < right then some .lt
  else if right < left then some .gt
  else if left ≤ right ∧ right ≤ left then some .eq
  else none

def compareSlots? [LT K] [DecidableLT K] [LE K] [DecidableLE K] :
    List (K × K) → Option Ordering
  | [] => some .eq
  | (left, right) :: rest =>
    match compareSlot? left right with
    | some .eq => compareSlots? rest
    | decided => decided

def compare? [LT K] [DecidableLT K] [LE K] [DecidableLE K] (left right : Weight K) :
    Option Ordering :=
  compareSlots? (left.slots.zip right.slots)

def isNegative [Zero K] [LT K] [DecidableLT K] [LE K] [DecidableLE K] (weight : Weight K) : Bool :=
  weight.compare? zero == some .lt

end Weight

namespace Strength

variable {K : Type} [Zero K] [One K] [Scalar K]

def levelWeight : Strength → Weight K
  | required => ⟨Scalar.placeValue, Scalar.placeValue, Scalar.placeValue⟩
  | strong => ⟨1, 0, 0⟩
  | medium => ⟨0, 1, 0⟩
  | weak => ⟨0, 0, 1⟩

def unitCost [Add K] [Mul K] (strength : Strength) (weight : K) : K :=
  (strength.levelWeight.times weight).collapse

end Strength

end SoftSimplex
