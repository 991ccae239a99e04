/-!
The numbers a solver computes with. Rounded and exact numbers go through the same definitions and
differ only in the judgements collected here: what counts as zero, as equal, as worth a pivot.
-/

namespace SoftSimplex

class Scalar (K : Type) where
  /-- Too small to be kept as a coefficient. -/
  negligible : K → Bool
  /-- Equal as far as the numbers can tell. -/
  close : K → K → Bool
  /-- Negative enough, as an objective coefficient, to be worth a pivot. -/
  improving : K → Bool
  /-- Below the largest number a ratio is compared with. -/
  bounded : K → Bool
  /-- What one unit of a strength level is worth in units of the level below it. -/
  placeValue : K

namespace Rounded

/-- Rounded numbers nearer to zero than this count as zero. -/
def tolerance : Float := 1e-8

def largest : Float := 1.7976931348623157e308

def negligible (value : Float) : Bool := value.abs < tolerance

/-- Closeness is relative to the left number, and absolute when either number is zero. -/
def close (left right : Float) : Bool :=
  if left == 0 then right.abs < tolerance
  else if right == 0 then left.abs < tolerance
  else (left - right).abs < left.abs * tolerance

end Rounded

instance : Scalar Float where
  negligible := Rounded.negligible
  close := Rounded.close
  improving value := !decide (-Rounded.tolerance ≤ value)
  bounded value := value < Rounded.largest
  placeValue := 1000

def keepLeast {K α : Type} [LT K] [DecidableLT K] (accept : K → Bool)
    (best : Option (α × K)) (candidate : α × K) : Option (α × K) :=
  match best with
  | none => if accept candidate.2 then some candidate else none
  | some held => if candidate.2 < held.2 then some candidate else some held

def least? {K α : Type} [LT K] [DecidableLT K] (accept : K → Bool)
    (candidates : List (α × K)) : Option (α × K) :=
  candidates.foldl (keepLeast accept) none

end SoftSimplex
