import SoftSimplex.Solver.Install

/-!
Stays: constraints of low strength that keep variables where they are as long as nothing moves them.
-/

namespace SoftSimplex

namespace Solver

variable {K : Type} [Zero K] [One K] [Add K] [Neg K] [Mul K] [Div K] [LT K] [DecidableLT K]
  [Scalar K]

def addStay (unknown : Variable) (strength : Strength) (weight : K) :
    Action K (Solver K) (Constraint K) := do
  let solver ← Action.get
  addNew (.stay unknown (solver.value unknown) strength weight)

def addVariable (unknown : Variable) : Action K (Solver K) Unit := do
  let solver ← Action.get
  if solver.containsVariable unknown then return ()
  else
    let _ ← (addStay unknown .weak 1).mapFault
      (Fault.replacing .requiredFailure (.internal .weakStayRefused))
    return ()

def addPointStay (horizontal vertical : Variable) (weight : K) :
    Action K (Solver K) (Constraint K × Constraint K) := do
  let first ← addStay horizontal .weak weight
  let second ← addStay vertical .weak weight
  return (first, second)

def addPointStaysFrom (weight : K) :
    List (Variable × Variable) → Action K (Solver K) (List (Constraint K))
  | [] => return []
  | (horizontal, vertical) :: rest => do
    let (first, second) ← addPointStay horizontal vertical weight
    let solver ← Action.get
    let others ← addPointStaysFrom (weight * solver.config.pointStayGrowth) rest
    return first :: second :: others

def addPointStays (points : List (Variable × Variable)) :
    Action K (Solver K) (List (Constraint K)) :=
  addPointStaysFrom 1 points

end Solver

end SoftSimplex
