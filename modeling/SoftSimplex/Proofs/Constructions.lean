import SoftSimplex.Proofs.Judging

/-!
Expressions as they are built. A coefficient that a scaling makes negligible stays, through further
sums and substitutions, until something touches its term. What is built is free of negligible
coefficients exactly when no scaling has left one behind.
-/

namespace SoftSimplex

/-- Everything that can be done to build an expression. -/
inductive Construction (K : Type) where
  | constant (value : K)
  | symbol (made : Symbol) (value : K)
  | withConstant (base : Construction K) (value : K)
  | addTerm (base : Construction K) (touched : Symbol) (amount : K)
  | setTerm (base : Construction K) (touched : Symbol) (value : K)
  | removeTerm (base : Construction K) (touched : Symbol)
  | times (base : Construction K) (factor : K)
  | neg (base : Construction K)
  | add (left right : Construction K)
  | sub (left right : Construction K)
  | addScaled (base added : Construction K) (factor : K)
  | substitute (base : Construction K) (replaced : Symbol) (replacement : Construction K)
  | solveFor (base : Construction K) (subject : Symbol)
  | exchange (base : Construction K) (leaving entering : Symbol)

namespace Construction

variable {K : Type} [Zero K] [One K] [Add K] [Neg K] [Mul K] [Div K] [Scalar K]

def result : Construction K → Expression K
  | constant value => .ofConstant value
  | symbol made value => .ofSymbol made value
  | withConstant base value => base.result.withConstant value
  | addTerm base touched amount => (base.result.addTerm touched amount).1
  | setTerm base touched value => (base.result.setTerm touched value).1
  | removeTerm base touched => base.result.removeTerm touched
  | times base factor => base.result * factor
  | neg base => -base.result
  | add left right => left.result + right.result
  | sub left right => left.result - right.result
  | addScaled base added factor => base.result.addScaled added.result factor
  | substitute base replaced replacement => base.result.substitute replaced replacement.result
  | solveFor base subject => ((base.result.solveFor? subject).map Prod.snd).getD base.result
  | exchange base leaving entering => (base.result.exchange? leaving entering).getD base.result

/-- A scaling has made the coefficient of the symbol negligible, and nothing has touched the term
since. -/
def LeavesNegligible (construction : Construction K) (symbol : Symbol) : Prop :=
  match construction with
  | constant _ | .symbol _ _ => False
  | withConstant base _ => base.LeavesNegligible symbol
  | addTerm base touched _ | setTerm base touched _ | removeTerm base touched =>
    symbol ≠ touched ∧ base.LeavesNegligible symbol
  | times base factor => base.result.ScalesToNegligible factor symbol
  | neg base => base.result.ScalesToNegligible (-1) symbol
  | add base added | sub base added | addScaled base added _ =>
    symbol ∉ added.result.symbols ∧ base.LeavesNegligible symbol
  | substitute base replaced replacement =>
    if replaced ∈ base.result.symbols then
      symbol ∉ replacement.result.symbols ∧ symbol ≠ replaced ∧ base.LeavesNegligible symbol
    else base.LeavesNegligible symbol
  | solveFor base subject =>
    match base.result.terms.get? subject with
    | some value => symbol ≠ subject ∧ base.result.ScalesToNegligible (-(1 / value)) symbol
    | none => base.LeavesNegligible symbol
  | exchange base leaving entering =>
    match base.result.terms.get? entering with
    | some value =>
      symbol ≠ leaving ∧ symbol ≠ entering ∧ base.result.ScalesToNegligible (-(1 / value)) symbol
    | none => base.LeavesNegligible symbol

theorem keepsNegligible_iff_leaves (construction : Construction K) (symbol : Symbol) :
    construction.result.KeepsNegligible symbol ↔ construction.LeavesNegligible symbol := by
  induction construction with
  | constant value => exact ⟨nofun, nofun⟩
  | symbol made value =>
    refine (Expression.keepsNegligible_setTerm (.ofConstant 0) made symbol value).trans ⟨?_, nofun⟩
    rintro ⟨_, _, found, _⟩
    cases found
  | withConstant base value ih => exact ih
  | addTerm base touched amount ih =>
    exact (base.result.keepsNegligible_addTerm touched symbol amount).trans
      (and_congr_right fun _ => ih)
  | setTerm base touched value ih =>
    exact (base.result.keepsNegligible_setTerm touched symbol value).trans (and_congr_right fun _ => ih)
  | removeTerm base touched ih =>
    exact (base.result.keepsNegligible_removeTerm touched symbol).trans (and_congr_right fun _ => ih)
  | times base factor => exact base.result.keepsNegligible_times symbol factor
  | neg base => exact base.result.keepsNegligible_times symbol (-1)
  | add base added ih =>
    exact (base.result.keepsNegligible_addScaled symbol added.result 1).trans
      (and_congr_right fun _ => ih)
  | sub base added ih =>
    exact (base.result.keepsNegligible_addScaled symbol added.result (-1)).trans
      (and_congr_right fun _ => ih)
  | addScaled base added factor ih =>
    exact (base.result.keepsNegligible_addScaled symbol added.result factor).trans
      (and_congr_right fun _ => ih)
  | substitute base replaced replacement ih =>
    rw [result, LeavesNegligible]
    split
    · rename_i occurs
      obtain ⟨value, found⟩ := (base.result.mem_symbols_iff replaced).mp occurs
      rw [Expression.keepsNegligible_substitute symbol _ _ found, ih]
    · rename_i missing
      rw [Expression.substitute_of_not_mem missing, ih]
  | solveFor base subject ih =>
    rw [result, LeavesNegligible]
    split
    · rename_i value found
      obtain ⟨reciprocal, solved, solves, remains⟩ :=
        Expression.keepsNegligible_solveFor symbol found
      rw [solves]
      exact remains
    · rename_i missing
      rw [Expression.solveFor?, missing]
      exact ih
  | exchange base leaving entering ih =>
    rw [result, LeavesNegligible]
    split
    · rename_i value found
      obtain ⟨reciprocal, solved, solves, remains⟩ :=
        Expression.keepsNegligible_solveFor symbol found
      rw [Expression.exchange?, solves]
      exact (solved.keepsNegligible_setTerm leaving symbol reciprocal).trans
        (and_congr_right fun _ => remains)
    · rename_i missing
      rw [Expression.exchange?, Expression.solveFor?, missing]
      exact ih

/-- What is built shows no negligible coefficient exactly when no scaling has left one. -/
theorem clear_iff_nothing_left (construction : Construction K) :
    construction.result.Clear ↔ ∀ symbol, ¬ construction.LeavesNegligible symbol := by
  rw [Expression.clear_iff]
  exact forall_congr' fun symbol => not_congr (construction.keepsNegligible_iff_leaves symbol)

section Coded

attribute [local instance] Scalar.coded

/-- A multiple by zero keeps its term, which a pivot can then choose. Solving for a symbol with a
large coefficient turns that of another symbol into less than the tolerance. -/
theorem clear_lost_scaled :
    let zeroed : Construction ℚ := .times (.symbol ⟨1, .slack⟩ 1) 0
    let solved : Construction ℚ :=
      .solveFor (.addTerm (.symbol ⟨1, .external⟩ 1000000000) ⟨2, .slack⟩ 1) ⟨1, .external⟩
    ¬ zeroed.result.Clear ∧ zeroed.result.terms.entries = [(⟨1, .slack⟩, 0)] ∧
      zeroed.result.isConstant = false ∧ zeroed.result.firstPivotable? = some ⟨1, .slack⟩ ∧
      ¬ solved.result.Clear ∧
      solved.result.terms.entries = [(⟨2, .slack⟩, -1 / 1000000000)] := by
  intro zeroed solved
  have zero : ¬ zeroed.result.Clear := fun isClear =>
    absurd (isClear.contained ⟨1, .slack⟩ (by decide +kernel)) (by decide +kernel)
  have small : ¬ solved.result.Clear := fun isClear =>
    absurd (isClear.contained ⟨2, .slack⟩ (by decide +kernel)) (by decide +kernel)
  exact ⟨zero, by decide +kernel, by decide +kernel, by decide +kernel, small, by decide +kernel⟩

end Coded

end Construction

end SoftSimplex
