import Mathlib.Logic.Relation
import SoftSimplex.Proofs.Choice
import SoftSimplex.Proofs.Elimination

/-!
What the loops of a tableau do, as relations between the tableau before and the tableau after.
Each loop is a chain of its steps; when it stops, and how it can fail, is part of its statement.
-/

namespace SoftSimplex

namespace Tableau

variable {K : Type} [Zero K] [One K] [Add K] [Neg K] [Mul K] [Div K] [LT K] [DecidableLT K]
  [Scalar K] {before middle after : Tableau K} {objective : Symbol} {limit : Nat}

section Minimizing

def Improves (objective : Symbol) (before after : Tableau K) : Prop :=
  ∃ costs entering leaving row solved, before.row? objective = some costs ∧
    enteringSymbol? costs = some entering ∧ before.leavingSymbol? entering = some leaving ∧
    before.Pivots entering leaving row solved after

/-- Pivots have led to an objective row that no further pivot improves. -/
structure Minimized (objective : Symbol) (before : Tableau K) (least : Expression K)
    (after : Tableau K) : Prop where
  improved : Relation.ReflTransGen (Improves objective) before after
  row : after.row? objective = some least
  settled : enteringSymbol? least = none

def Unbounded (objective : Symbol) (before after : Tableau K) : Prop :=
  Relation.ReflTransGen (Improves objective) before after ∧
    ∃ costs entering, after.row? objective = some costs ∧ enteringSymbol? costs = some entering ∧
      after.leavingSymbol? entering = none

theorem Improves.indexed (improves : before.Improves objective after) : after.Indexed := by
  obtain ⟨_, _, _, _, _, _, _, _, pivots⟩ := improves
  exact pivots.indexed

theorem Improves.isBasic_iff_of_not_pivotable (improves : before.Improves objective after)
    {symbol : Symbol} (fixed : symbol.isPivotable = false) :
    after.isBasic symbol = true ↔ before.isBasic symbol = true := by
  obtain ⟨costs, entering, leaving, row, solved, found, enters, leaves, pivots⟩ := improves
  have notEntering : symbol ≠ entering := by
    rintro rfl
    rw [(entering_mem enters).2] at fixed
    cases fixed
  have notLeaving : symbol ≠ leaving := by
    rintro rfl
    rw [(leaving_mem leaves).2] at fixed
    cases fixed
  rw [pivots.isBasic_after]
  simp [notEntering, notLeaving]

theorem improvements_keep (holds : Tableau K → Prop)
    (improved : Relation.ReflTransGen (Improves objective) before after)
    (kept : ∀ earlier later, earlier.Improves objective later → holds earlier → holds later)
    (start : holds before) : holds after := by
  induction improved with
  | refl => exact start
  | tail _ improves ih => exact kept _ _ improves ih

theorem indexed_of_improvements (improved : Relation.ReflTransGen (Improves objective) before after)
    (indexed : before.Indexed) : after.Indexed :=
  improvements_keep Indexed improved (fun _ _ improves _ => improves.indexed) indexed

theorem isBasic_of_improvements (improved : Relation.ReflTransGen (Improves objective) before after)
    {symbol : Symbol} (fixed : symbol.isPivotable = false) :
    after.isBasic symbol = true ↔ before.isBasic symbol = true :=
  improvements_keep (fun current => current.isBasic symbol = true ↔ before.isBasic symbol = true)
    improved (fun _ _ improves holds => (improves.isBasic_iff_of_not_pivotable fixed).trans holds)
    Iff.rfl

theorem improve_meets (indexed : before.Indexed) :
    (improve objective limit before).Meets
      (fun again after => if again then before.Improves objective after
        else after = before ∧ ∃ least, before.row? objective = some least ∧
          enteringSymbol? least = none)
      (fun fault after => after = before ∧
        (fault = .internal .objectiveMissing ∧ before.row? objective = none ∨
          fault = .internal .objectiveUnbounded ∧
            ∃ costs entering, before.row? objective = some costs ∧
              enteringSymbol? costs = some entering ∧ before.leavingSymbol? entering = none)) := by
  unfold improve
  rw [Action.meets_bind, Action.meets_get]
  cases found : before.row? objective with
  | none => exact ⟨rfl, Or.inl ⟨rfl, rfl⟩⟩
  | some costs =>
    dsimp only
    cases enters : enteringSymbol? costs with
    | none => exact ⟨rfl, costs, rfl, enters⟩
    | some entering =>
      dsimp only
      cases leaves : before.leavingSymbol? entering with
      | none => exact ⟨rfl, Or.inr ⟨rfl, costs, entering, rfl, enters, leaves⟩⟩
      | some leaving =>
        have occurs := (indexed.agrees entering leaving).mp (leaving_mem leaves).1
        refine (Action.meets_bind _ _ _).mpr ((pivot_meets indexed occurs).imp ?_ nofun)
        rintro _ reached ⟨row, solved, pivots⟩
        exact ⟨costs, entering, leaving, row, solved, found, enters, leaves, pivots⟩

theorem minimize_meets (indexed : before.Indexed) :
    (minimize objective limit before).Meets
      (fun _ after => ∃ least, before.Minimized objective least after)
      (fun fault after => Relation.ReflTransGen (Improves objective) before after ∧
        (fault = .internal .objectiveMissing ∧ after.row? objective = none ∨
          fault = .internal .objectiveUnbounded ∧ before.Unbounded objective after)) := by
  refine Action.meets_loop
    (fun current => Relation.ReflTransGen (Improves objective) before current ∧ current.Indexed)
    ?_ ⟨.refl, indexed⟩
  rintro current ⟨improved, currentIndexed⟩
  refine (improve_meets currentIndexed).imp ?_ ?_
  · intro again reached next
    cases again with
    | true => exact ⟨improved.tail next, Improves.indexed next⟩
    | false =>
      obtain ⟨rfl, least, found, settled⟩ := next
      exact ⟨least, improved, found, settled⟩
  · rintro fault reached ⟨rfl, missing | ⟨rfl, unbounded⟩⟩
    · exact ⟨improved, Or.inl missing⟩
    · exact ⟨improved, Or.inr ⟨rfl, improved, unbounded⟩⟩

end Minimizing

section Dropping

variable {marker : Symbol}

inductive Drops (marker : Symbol) (before : Tableau K) : Tableau K → Prop
  | basic (isBasic : before.isBasic marker = true) : Drops marker before (before.removeRow marker)
  | unused (notBasic : before.isBasic marker = false) (noExit : before.exitFor? marker = none) :
      Drops marker before (before.removeColumn marker)
  | exchange {leaving : Symbol} {row solved : Expression K} {middle : Tableau K}
      (notBasic : before.isBasic marker = false) (chosen : before.exitFor? marker = some leaving)
      (pivots : before.Pivots marker leaving row solved middle) :
      Drops marker before (middle.removeRow marker)

theorem dropMarker_meets (indexed : before.Indexed) :
    (dropMarker marker limit before).Meets (fun _ after => before.Drops marker after)
      (fun _ _ => False) := by
  unfold dropMarker
  rw [Action.meets_bind, Action.meets_get]
  split
  · rename_i isBasic
    exact Drops.basic isBasic
  · rename_i notBasic
    have parametric : before.isBasic marker = false := by simpa using notBasic
    cases chosen : before.exitFor? marker with
    | none => exact Drops.unused parametric chosen
    | some leaving =>
      have occurs := (indexed.agrees marker leaving).mp (exit_mem_column chosen)
      refine (Action.meets_bind _ _ _).mpr ((pivot_meets indexed occurs).imp ?_ nofun)
      rintro _ middle ⟨row, solved, pivots⟩
      exact Drops.exchange parametric chosen pivots

end Dropping

end Tableau

end SoftSimplex
