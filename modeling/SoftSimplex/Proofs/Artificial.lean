import SoftSimplex.Proofs.Phases

/-!
Equations that come in by way of an artificial symbol. The symbol starts with the row of the
equation and so does its objective; the module says how the way can end, and how it can fail.
-/

namespace SoftSimplex

namespace Tableau

variable {K : Type}

section Entry

variable {before : Tableau K} {artificial objective : Symbol} {row : Expression K}

def withArtificial (tableau : Tableau K) (artificial objective : Symbol) (row : Expression K) :
    Tableau K :=
  (tableau.addRow objective row).addRow artificial row

theorem row?_withArtificial (before : Tableau K) (artificial objective : Symbol)
    (row : Expression K) (basic : Symbol) :
    (before.withArtificial artificial objective row).row? basic =
      if artificial = basic then some row
      else if objective = basic then some row else before.row? basic := by
  rw [withArtificial, row?_addRow, row?_addRow]

structure Entry (before : Tableau K) (artificial objective : Symbol) (row : Expression K) :
    Prop where
  indexed : before.Indexed
  isObjective : objective.kind = .objective
  isArtificial : artificial.kind = .artificial
  freshArtificial : before.isBasic artificial = false ∧ before.hasColumn artificial = false
  freshObjective : before.isBasic objective = false ∧ before.hasColumn objective = false
  parametric : ∀ symbol ∈ row.symbols, before.isBasic symbol = false
  unmentioned : artificial ∉ row.symbols ∧ objective ∉ row.symbols

namespace Entry

variable (entry : before.Entry artificial objective row)

include entry

theorem distinct : objective ≠ artificial := by
  rintro rfl
  have isObjective := entry.isObjective
  rw [entry.isArtificial] at isObjective
  cases isObjective

theorem withObjective_indexed : (before.addRow objective row).Indexed := by
  refine entry.indexed.addFreshRow entry.freshObjective.1 entry.freshObjective.2 ?_
  intro symbol member
  refine ⟨?_, entry.parametric symbol member⟩
  rintro rfl
  exact entry.unmentioned.2 member

theorem indexed_withArtificial : (before.withArtificial artificial objective row).Indexed := by
  have distinct := entry.distinct
  refine entry.withObjective_indexed.addFreshRow ?_ ?_ ?_
  · rw [← Bool.not_eq_true, isBasic_addRow, entry.freshArtificial.1]
    simpa using Ne.symm distinct
  · rw [← Bool.not_eq_true, hasColumn_addRow, entry.freshArtificial.2]
    simpa using entry.unmentioned.1
  · intro symbol member
    refine ⟨?_, ?_⟩
    · rintro rfl
      exact entry.unmentioned.1 member
    · rw [← Bool.not_eq_true, isBasic_addRow, entry.parametric symbol member]
      simp only [Bool.false_eq_true, or_false]
      rintro rfl
      exact entry.unmentioned.2 member

end Entry

end Entry

variable [Zero K] [One K] [Add K] [Neg K] [Mul K] [Div K] [LT K] [DecidableLT K] [Scalar K]
  {before : Tableau K} {artificial objective : Symbol} {row : Expression K} {limit : Nat}

inductive Expels (artificial objective : Symbol) (before : Tableau K) : Tableau K → Prop
  | parametric (missing : before.row? artificial = none) :
      Expels artificial objective before
        ((before.removeColumn artificial).removeRow objective)
  | constant {row : Expression K} (found : before.row? artificial = some row)
      (isConstant : row.isConstant = true) :
      Expels artificial objective before ((before.removeRow artificial).removeRow objective)
  | pivot {entering : Symbol} {row solved : Expression K} {middle : Tableau K}
      (enters : row.firstPivotable? = some entering)
      (pivots : before.Pivots entering artificial row solved middle) :
      Expels artificial objective before
        ((middle.removeColumn artificial).removeRow objective)

def Passes (artificial objective : Symbol) (row : Expression K) (before after : Tableau K) : Prop :=
  ∃ least reached, (before.withArtificial artificial objective row).Minimized objective least
      reached ∧ Scalar.close least.constant 0 = true ∧ Expels artificial objective reached after

inductive Refuses (artificial objective : Symbol) (row : Expression K) (before : Tableau K) :
    Fault → Prop
  | positive {least : Expression K} {reached : Tableau K}
      (minimized : (before.withArtificial artificial objective row).Minimized objective least
        reached) (apart : Scalar.close least.constant 0 = false) :
      Refuses artificial objective row before .requiredFailure
  | unbounded {reached : Tableau K}
      (escapes : (before.withArtificial artificial objective row).Unbounded objective reached) :
      Refuses artificial objective row before (.internal .objectiveUnbounded)
  | stuck {least stays : Expression K} {reached : Tableau K}
      (minimized : (before.withArtificial artificial objective row).Minimized objective least
        reached) (zero : Scalar.close least.constant 0 = true)
      (found : reached.row? artificial = some stays) (varies : stays.isConstant = false)
      (noneEnters : stays.firstPivotable? = none) :
      Refuses artificial objective row before (.internal .artificialRowStuck)

theorem Entry.objective_stays (entry : before.Entry artificial objective row) {reached : Tableau K}
    (improved : Relation.ReflTransGen (Improves objective)
      (before.withArtificial artificial objective row) reached) :
    reached.isBasic objective = true := by
  have fixed : objective.isPivotable = false := by
    simp [Symbol.isPivotable, entry.isObjective, SymbolKind.isPivotable]
  rw [isBasic_of_improvements improved fixed, withArtificial, isBasic_addRow, isBasic_addRow]
  exact Or.inr (Or.inl rfl)

theorem expelArtificial_meets (indexed : before.Indexed) :
    (expelArtificial artificial objective limit before).Meets
      (fun _ after => before.Expels artificial objective after)
      (fun fault _ => fault = .internal .artificialRowStuck ∧
        ∃ stays, before.row? artificial = some stays ∧ stays.isConstant = false ∧
          stays.firstPivotable? = none) := by
  unfold expelArtificial
  rw [Action.meets_bind, Action.meets_get]
  cases found : before.row? artificial with
  | none => exact Expels.parametric found
  | some row =>
    dsimp only
    split
    · rename_i isConstant
      exact Expels.constant found isConstant
    · rename_i varies
      cases enters : row.firstPivotable? with
      | none => exact ⟨rfl, row, rfl, by simpa using varies, enters⟩
      | some entering =>
        dsimp only
        have member : entering ∈ row.symbols := List.mem_of_find?_eq_some enters
        refine (Action.meets_bind _ _ _).mpr
          ((pivot_meets indexed ⟨row, found, member⟩).imp ?_ nofun)
        rintro _ middle ⟨other, solved, pivots⟩
        have same : other = row := by
          have leaves := pivots.leaves
          rw [found] at leaves
          exact (Option.some.inj leaves).symm
        subst same
        exact Expels.pivot enters pivots

theorem addByArtificial_meets (entry : before.Entry artificial objective row) :
    (addByArtificial artificial objective row limit before).Meets
      (fun _ after => before.Passes artificial objective row after)
      (fun fault _ => before.Refuses artificial objective row fault) := by
  unfold addByArtificial
  simp only [Action.meets_bind, Action.meets_report, Action.meets_modify, Action.meets_get]
  refine (minimize_meets entry.indexed_withArtificial).imp ?_ ?_
  · rintro _ reached ⟨least, minimized⟩
    have reachedIndexed :=
      indexed_of_improvements minimized.improved entry.indexed_withArtificial
    simp only [minimized.row]
    cases zero : Scalar.close least.constant 0 with
    | false => exact Refuses.positive minimized zero
    | true =>
      refine (expelArtificial_meets reachedIndexed).imp ?_ ?_
      · intro _ after expels
        exact ⟨least, reached, minimized, zero, expels⟩
      · rintro fault _ ⟨rfl, stays, found, varies, noneEnters⟩
        exact Refuses.stuck minimized zero found varies noneEnters
  · rintro fault reached ⟨improved, ⟨rfl, missing⟩ | ⟨rfl, escapes⟩⟩
    · have stays := entry.objective_stays improved
      rw [(reached.not_isBasic_iff objective).mpr missing] at stays
      cases stays
    · exact Refuses.unbounded escapes

end Tableau

end SoftSimplex
