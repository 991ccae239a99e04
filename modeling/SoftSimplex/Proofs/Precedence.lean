import SoftSimplex.Proofs.Optimality

/-!
Precedence between the strengths. The objective counts the violations of all levels as one number,
in which a unit of one level is worth a thousand of the next. The published values make that number
least. What a rival saves at a level it therefore costs below, at least at that rate: unless the
levels below can grow that much, no rival does better at the first level at which it differs.
-/

namespace SoftSimplex

variable {K : Type} [Field K] [LinearOrder K]

/-! Levels -/

namespace Weight

omit [Field K] in
theorem compareSlots?_cons_eq_lt_iff (left right : K) (rest : List (K × K)) :
    compareSlots? ((left, right) :: rest) = some .lt ↔
      left < right ∨ left = right ∧ compareSlots? rest = some .lt := by
  rw [compareSlots?, compareSlot?]
  rcases lt_trichotomy left right with below | same | above
  · simp [below]
  · simp [same]
  · simp [above, above.not_gt, above.ne']

omit [Field K] in
theorem compare?_eq_lt_iff (left right : Weight K) :
    left.compare? right = some .lt ↔ left.strong < right.strong ∨
      left.strong = right.strong ∧ (left.medium < right.medium ∨
        left.medium = right.medium ∧ left.weak < right.weak) := by
  have none : compareSlots? ([] : List (K × K)) ≠ some .lt := nofun
  simp only [compare?, slots, List.zip_cons_cons, List.zip_nil_right, compareSlots?_cons_eq_lt_iff,
    none, and_false, or_false]

/-- What the first weight saves at the first level at which it is the lower one, it costs below, a
thousand for one. -/
def PaysBelow (rival own : Weight K) : Prop :=
  (rival.strong < own.strong ∧
    1000 • 1000 • (own.strong - rival.strong) ≤
      1000 • (rival.medium - own.medium) + (rival.weak - own.weak)) ∨
  (rival.strong = own.strong ∧ rival.medium < own.medium ∧
    1000 • (own.medium - rival.medium) ≤ rival.weak - own.weak)

theorem collapse_eq (weight : Weight K) :
    weight.collapse = 1000 * (1000 * weight.strong) + 1000 * weight.medium + weight.weak := by
  simp only [collapse, Scalar.placeValue]
  ring

variable [IsStrictOrderedRing K]

theorem paysBelow_of_collapse_le {rival own : Weight K} (least : own.collapse ≤ rival.collapse)
    (precedes : rival.compare? own = some .lt) : rival.PaysBelow own := by
  rw [collapse_eq, collapse_eq] at least
  unfold PaysBelow
  simp only [nsmul_eq_mul, Nat.cast_ofNat]
  rcases (compare?_eq_lt_iff rival own).mp precedes with strong | ⟨strong, medium | ⟨medium, weak⟩⟩
  · exact Or.inl ⟨strong, by linarith⟩
  · exact Or.inr ⟨strong, medium, by rw [strong] at least; linarith⟩
  · rw [strong, medium] at least
    linarith

end Weight

namespace Solver

variable {solver : Solver K}

def violationAt (solver : Solver K) (strength : Strength) (valueOf : Variable → K) : K :=
  solver.installed.total fun _ entry =>
    if entry.constraint.strength = strength then
      entry.constraint.weight * entry.constraint.violation valueOf
    else 0

/-- What values violate, level by level. -/
def violations (solver : Solver K) (valueOf : Variable → K) : Weight K :=
  ⟨solver.violationAt .strong valueOf, solver.violationAt .medium valueOf,
    solver.violationAt .weak valueOf⟩

theorem penalty_eq_collapse (solver : Solver K) (valueOf : Variable → K) :
    solver.penalty valueOf = (solver.violations valueOf).collapse := by
  rw [Weight.collapse_eq]
  unfold violations violationAt penalty Table.total
  rw [← List.sum_map_mul_left, ← List.sum_map_mul_left, ← List.sum_map_mul_left, ← List.sum_map_add,
    ← List.sum_map_add]
  refine congrArg List.sum (List.map_congr_left fun item _ => ?_)
  unfold Demand.penalty Demand.isRequired Strength.unitCost
  cases strength : item.2.constraint.strength <;>
    simp only [strength, Strength.isRequired, Strength.levelWeight, Weight.times, Weight.collapse,
      Scalar.placeValue, if_true, if_false, reduceCtorEq, Bool.false_eq_true] <;> ring

end Solver

namespace Session

variable [IsStrictOrderedRing K] {session : Session K}

/-- Values published after additions meet what is required and count the least, so that whatever
precedes them level by level pays below. -/
theorem paysBelow_of_assembled
    (assembled : Assembled (fun _ _ => False) (fun fault => fault.isInternal = false) session)
    (autoSolve : session.solver.config.autoSolve = true) :
    session.solver.RequirementsHold session.solver.value ∧
      ∀ valueOf, session.solver.RequirementsHold valueOf →
        let own := session.solver.violations session.solver.value
        let rival := session.solver.violations valueOf
        own.collapse ≤ rival.collapse ∧ (rival.compare? own = some .lt → rival.PaysBelow own) := by
  obtain ⟨sound, accounts, settled⟩ := assembled.accounts
  obtain ⟨holds, optimal⟩ := accounts.optimal sound.solver (settled (Or.inl autoSolve))
  refine ⟨holds, fun valueOf requirements => ?_⟩
  have least := optimal valueOf requirements
  rw [Solver.penalty_eq_collapse, Solver.penalty_eq_collapse] at least
  exact ⟨least, Weight.paysBelow_of_collapse_le least⟩

/-- Weak wishes, however heavy together, and a medium one give way to a strong one that they do not
outweigh a thousandfold. -/
theorem paysBelow_of_assembled_eighty :
    let session : Session ℚ := (start (.withConfig .standard) .log).replay 8
      [.newVariable none 0, .make (.ofRelation (.ofVariable ⟨1⟩) .equal .weak 100),
        .make (.ofRelation (.ofVariable ⟨1⟩) .equal .weak 100),
        .make (.equal (.ofVariable ⟨1⟩) (.ofConstant 80) .strong),
        .make (.equal (.ofVariable ⟨1⟩) (.ofConstant 30) .medium), .add 0, .add 1, .add 2, .add 3]
    let own := session.solver.violations session.solver.value
    let rival := session.solver.violations fun _ => 30
    session.solver.config.autoSolve = true ∧ session.solver.value ⟨1⟩ = 80 ∧
      own = ⟨0, 50, 16000⟩ ∧ rival = ⟨50, 0, 6000⟩ ∧
      session.solver.RequirementsHold session.solver.value ∧
      own.collapse ≤ rival.collapse ∧ (rival.compare? own = some .lt → rival.PaysBelow own) := by
  intro session own rival
  have assembled : session.Assembled (fun _ _ => False) (fun fault => fault.isInternal = false) := by
    refine (Runs.fresh _ _).replay ⟨⟨rfl, ?_⟩, ⟨⟨?_, ?_⟩, ?_⟩, ⟨⟨?_, ?_⟩, ?_⟩, ⟨⟨?_, ?_⟩, ?_⟩,
      ⟨⟨?_, ?_⟩, ?_⟩, ⟨trivial, ?_⟩, ⟨trivial, ?_⟩, ⟨trivial, ?_⟩, ⟨trivial, ?_⟩, trivial⟩
    all_goals
      try change ∀ fault ∈ Outcome.fault? _, Fault.isInternal fault = false
      decide +kernel
  have autoSolve : session.solver.config.autoSolve = true := by decide +kernel
  obtain ⟨holds, least⟩ := paysBelow_of_assembled assembled autoSolve
  exact ⟨autoSolve, by decide +kernel, by decide +kernel, by decide +kernel, holds,
    least (fun _ => 30) (by decide +kernel)⟩

/-- A heavy wish outranks a stronger one: at two thousand for one the medium wish has its way, and
the values that a comparison of the levels puts first are not the published ones. -/
theorem published_outranked_heavy :
    let session : Session ℚ := (start (.withConfig .standard) .log).replay 8
      [.newVariable none 0, .make (.equal (.ofVariable ⟨1⟩) (.ofConstant 1) .strong),
        .make (.ofRelation (.ofVariable ⟨1⟩) .equal .medium 2000), .add 0, .add 1]
    session.Assembled (fun _ _ => False) (fun _ => False) ∧
      session.solver.config.autoSolve = true ∧ session.solver.constraintCount = 2 ∧
      session.solver.value ⟨1⟩ = 0 ∧ (session.solver.RequirementsHold fun _ => 1) ∧
      (session.solver.violations fun _ => 1).compare?
        (session.solver.violations session.solver.value) = some .lt := by
  intro session
  refine ⟨?_, by decide +kernel, by decide +kernel, by decide +kernel, by decide +kernel,
    by decide +kernel⟩
  refine (Runs.fresh _ _).replay ⟨⟨rfl, ?_⟩, ⟨⟨?_, ?_⟩, ?_⟩, ⟨⟨?_, ?_⟩, ?_⟩, ⟨trivial, ?_⟩,
    ⟨trivial, ?_⟩, trivial⟩
  all_goals
    try change ∀ fault ∈ Outcome.fault? _, False
    decide +kernel

end Session

end SoftSimplex
