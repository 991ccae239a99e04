import SoftSimplex.Proofs.Solutions

/-!
Pivots restate the same equations. The solutions of a tableau stay the same through every pivot and
so do the values of its objectives on them; an equation that comes in narrows the solutions to
those that meet it, by whichever way it comes.
-/

namespace SoftSimplex

namespace Tableau

variable {K : Type} [Field K] [LinearOrder K] {before middle after : Tableau K}
  {assignment : Symbol → K}

/-- The same equations, and objectives of the same value on their solutions. -/
structure Restates (before after : Tableau K) : Prop where
  pruned : after.Pruned
  solves : ∀ assignment, after.Solves assignment ↔ before.Solves assignment
  objectives : ∀ objective, objective.kind = .objective → ∀ assignment, before.Solves assignment →
    (after.row? objective).map (·.valueAt assignment) =
      (before.row? objective).map (·.valueAt assignment)

omit [LinearOrder K] in
theorem Restates.refl (pruned : before.Pruned) : before.Restates before :=
  ⟨pruned, fun _ => Iff.rfl, fun _ _ _ _ => rfl⟩

omit [LinearOrder K] in
theorem Restates.trans (first : before.Restates middle) (second : middle.Restates after) :
    before.Restates after where
  pruned := second.pruned
  solves assignment := (second.solves assignment).trans (first.solves assignment)
  objectives objective isObjective assignment solves :=
    (second.objectives objective isObjective assignment ((first.solves assignment).mpr solves)).trans
      (first.objectives objective isObjective assignment solves)

section Pivots

variable {entering leaving : Symbol} {row solved : Expression K}
  (pivots : before.Pivots entering leaving row solved after) (indexed : before.Indexed)

section Exchanging

variable (nonzero : row.coefficient entering ≠ 0)

include pivots indexed nonzero

variable (assignment) in
theorem Pivots.exchanged :
    assignment entering = solved.valueAt assignment ↔
      assignment leaving = row.valueAt assignment := by
  have exchange := Expression.valueAt_exchange assignment pivots.solves
    (pivots.leaving_not_mem indexed) nonzero
  constructor
  · intro holds
    rw [holds, sub_self, mul_zero] at exchange
    exact (sub_eq_zero.mp exchange.symm)
  · intro holds
    rw [holds, sub_self] at exchange
    exact (sub_eq_zero.mp ((mul_eq_zero.mp exchange).resolve_left nonzero)).symm

variable (assignment) in
theorem Pivots.equations_iff (counts : Symbol → Prop) (leavingCounts : counts leaving)
    (enteringCounts : counts entering) :
    (∀ basic next, after.row? basic = some next → counts basic →
        assignment basic = next.valueAt assignment) ↔
      ∀ basic old, before.row? basic = some old → counts basic →
        assignment basic = old.valueAt assignment := by
  have exchanged := pivots.exchanged assignment indexed nonzero
  have enteringRow : before.row? entering = none := by
    rw [← not_isBasic_iff]
    exact indexed.not_basic_of_mem pivots.leaves pivots.mem
  constructor
  · intro solves basic old found included
    have enteringHolds : assignment entering = solved.valueAt assignment :=
      solves entering solved (by rw [pivots.row?_after, if_pos rfl]) enteringCounts
    by_cases same : leaving = basic
    · subst same
      rw [pivots.leaves] at found
      cases found
      exact exchanged.mp enteringHolds
    · have notEntering : entering ≠ basic := by
        rintro rfl
        rw [enteringRow] at found
        cases found
      have holds := solves basic (old.substitute entering solved)
        (by rw [pivots.row?_after, if_neg notEntering, if_neg same, found]; rfl) included
      rw [Expression.valueAt_substitute, ← enteringHolds, sub_self, mul_zero, add_zero] at holds
      exact holds
  · intro solves basic next found included
    have enteringHolds := exchanged.mpr (solves leaving row pivots.leaves leavingCounts)
    rcases pivots.row_cases found with ⟨rfl, rfl⟩ | ⟨_, _, old, was, rfl⟩
    · exact enteringHolds
    · rw [Expression.valueAt_substitute, ← enteringHolds, sub_self, mul_zero, add_zero]
      exact solves basic old was included

end Exchanging

variable (pruned : before.Pruned)

include pivots indexed pruned

omit indexed in
theorem Pivots.coefficient_ne_zero : row.coefficient entering ≠ 0 :=
  (pruned leaving row pivots.leaves).coefficient_ne_zero pivots.mem

theorem Pivots.solves_iff (notObjective : leaving.kind ≠ .objective)
    (enteringNot : entering.kind ≠ .objective) :
    after.Solves assignment ↔ before.Solves assignment :=
  pivots.equations_iff assignment indexed (pivots.coefficient_ne_zero pruned) _ notObjective
    enteringNot

omit indexed in
theorem Pivots.pruned_after : after.Pruned := by
  intro basic next found
  rcases pivots.row_cases found with ⟨_, rfl⟩ | ⟨_, _, old, was, rfl⟩
  · exact (pruned leaving row pivots.leaves).exchange pivots.solves
  · exact (pruned basic old was).substitute entering solved

theorem Pivots.restates (notObjective : leaving.kind ≠ .objective)
    (enteringNot : entering.kind ≠ .objective) : before.Restates after where
  pruned := pivots.pruned_after pruned
  solves assignment := pivots.solves_iff indexed pruned notObjective enteringNot
  objectives objective isObjective assignment solves := by
    have enteringHolds : assignment entering = solved.valueAt assignment :=
      (pivots.exchanged assignment indexed (pivots.coefficient_ne_zero pruned)).mpr
        (solves leaving row pivots.leaves notObjective)
    have notEntering : entering ≠ objective := fun same => enteringNot (same ▸ isObjective)
    have notLeaving : leaving ≠ objective := fun same => notObjective (same ▸ isObjective)
    rw [pivots.row?_after, if_neg notEntering, if_neg notLeaving, Option.map_map]
    refine congrArg (fun value => Option.map value _) (funext fun old => ?_)
    simp only [Function.comp_apply]
    rw [Expression.valueAt_substitute, ← enteringHolds, sub_self, mul_zero, add_zero]

end Pivots

theorem Improves.restates {objective : Symbol} (improves : before.Improves objective after)
    (indexed : before.Indexed) (pruned : before.Pruned) : before.Restates after := by
  obtain ⟨costs, entering, leaving, row, solved, _, enters, leaves, pivots⟩ := improves
  refine pivots.restates indexed pruned ?_ ?_ <;> intro isObjective
  · have pivotable := (leaving_mem leaves).2
    simp [Symbol.isPivotable, isObjective, SymbolKind.isPivotable] at pivotable
  · have pivotable := (entering_mem enters).2
    simp [Symbol.isPivotable, isObjective, SymbolKind.isPivotable] at pivotable

theorem restates_of_improvements {objective : Symbol}
    (improved : Relation.ReflTransGen (Improves objective) before after) (indexed : before.Indexed)
    (pruned : before.Pruned) : before.Restates after := by
  have kept := improvements_keep (fun current => current.Indexed ∧ before.Restates current) improved ?_
    ⟨indexed, .refl pruned⟩
  · exact kept.2
  · rintro earlier later improves ⟨earlierIndexed, restates⟩
    exact ⟨improves.indexed, restates.trans (improves.restates earlierIndexed restates.pruned)⟩

/-! Equations that come in -/

section Introduces

variable {subject : Symbol} {row solved : Expression K}
  (introduces : before.Introduces subject row solved after) (rowPruned : row.Pruned)
  (occurs : subject ∈ row.symbols)

include introduces rowPruned occurs

variable (assignment) in
theorem Introduces.solved_holds :
    assignment subject = solved.valueAt assignment ↔ row.valueAt assignment = 0 := by
  obtain ⟨reciprocal, solves⟩ := introduces.solves
  have nonzero := rowPruned.coefficient_ne_zero occurs
  rw [Expression.valueAt_solveFor solves nonzero, mul_eq_zero]
  simp [nonzero, sub_eq_zero]

theorem Introduces.solves_iff (notBasic : before.isBasic subject = false)
    (notObjective : subject.kind ≠ .objective) :
    after.Solves assignment ↔ before.Solves assignment ∧ row.valueAt assignment = 0 := by
  have holds := introduces.solved_holds assignment rowPruned occurs
  rw [← holds]
  have noRow := (before.not_isBasic_iff subject).mp notBasic
  constructor
  · intro solves
    have subjectHolds : assignment subject = solved.valueAt assignment :=
      solves subject solved (by rw [introduces.defines.rows, if_pos rfl]) notObjective
    refine ⟨?_, subjectHolds⟩
    intro basic old found nonObjective
    have different : subject ≠ basic := by
      rintro rfl
      rw [noRow] at found
      cases found
    have next := solves basic (old.substitute subject solved)
      (by rw [introduces.defines.rows, if_neg different, found]; rfl) nonObjective
    rw [Expression.valueAt_substitute, ← subjectHolds, sub_self, mul_zero, add_zero] at next
    exact next
  · rintro ⟨solves, subjectHolds⟩ basic next found nonObjective
    rw [introduces.defines.rows] at found
    split at found
    · rename_i same
      cases found
      exact same ▸ subjectHolds
    · obtain ⟨old, was, rfl⟩ := Option.map_eq_some_iff.mp found
      rw [Expression.valueAt_substitute, ← subjectHolds, sub_self, mul_zero, add_zero]
      exact solves basic old was nonObjective

omit occurs in
theorem Introduces.pruned (pruned : before.Pruned) : after.Pruned := by
  intro basic next found
  rw [introduces.defines.rows] at found
  split at found
  · cases found
    obtain ⟨reciprocal, solves⟩ := introduces.solves
    exact rowPruned.solveFor solves
  · obtain ⟨old, was, rfl⟩ := Option.map_eq_some_iff.mp found
    exact (pruned basic old was).substitute subject solved

theorem Introduces.objective {objective : Symbol} (different : subject ≠ objective)
    (holds : row.valueAt assignment = 0) :
    (after.row? objective).map (·.valueAt assignment) =
      (before.row? objective).map (·.valueAt assignment) := by
  have subjectHolds := (introduces.solved_holds assignment rowPruned occurs).mpr holds
  rw [introduces.defines.rows, if_neg different, Option.map_map]
  refine congrArg (fun value => Option.map value _) (funext fun old => ?_)
  simp only [Function.comp_apply]
  rw [Expression.valueAt_substitute, ← subjectHolds, sub_self, mul_zero, add_zero]

end Introduces

section Passing

variable {artificial objective : Symbol} {row : Expression K}

omit [LinearOrder K] in
theorem valueAt_update_fresh {symbol : Symbol} {expression : Expression K}
    (missing : symbol ∉ expression.symbols) (value : K) :
    expression.valueAt (Function.update assignment symbol value) = expression.valueAt assignment := by
  refine expression.valueAt_congr _ fun other member => Function.update_of_ne ?_ _ _
  rintro rfl
  exact missing member

omit [Field K] [LinearOrder K] in
theorem not_mem_of_noColumn (indexed : before.Indexed) {symbol basic : Symbol}
    {other : Expression K} (noColumn : before.hasColumn symbol = false)
    (found : before.row? basic = some other) : symbol ∉ other.symbols := by
  intro member
  have column := indexed.hasColumn_of_occurs ⟨other, found, member⟩
  rw [noColumn] at column
  cases column

omit [LinearOrder K] in
theorem solves_update_fresh (indexed : before.Indexed) {symbol : Symbol}
    (notBasic : before.isBasic symbol = false) (noColumn : before.hasColumn symbol = false)
    (value : K) :
    before.Solves (Function.update assignment symbol value) ↔ before.Solves assignment := by
  unfold Solves
  refine forall_congr' fun basic => forall_congr' fun other => forall_congr' fun found =>
    forall_congr' fun _ => ?_
  have different : basic ≠ symbol := by
    rintro rfl
    rw [isBasic_of_row? found] at notBasic
    cases notBasic
  rw [valueAt_update_fresh (not_mem_of_noColumn indexed noColumn found),
    Function.update_of_ne different]

variable (entry : before.Entry artificial objective row)

include entry

omit [LinearOrder K] in
theorem Entry.solves_withArtificial :
    (before.withArtificial artificial objective row).Solves assignment ↔
      before.Solves assignment ∧ assignment artificial = row.valueAt assignment := by
  have notObjective : artificial.kind ≠ .objective := by simp [entry.isArtificial]
  have noArtificial := (before.not_isBasic_iff _).mp entry.freshArtificial.1
  have noObjective := (before.not_isBasic_iff _).mp entry.freshObjective.1
  constructor
  · intro solves
    refine ⟨?_, solves artificial row (by rw [row?_withArtificial, if_pos rfl]) notObjective⟩
    intro basic other found nonObjective
    refine solves basic other ?_ nonObjective
    have apartArtificial : artificial ≠ basic := by
      rintro rfl
      rw [noArtificial] at found
      cases found
    have apartObjective : objective ≠ basic := by
      rintro rfl
      exact nonObjective entry.isObjective
    rw [row?_withArtificial, if_neg apartArtificial, if_neg apartObjective, found]
  · rintro ⟨solves, holds⟩ basic other found nonObjective
    rw [row?_withArtificial] at found
    split at found
    · rename_i same
      cases found
      exact same ▸ holds
    · split at found
      · rename_i same
        exact absurd (same ▸ entry.isObjective) nonObjective
      · exact solves basic other found nonObjective

omit [LinearOrder K] entry in
theorem pruned_withArtificial (pruned : before.Pruned) (rowPruned : row.Pruned) :
    (before.withArtificial artificial objective row).Pruned := by
  intro basic other found
  rw [row?_withArtificial] at found
  split at found
  · cases found
    exact rowPruned
  · split at found
    · cases found
      exact rowPruned
    · exact pruned basic other found

theorem Entry.objective_value (pruned : before.Pruned) (rowPruned : row.Pruned)
    {reached : Tableau K} {costs : Expression K}
    (improved : Relation.ReflTransGen (Improves objective)
      (before.withArtificial artificial objective row) reached)
    (found : reached.row? objective = some costs) (solves : reached.Solves assignment) :
    costs.valueAt assignment = assignment artificial := by
  have restates := restates_of_improvements improved entry.indexed_withArtificial
    (pruned_withArtificial pruned rowPruned)
  have started := (restates.solves assignment).mp solves
  have same := restates.objectives objective entry.isObjective assignment started
  rw [found, row?_withArtificial, if_neg (Ne.symm entry.distinct), if_pos rfl] at same
  rw [(entry.solves_withArtificial.mp started).2]
  exact Option.some.inj same

theorem Entry.objective_constant (pruned : before.Pruned) (rowPruned : row.Pruned)
    {reached : Tableau K} {costs : Expression K}
    (improved : Relation.ReflTransGen (Improves objective)
      (before.withArtificial artificial objective row) reached)
    (found : reached.row? objective = some costs) :
    costs.constant = reached.basicSolution artificial := by
  have indexed := indexed_of_improvements improved entry.indexed_withArtificial
  rw [← row_valueAt_basicSolution indexed found]
  exact entry.objective_value pruned rowPruned improved found (solves_completed indexed _)

omit [Field K] [LinearOrder K] entry in
theorem not_objective_of_firstPivotable {entering : Symbol}
    (enters : row.firstPivotable? = some entering) : entering.kind ≠ .objective := by
  intro same
  have pivotable := List.find?_some enters
  simp [Symbol.isPivotable, same, SymbolKind.isPivotable] at pivotable

omit entry in
theorem solves_of_expels {reached : Tableau K} (indexed : reached.Indexed) (pruned : reached.Pruned)
    (isObjective : objective.kind = .objective) (isArtificial : artificial.kind = .artificial)
    (zero : reached.basicSolution artificial = 0) (expels : reached.Expels artificial objective after) :
    after.Solves assignment ↔ reached.Solves (Function.update assignment artificial 0) := by
  have notObjective : artificial.kind ≠ .objective := by simp [isArtificial]
  cases expels with
  | parametric missing =>
    rw [solves_removeRow_objective isObjective,
      solves_removeColumn indexed ((reached.not_isBasic_iff _).mpr missing)]
  | @constant stays found isConstant =>
    have constantValue : stays.valueAt assignment = 0 := by
      have none : stays.terms.entries = [] := List.isEmpty_iff.mp isConstant
      have isZero : stays.constant = 0 := by rw [← basicSolution_of_row found, zero]
      simp [Expression.valueAt, Table.total, none, isZero]
    rw [solves_removeRow_objective isObjective, solves_removeRow indexed found notObjective,
      constantValue]
  | @pivot entering stays solved middle enters pivots =>
    have enteringNot := not_objective_of_firstPivotable enters
    have notBasic : middle.isBasic artificial = false := by
      rw [← Bool.not_eq_true, pivots.isBasic_after]
      simp [Ne.symm (pivots.different indexed)]
    rw [solves_removeRow_objective isObjective, solves_removeColumn pivots.indexed notBasic,
      pivots.solves_iff indexed pruned notObjective enteringNot]

theorem Entry.expels_of_passes (pruned : before.Pruned) (rowPruned : row.Pruned)
    (passes : before.Passes artificial objective row after) :
    ∃ reached, Relation.ReflTransGen (Improves objective)
        (before.withArtificial artificial objective row) reached ∧ reached.Indexed ∧
      (before.withArtificial artificial objective row).Restates reached ∧
      reached.basicSolution artificial = 0 ∧ reached.Expels artificial objective after := by
  obtain ⟨least, reached, ⟨improved, found, _⟩, close, expels⟩ := passes
  refine ⟨reached, improved, indexed_of_improvements improved entry.indexed_withArtificial,
    restates_of_improvements improved entry.indexed_withArtificial
      (pruned_withArtificial pruned rowPruned), ?_, expels⟩
  rw [← entry.objective_constant pruned rowPruned improved found]
  simpa [Scalar.close] using close

theorem Entry.solves_of_passes (pruned : before.Pruned) (rowPruned : row.Pruned)
    (passes : before.Passes artificial objective row after) :
    after.Solves assignment ↔ before.Solves assignment ∧ row.valueAt assignment = 0 := by
  obtain ⟨reached, _, indexed, restates, zero, expels⟩ :=
    entry.expels_of_passes pruned rowPruned passes
  rw [solves_of_expels indexed restates.pruned entry.isObjective entry.isArtificial zero expels,
    restates.solves, entry.solves_withArtificial,
    solves_update_fresh entry.indexed entry.freshArtificial.1 entry.freshArtificial.2,
    Function.update_self, valueAt_update_fresh entry.unmentioned.1]
  exact and_congr_right fun _ => eq_comm

omit [LinearOrder K] entry in
theorem objective_removeColumn (indexed : before.Indexed) (symbol basic : Symbol) :
    ((before.removeColumn symbol).row? basic).map (·.valueAt assignment) =
      (before.row? basic).map (·.valueAt (Function.update assignment symbol 0)) := by
  rw [row?_removeColumn indexed, Option.map_map]
  refine congrArg (fun value => Option.map value _) (funext fun row => ?_)
  simp only [Function.comp_apply]
  have missing : symbol ∉ (row.removeTerm symbol).symbols := fun stays =>
    ((row.mem_symbols_removeTerm symbol symbol).mp stays).1 rfl
  have zeroed := row.valueAt_removeTerm (Function.update assignment symbol 0) symbol
  rwa [valueAt_update_fresh missing, Function.update_self, mul_zero, sub_zero] at zeroed

omit entry in
theorem objectives_of_expels {reached : Tableau K} (indexed : reached.Indexed)
    (pruned : reached.Pruned) (isArtificial : artificial.kind = .artificial)
    (expels : reached.Expels artificial objective after) {other : Symbol}
    (isObjective : other.kind = .objective) (different : other ≠ objective)
    (solves : reached.Solves (Function.update assignment artificial 0)) :
    (after.row? other).map (·.valueAt assignment) =
      (reached.row? other).map (·.valueAt (Function.update assignment artificial 0)) := by
  have notObjective : artificial.kind ≠ .objective := by simp [isArtificial]
  cases expels with
  | parametric _ => rw [row?_removeRow, if_neg (Ne.symm different), objective_removeColumn indexed]
  | constant found _ =>
    have apart : artificial ≠ other := fun same => notObjective (same ▸ isObjective)
    rw [row?_removeRow, if_neg (Ne.symm different), row?_removeRow, if_neg apart]
    cases isRow : reached.row? other with
    | none => rfl
    | some costs =>
      have missing : artificial ∉ costs.symbols :=
        indexed.not_mem_of_basic (isBasic_of_row? found) isRow
      exact congrArg some (valueAt_update_fresh missing 0).symm
  | @pivot entering stays solved middle enters pivots =>
    have enteringNot := not_objective_of_firstPivotable enters
    rw [row?_removeRow, if_neg (Ne.symm different), objective_removeColumn pivots.indexed]
    exact (pivots.restates indexed pruned notObjective enteringNot).objectives other isObjective _
      solves

theorem Entry.objectives_of_passes (pruned : before.Pruned) (rowPruned : row.Pruned)
    (passes : before.Passes artificial objective row after) {other : Symbol}
    (isObjective : other.kind = .objective) (different : other ≠ objective)
    (solves : after.Solves assignment) :
    (after.row? other).map (·.valueAt assignment) =
      (before.row? other).map (·.valueAt assignment) := by
  obtain ⟨reached, _, indexed, restates, zero, expels⟩ :=
    entry.expels_of_passes pruned rowPruned passes
  have reachedSolves := (solves_of_expels indexed restates.pruned entry.isObjective
    entry.isArtificial zero expels).mp solves
  rw [objectives_of_expels indexed restates.pruned entry.isArtificial expels isObjective different
    reachedSolves, restates.objectives other isObjective _ ((restates.solves _).mp reachedSolves),
    row?_withArtificial, if_neg, if_neg (Ne.symm different)]
  · cases isRow : before.row? other with
    | none => rfl
    | some costs =>
      have missing := not_mem_of_noColumn entry.indexed entry.freshArtificial.2 isRow
      exact congrArg some (valueAt_update_fresh missing 0)
  · intro same
    have kind := entry.isArtificial
    rw [same, isObjective] at kind
    cases kind

omit [LinearOrder K] entry in
theorem Pruned.removeColumn (pruned : before.Pruned) (indexed : before.Indexed) (symbol : Symbol) :
    (before.removeColumn symbol).Pruned := by
  intro basic next found
  rw [row?_removeColumn indexed] at found
  obtain ⟨old, was, rfl⟩ := Option.map_eq_some_iff.mp found
  exact (pruned basic old was).removeTerm symbol

omit [LinearOrder K] entry in
theorem Pruned.removeRow (pruned : before.Pruned) (symbol : Symbol) :
    (before.removeRow symbol).Pruned := by
  intro basic next found
  exact pruned basic next ((row?_removeRow_eq_some_iff ..).mp found).2

theorem Entry.pruned_of_passes (pruned : before.Pruned) (rowPruned : row.Pruned)
    (passes : before.Passes artificial objective row after) : after.Pruned := by
  obtain ⟨reached, _, indexed, restates, _, expels⟩ :=
    entry.expels_of_passes pruned rowPruned passes
  cases expels with
  | parametric _ => exact (restates.pruned.removeColumn indexed _).removeRow _
  | constant _ _ => exact (restates.pruned.removeRow _).removeRow _
  | pivot enters pivots =>
    exact ((pivots.pruned_after restates.pruned).removeColumn pivots.indexed _).removeRow _

end Passing

/-! Dropping a marker -/

section Dropping

variable {marker : Symbol}

omit [LinearOrder K] in
theorem solves_removeRow_exists (indexed : before.Indexed) {row : Expression K}
    (found : before.row? marker = some row) (notObjective : marker.kind ≠ .objective) :
    (before.removeRow marker).Solves assignment ↔
      ∃ value, before.Solves (Function.update assignment marker value) := by
  rw [solves_removeRow indexed found notObjective]
  constructor
  · exact fun solves => ⟨_, solves⟩
  · rintro ⟨value, solves⟩
    have holds := solves marker row found notObjective
    rw [Function.update_self, valueAt_update_basic indexed assignment (isBasic_of_row? found) found]
      at holds
    rwa [← holds]

theorem Drops.solves_iff (drops : before.Drops marker after) (indexed : before.Indexed)
    (pruned : before.Pruned) (notObjective : marker.kind ≠ .objective) :
    after.Solves assignment ↔ ∃ value, before.Solves (Function.update assignment marker value) := by
  cases drops with
  | basic isBasic =>
    obtain ⟨row, found⟩ := (before.isBasic_iff marker).mp isBasic
    exact solves_removeRow_exists indexed found notObjective
  | unused notBasic noExit =>
    rw [solves_removeColumn indexed notBasic]
    constructor
    · exact fun solves => ⟨0, solves⟩
    · rintro ⟨value, solves⟩ basic row found nonObjective
      have missing : marker ∉ row.symbols := by
        intro member
        exact nonObjective (objective_of_no_exit noExit
          ((indexed.agrees marker basic).mpr ⟨row, found, member⟩))
      have different : basic ≠ marker := by
        rintro rfl
        rw [isBasic_of_row? found] at notBasic
        cases notBasic
      have holds := solves basic row found nonObjective
      rw [valueAt_update_fresh missing, Function.update_of_ne different] at holds
      rwa [valueAt_update_fresh missing, Function.update_of_ne different]
  | exchange _ chosen pivots =>
    have found := pivots.row?_after marker
    rw [if_pos rfl] at found
    rw [solves_removeRow_exists pivots.indexed found notObjective]
    exact exists_congr fun value =>
      pivots.solves_iff indexed pruned (exit_not_objective chosen) notObjective

theorem Drops.objective (drops : before.Drops marker after) (indexed : before.Indexed)
    (pruned : before.Pruned) (notObjective : marker.kind ≠ .objective) {objective : Symbol}
    (isObjective : objective.kind = .objective) (solves : after.Solves assignment) :
    ∃ value, before.Solves (Function.update assignment marker value) ∧
      (after.row? objective).map (·.valueAt assignment) =
        (before.row? objective).map (·.valueAt (Function.update assignment marker value)) := by
  have apart : marker ≠ objective := fun same => notObjective (same ▸ isObjective)
  have basic : ∀ {tableau : Tableau K} {value : K}, tableau.Indexed →
      tableau.isBasic marker = true →
      ((tableau.removeRow marker).row? objective).map (·.valueAt assignment) =
        (tableau.row? objective).map (·.valueAt (Function.update assignment marker value)) := by
    intro tableau value isIndexed isBasic
    rw [row?_removeRow, if_neg apart]
    cases found : tableau.row? objective with
    | none => rfl
    | some row =>
      rw [Option.map_some, Option.map_some, valueAt_update_basic isIndexed _ isBasic found]
  cases drops with
  | basic isBasic =>
    obtain ⟨row, found⟩ := (before.isBasic_iff marker).mp isBasic
    obtain ⟨value, earlier⟩ := (solves_removeRow_exists indexed found notObjective).mp solves
    exact ⟨value, earlier, basic indexed isBasic⟩
  | unused notBasic noExit =>
    refine ⟨0, (solves_removeColumn indexed notBasic).mp solves, ?_⟩
    rw [row?_removeColumn indexed, Option.map_map]
    exact congrArg (Option.map · _) (funext fun row => valueAt_removeTerm_zero row)
  | exchange _ chosen pivots =>
    have isBasic := (pivots.isBasic_after marker).mpr (.inl rfl)
    obtain ⟨row, found⟩ := (Tableau.isBasic_iff _ marker).mp isBasic
    obtain ⟨value, later⟩ := (solves_removeRow_exists pivots.indexed found notObjective).mp solves
    have restates := pivots.restates indexed pruned (exit_not_objective chosen) notObjective
    have earlier := (restates.solves _).mp later
    refine ⟨value, earlier, ?_⟩
    rw [basic pivots.indexed isBasic]
    exact restates.objectives objective isObjective _ earlier

theorem Drops.pruned_after (drops : before.Drops marker after) (indexed : before.Indexed)
    (pruned : before.Pruned) : after.Pruned := by
  cases drops with
  | basic _ => exact pruned.removeRow marker
  | unused _ _ => exact pruned.removeColumn indexed marker
  | exchange _ _ pivots => exact (pivots.pruned_after pruned).removeRow marker

end Dropping

end Tableau

end SoftSimplex
