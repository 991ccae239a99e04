import SoftSimplex.Proofs.Linkage
import SoftSimplex.Proofs.Repair

/-!
What a repair achieves, from any linked tableau whose objective no pivotable symbol can lower. It
ends with no restricted row below zero and an objective of which the same holds; it gives up only if
the rows have no proper solution. Nothing is asked of rows that a dummy has, nor of the coefficients
that rows keep.
-/

namespace SoftSimplex

namespace Tableau

/-! The queue holds restricted symbols -/

section Queues

variable {K : Type} {before after : Tableau K}

def QueuesRestricted (tableau : Tableau K) : Prop :=
  ∀ symbol ∈ tableau.infeasible.keys, symbol.isRestricted = true

theorem QueuesRestricted.of_subset (queues : before.QueuesRestricted)
    (subset : after.infeasible.keys ⊆ before.infeasible.keys) : after.QueuesRestricted :=
  fun symbol member => queues symbol (subset member)

theorem QueuesRestricted.of_same (queues : before.QueuesRestricted)
    (same : after.infeasible = before.infeasible) : after.QueuesRestricted := by
  unfold QueuesRestricted
  rw [same]
  exact queues

theorem QueuesRestricted.dequeued (queues : before.QueuesRestricted) :
    before.dequeued.QueuesRestricted :=
  queues.of_subset ((List.dropLast_sublist before.infeasible.entries).map Prod.fst).subset

theorem QueuesRestricted.addRow (queues : before.QueuesRestricted) (basic : Symbol)
    (row : Expression K) : (before.addRow basic row).QueuesRestricted := by
  have same := (sameRows_foldl_noteInserted before basic row.symbols).infeasible
  refine queues.of_same ?_
  unfold Tableau.addRow
  dsimp only
  split <;> exact same

theorem QueuesRestricted.removeRow (queues : before.QueuesRestricted) (basic : Symbol) :
    (before.removeRow basic).QueuesRestricted := by
  unfold Tableau.removeRow
  split
  · exact queues
  · rename_i row _
    have same := (sameRows_foldl_noteRemoved
      { before with rows := before.rows.swapErase basic } basic row.symbols).infeasible
    refine queues.of_subset fun symbol member => ?_
    dsimp only at member
    rw [same] at member
    exact ((Table.mem_keys_swapErase _ _ _).mp member).2

variable [Zero K] [LT K] [DecidableLT K]

theorem QueuesRestricted.checkFeasible (queues : before.QueuesRestricted) (basic : Symbol)
    (constant : K) : (before.checkFeasible basic constant).QueuesRestricted := by
  unfold Tableau.checkFeasible
  split
  · rename_i below
    intro symbol member
    rcases (Table.mem_keys_insert _ _ _ _).mp member with rfl | earlier
    · exact below.1
    · exact queues symbol earlier
  · exact queues

variable [Add K] [Mul K] [Scalar K]

theorem QueuesRestricted.substituteInRow (queues : before.QueuesRestricted) (symbol : Symbol)
    (replacement : Expression K) (basic : Symbol) :
    (before.substituteInRow symbol replacement basic).QueuesRestricted := by
  unfold Tableau.substituteInRow
  split
  · exact queues
  · split
    · exact queues.checkFeasible basic _
    · rename_i next report _
      have same := (sameRows_noteReport (before.setRow basic next) basic report).infeasible
      exact (queues.of_same same).checkFeasible basic _

theorem QueuesRestricted.eliminate (queues : before.QueuesRestricted) (symbol : Symbol)
    (replacement : Expression K) : (before.eliminate symbol replacement).QueuesRestricted := by
  have swept : ∀ (users : List Symbol) (current : Tableau K), current.QueuesRestricted →
      (users.foldl (fun current basic => current.substituteInRow symbol replacement basic)
        current).QueuesRestricted := by
    intro users
    induction users with
    | nil => exact fun _ queues => queues
    | cons basic rest ih => exact fun _ queues => ih _ (queues.substituteInRow symbol replacement basic)
  have opened : ({ before with columns := before.columns.swapErase symbol } :
    Tableau K).QueuesRestricted := queues
  unfold Tableau.eliminate
  dsimp only
  split <;> exact swept (before.column symbol) _ opened

theorem pivot_queues [One K] [Neg K] [Div K] {entering leaving : Symbol} {limit : Nat}
    (queues : before.QueuesRestricted) :
    (pivot entering leaving limit before).Meets (fun _ after => after.QueuesRestricted)
      (fun _ _ => True) := by
  refine pivot_reaches.imp ?_ fun _ _ _ => trivial
  rintro _ _ ⟨solved, rfl⟩
  exact ((queues.removeRow leaving).eliminate entering solved).addRow _ _

end Queues

variable {K : Type} [Field K] [LinearOrder K] {before after twin : Tableau K}
  {entering leaving : Symbol} {costs row solved : Expression K}

/-- What the dual simplex method asks for: costs that no pivotable symbol can lower, no external
symbol in a restricted row, and every row below zero queued. -/
structure DualStart (tableau : Tableau K) : Prop where
  linked : tableau.Linked
  objective : tableau.isBasic .mainObjective = true
  dual : tableau.DualFeasible .mainObjective
  noExternals : ∀ basic row, tableau.row? basic = some row → basic.isRestricted = true →
    ∀ symbol ∈ row.symbols, symbol.isExternal = false
  flagged : tableau.Flagged

/-- What a repair needs beyond that, and keeps. -/
structure Repairable (tableau : Tableau K) : Prop extends tableau.DualStart where
  noObjectives : ∀ basic row, tableau.row? basic = some row → basic.isRestricted = true →
    ∀ symbol ∈ row.symbols, symbol.kind ≠ .objective
  queues : tableau.QueuesRestricted

omit [Field K] [LinearOrder K] in
theorem restricted_of_kinds {symbol : Symbol} (notExternal : symbol.isExternal = false)
    (notObjective : symbol.kind ≠ .objective) : symbol.isRestricted = true := by
  rcases symbol with ⟨id, kind⟩
  cases kind with
  | external => cases notExternal
  | objective => exact absurd rfl notObjective
  | slack => rfl
  | dummy => rfl
  | artificial => rfl

omit [Field K] [LinearOrder K] in
theorem not_objective_of_restricted {symbol : Symbol} (restricted : symbol.isRestricted = true) :
    symbol.isExternal = false ∧ symbol.kind ≠ .objective := by
  rcases symbol with ⟨id, kind⟩
  cases kind with
  | external => cases restricted
  | objective => cases restricted
  | slack => exact ⟨rfl, nofun⟩
  | dummy => exact ⟨rfl, nofun⟩
  | artificial => exact ⟨rfl, nofun⟩

namespace Repairable

theorem enclosed (repairable : before.Repairable) {basic symbol : Symbol}
    (found : before.row? basic = some row) (restricted : basic.isRestricted = true)
    (member : symbol ∈ row.symbols) : symbol.isRestricted = true :=
  restricted_of_kinds (repairable.noExternals basic row found restricted symbol member)
    (repairable.noObjectives basic row found restricted symbol member)

theorem linked_dequeued (repairable : before.Repairable) : before.dequeued.Linked :=
  ⟨repairable.linked.agrees, repairable.linked.parametric⟩

theorem enclosed_of_pivots (repairable : before.Repairable)
    (restricted : leaving.isRestricted = true)
    (pivots : before.dequeued.reindexed.Pivots entering leaving row solved twin) {basic : Symbol}
    {next : Expression K} (found : twin.row? basic = some next)
    (basicRestricted : basic.isRestricted = true) :
    ∀ symbol ∈ next.symbols, symbol.isRestricted = true := by
  have leavingRow : before.row? leaving = some row := pivots.leaves
  have solvedEnclosed : ∀ symbol ∈ solved.symbols, symbol.isRestricted = true :=
    Expression.forall_symbols_exchange pivots.solves restricted fun _ =>
      repairable.enclosed leavingRow restricted
  rcases pivots.row_cases found with ⟨_, rfl⟩ | ⟨_, _, old, was, rfl⟩
  · exact solvedEnclosed
  · exact Expression.forall_symbols_substitute entering
      (fun _ => repairable.enclosed was basicRestricted) solvedEnclosed

theorem settle (repairable : before.Repairable) {last : Symbol}
    (isLast : before.infeasible.lastKey? = some last)
    (settled : ∀ row, before.row? last = some row → 0 ≤ row.constant) :
    before.dequeued.Repairable where
  linked := repairable.linked_dequeued
  objective := repairable.objective
  dual := repairable.dual
  noExternals := repairable.noExternals
  noObjectives := repairable.noObjectives
  flagged := (repairable.flagged.dequeue isLast).flagged fun basic row same found => by
    subst same
    exact not_lt.mpr (settled row found)
  queues := repairable.queues.dequeued

variable [IsStrictOrderedRing K]

theorem not_proper (repairable : before.Repairable) (found : before.row? leaving = some row)
    (restricted : leaving.isRestricted = true) (negative : ¬ 0 ≤ row.constant)
    (stuck : repairingSymbol? costs row = none) {assignment : Symbol → K}
    (solves : before.Solves assignment) : ¬ Proper assignment := by
  intro proper
  have value := solves leaving row found (not_objective_of_restricted restricted).2
  have below := valueAt_le_constant stuck
    (fun symbol member => repairable.enclosed found restricted member) proper
  rw [← value] at below
  have above : 0 ≤ assignment leaving := by
    rcases pivotable_or_dummy restricted with pivotable | isDummy
    · exact proper.nonneg leaving pivotable
    · exact (proper.dummies leaving isDummy).ge
  exact negative (above.trans below)

theorem exchange (repairable : before.Repairable)
    (isLast : before.infeasible.lastKey? = some leaving)
    (found : before.row? .mainObjective = some costs) (negative : ¬ 0 ≤ row.constant)
    (chosen : repairingSymbol? costs row = some entering)
    (pivots : before.dequeued.reindexed.Pivots entering leaving row solved twin)
    (alike : after.Alike twin) (queues : after.QueuesRestricted)
    (flagged : after.FlaggedBut (· = entering)) :
    after.Repairable ∧ ∀ assignment, after.Solves assignment ↔ before.Solves assignment := by
  have indexed := repairable.linked_dequeued.indexed_reindexed
  obtain ⟨positive, enters, _⟩ := repairing_least chosen
  have restricted := repairable.queues leaving (Table.mem_keys_of_lastKey? isLast)
  have enteringRestricted := restricted_of_pivotable enters
  have enclosed : ∀ basic next, after.row? basic = some next → basic.isRestricted = true →
      ∀ symbol ∈ next.symbols, symbol.isRestricted = true := by
    intro basic next isRow basicRestricted
    rw [alike.row?] at isRow
    exact repairable.enclosed_of_pivots restricted pivots isRow basicRestricted
  refine ⟨⟨⟨alike.linked pivots.indexed.linked, ?_, ?_, ?_, ?_⟩, ?_, queues⟩, fun assignment => ?_⟩
  · rw [alike.isBasic, pivots.isBasic_after]
    refine Or.inr ⟨?_, repairable.objective⟩
    rintro rfl
    cases restricted
  · intro next isRow
    rw [alike.row?] at isRow
    exact pivots.dualFeasible indexed rfl found chosen repairable.dual next isRow
  · exact fun basic next isRow basicRestricted symbol member =>
      (not_objective_of_restricted (enclosed basic next isRow basicRestricted symbol member)).1
  · refine flagged.flagged ?_
    rintro basic next rfl isRow
    rw [alike.row?, pivots.row?_after, if_pos rfl] at isRow
    cases isRow
    have raised : 0 < row.coefficient basic * solved.constant := by
      rw [pivots.coefficient_mul_constant indexed positive.ne']
      exact neg_pos.mpr (not_le.mp negative)
    exact not_lt.mpr (pos_of_mul_pos_right raised positive.le).le
  · exact fun basic next isRow basicRestricted symbol member =>
      (not_objective_of_restricted (enclosed basic next isRow basicRestricted symbol member)).2
  · have equations := pivots.equations_iff assignment indexed positive.ne'
      (fun symbol => symbol.kind ≠ .objective) (not_objective_of_restricted restricted).2
      (not_objective_of_restricted enteringRestricted).2
    unfold Solves
    simp only [alike.row?]
    exact equations

theorem repairLast_meets (repairable : before.Repairable) {limit : Nat} :
    (repairLast .mainObjective limit before).Meets
      (fun again after => if again then after.Repairable ∧
          ∀ assignment, after.Solves assignment ↔ before.Solves assignment
        else after = before ∧ before.infeasible.lastKey? = none)
      (fun fault _ => fault = .internal .repairStuck ∧
        ¬ ∃ assignment, before.Solves assignment ∧ Proper assignment) := by
  unfold repairLast
  rw [Action.meets_bind, Action.meets_get]
  cases isLast : before.infeasible.lastKey? with
  | none => exact ⟨rfl, rfl⟩
  | some leaving =>
    dsimp only
    rw [Action.meets_bind, Action.meets_modify]
    have restricted := repairable.queues leaving (Table.mem_keys_of_lastKey? isLast)
    cases found : before.row? leaving with
    | none =>
      refine ⟨repairable.settle isLast fun row isRow => ?_, fun _ => Iff.rfl⟩
      rw [found] at isRow
      cases isRow
    | some row =>
      dsimp only
      split
      · rename_i settled
        refine ⟨repairable.settle isLast fun other isRow => ?_, fun _ => Iff.rfl⟩
        rw [found] at isRow
        cases isRow
        exact settled
      · rename_i negative
        obtain ⟨costs, objectiveRow⟩ := (before.isBasic_iff _).mp repairable.objective
        rw [objectiveRow]
        dsimp only
        cases chosen : repairingSymbol? costs row with
        | none =>
          refine ⟨rfl, ?_⟩
          rintro ⟨assignment, solves, proper⟩
          exact repairable.not_proper found restricted negative chosen solves proper
        | some entering =>
          have occurs : before.dequeued.Occurs entering leaving :=
            ⟨row, found, (repairing_mem chosen).1⟩
          refine (Action.meets_bind _ _ _).mpr (((repairable.linked_dequeued.pivot_meets occurs).and
            (pivot_flagged.and (pivot_queues repairable.queues.dequeued))).imp ?_ ?_)
          · rintro _ after ⟨⟨twin, alike, other, solved, pivots⟩, flagged, queues⟩
            have same : some other = some row := pivots.leaves.symm.trans found
            cases same
            exact repairable.exchange isLast objectiveRow negative chosen pivots alike queues
              (flagged (repairable.flagged.dequeue isLast))
          · exact fun _ _ impossible => impossible.1.elim

end Repairable

/-- A repair ends with no restricted row below zero and costs that are still not negative; it gives
up only if no solution has its slacks and artificials above zero and its dummies at zero. -/
theorem repair_recovers [IsStrictOrderedRing K] (repairable : before.Repairable) (limit : Nat) :
    (repair .mainObjective limit before).Meets
      (fun _ after =>
        (∀ basic row, after.row? basic = some row → basic.isRestricted = true →
          0 ≤ row.constant) ∧
        ∃ costs, after.row? .mainObjective = some costs ∧
          ∀ symbol : Symbol, symbol.isPivotable = true → 0 ≤ costs.coefficient symbol)
      (fun fault _ => fault = .internal .repairStuck ∧
        ¬ ∃ assignment, before.Solves assignment ∧ Proper assignment) := by
  refine Action.meets_loop (fun current => current.Repairable ∧
    ∀ assignment, current.Solves assignment ↔ before.Solves assignment) ?_
    ⟨repairable, fun _ => Iff.rfl⟩
  rintro current ⟨currentRepairable, same⟩
  refine currentRepairable.repairLast_meets.imp ?_ ?_
  · intro again after next
    cases again with
    | true => exact ⟨next.1, fun assignment => (next.2 assignment).trans (same assignment)⟩
    | false =>
      obtain ⟨rfl, empty⟩ := next
      obtain ⟨costs, found⟩ := (after.isBasic_iff _).mp currentRepairable.objective
      exact ⟨fun basic row isRow restricted =>
        not_lt.mp (currentRepairable.flagged.nonneg empty isRow restricted),
        costs, found, currentRepairable.dual costs found⟩
  · rintro fault after ⟨rfl, unsolvable⟩
    refine ⟨rfl, ?_⟩
    rintro ⟨assignment, solves, proper⟩
    exact unsolvable ⟨assignment, (same assignment).mpr solves, proper⟩

theorem DualStart.of_entries {start : Tableau ℚ} (linked : start.Linked)
    (objective : start.isBasic .mainObjective = true)
    (settled : ∀ entry ∈ start.rows.entries, entry.1 = .mainObjective →
      enteringSymbol? entry.2 = none)
    (noExternals : ∀ entry ∈ start.rows.entries, entry.1.isRestricted = true →
      ∀ symbol ∈ entry.2.symbols, symbol.isExternal = false)
    (flagged : ∀ entry ∈ start.rows.entries, ¬ False → entry.1.isRestricted = true →
      entry.2.constant < 0 → entry.1 ∈ start.infeasible.keys) : start.DualStart := by
  refine ⟨linked, objective, fun costs found => ?_, (start.forall_row?_iff _).mpr noExternals,
    (start.forall_row?_iff _).mpr flagged⟩
  have entry := (start.rows.mem_entries_iff _ _).mpr found
  exact settled_nonneg (settled _ entry rfl)

/-- Two rows below zero, one of them a dummy's, are repaired one after the other. -/
theorem repair_recovers_pair :
    let first : Symbol := ⟨1, .slack⟩
    let second : Symbol := ⟨2, .slack⟩
    let costs := (Expression.ofSymbol first (1 : ℚ)).addScaled (.ofSymbol second 3) 1
    let short := ((Expression.ofSymbol first (1 : ℚ)).addScaled (.ofSymbol second (-1)) 1).withConstant
      (-2)
    let owed := (Expression.ofSymbol second (1 : ℚ)).withConstant (-1)
    let start := ((((addRow ∅ .mainObjective costs).addRow ⟨3, .slack⟩ short).addRow ⟨4, .dummy⟩
      owed).markInfeasible ⟨3, .slack⟩).markInfeasible ⟨4, .dummy⟩
    ((repair .mainObjective 3 start).state?.bind (·.row? first)).map (·.constant) = some 3 ∧
      (repair .mainObjective 3 start).Meets
        (fun _ after =>
          (∀ basic row, after.row? basic = some row → basic.isRestricted = true →
            0 ≤ row.constant) ∧
          ∃ costs, after.row? .mainObjective = some costs ∧
            ∀ symbol : Symbol, symbol.isPivotable = true → 0 ≤ costs.coefficient symbol)
        (fun fault _ => fault = .internal .repairStuck ∧
          ¬ ∃ assignment, start.Solves assignment ∧ Proper assignment) := by
  intro first second costs short owed start
  have dualStart : start.DualStart := .of_entries (by decide +kernel) (by decide +kernel)
    (by decide +kernel) (by decide +kernel) (by decide +kernel)
  have noObjectives := (start.forall_row?_iff fun basic row => basic.isRestricted = true →
    ∀ symbol ∈ row.symbols, symbol.kind ≠ .objective).mpr (by decide +kernel)
  have queues : start.QueuesRestricted := by
    unfold QueuesRestricted
    decide +kernel
  exact ⟨by decide +kernel, repair_recovers ⟨dualStart, noObjectives, queues⟩ 3⟩

/-- Without the two conditions that `Repairable` adds, a repair gives up on rows that have a proper
solution: on the queued row of an external symbol at -1, and on the row of a slack that is raised by
a symbol of the objective kind alone. -/
theorem repair_stuck_unenclosed :
    let outside : Symbol := ⟨1, .external⟩
    let slack : Symbol := ⟨1, .slack⟩
    let aim : Symbol := ⟨1, .objective⟩
    let free := ((addRow ∅ .mainObjective (.ofConstant (0 : ℚ))).addRow outside
      (.ofConstant (-1))).markInfeasible outside
    let aimed := ((addRow ∅ .mainObjective (.ofConstant (0 : ℚ))).addRow slack
      ((Expression.ofSymbol aim 1).withConstant (-1))).markInfeasible slack
    ∀ start ∈ [free, aimed], start.DualStart ∧
      (repair .mainObjective 1 start).fault? = some (.internal .repairStuck) ∧
      ∃ assignment, start.Solves assignment ∧ Proper assignment := by
  intro outside slack aim free aimed
  have freeStart : free.DualStart := .of_entries (by decide +kernel) (by decide +kernel)
    (by decide +kernel) (by decide +kernel) (by decide +kernel)
  have aimedStart : aimed.DualStart := .of_entries (by decide +kernel) (by decide +kernel)
    (by decide +kernel) (by decide +kernel) (by decide +kernel)
  have proper : ∀ (symbol : Symbol) (value : ℚ), symbol.isPivotable = false →
      symbol.isDummy = false → Proper (Function.update (fun _ => 0) symbol value) := by
    intro symbol value notPivotable notDummy
    have zero : Proper fun _ : Symbol => (0 : ℚ) := ⟨fun _ _ => le_refl 0, fun _ _ => rfl⟩
    exact zero.update (by rw [notPivotable]; nofun) (by rw [notDummy]; nofun)
  have freeSolved : free.Solves (Function.update (fun _ => 0) outside (-1)) :=
    (free.forall_row?_iff _).mpr (by decide +kernel)
  have aimedSolved : aimed.Solves (Function.update (fun _ => 0) aim 1) :=
    (aimed.forall_row?_iff _).mpr (by decide +kernel)
  rw [List.forall_mem_cons, List.forall_mem_singleton]
  exact ⟨⟨freeStart, by decide +kernel, _, freeSolved, proper outside (-1) rfl rfl⟩,
    aimedStart, by decide +kernel, _, aimedSolved, proper aim 1 rfl rfl⟩

end Tableau

end SoftSimplex
