import SoftSimplex.Proofs.Disclosure

/-!
Resolving twice. A resolution leaves an empty queue, variables that have what there is to publish
and stays that are settled; the rows that settle are never rows of variables. So the next resolution
has nothing to repair, publishes what is there and settles nothing, whatever the numbers are.
-/

namespace SoftSimplex

variable {K : Type}

namespace Tableau

theorem repair_idle [Zero K] [One K] [Add K] [Neg K] [Mul K] [Div K] [LT K] [DecidableLT K]
    [LE K] [DecidableLE K] [Scalar K] {tableau : Tableau K} {limit : Nat} (objective : Symbol)
    (emptied : tableau.infeasible = ∅) (rounds : 0 < limit) :
    repair objective limit tableau = .done () tableau [] := by
  obtain ⟨count, rfl⟩ := Nat.exists_eq_succ_of_ne_zero rounds.ne'
  have failing : repairLast objective count.succ tableau = .done false tableau [] := by
    unfold repairLast
    rw [Action.get_bind, emptied]
    rfl
  exact Action.bind_done failing

variable [Zero K]

theorem infeasible_settleStays (tableau : Tableau K) (pairs : List (Symbol × Symbol)) :
    (pairs.foldl Solver.settleStay tableau).infeasible = tableau.infeasible := by
  induction pairs generalizing tableau with
  | nil => rfl
  | cons pair rest ih => exact ih (Solver.settleStay tableau pair)

def SettledAt (tableau : Tableau K) (pair : Symbol × Symbol) : Prop :=
  ∀ row, tableau.row? (tableau.stayRow pair) = some row → row.constant = 0

theorem SettledAt.settleStay {tableau : Tableau K} {pair : Symbol × Symbol}
    (settled : tableau.SettledAt pair) : Solver.settleStay tableau pair = tableau := by
  have same : tableau.rows.modify (tableau.stayRow pair) (·.withConstant 0) = tableau.rows := by
    refine Table.modify_eq_self fun row found => ?_
    rw [← settled row found]
    rfl
  exact congrArg (fun rows => { tableau with rows }) same

theorem settleStays_eq_self {tableau : Tableau K} {pairs : List (Symbol × Symbol)}
    (settled : ∀ pair ∈ pairs, tableau.SettledAt pair) :
    pairs.foldl Solver.settleStay tableau = tableau := by
  induction pairs with
  | nil => rfl
  | cons pair rest ih =>
    obtain ⟨first, others⟩ := List.forall_mem_cons.mp settled
    rw [List.foldl_cons, first.settleStay, ih others]

theorem settledAt_settleStays (tableau : Tableau K) {pairs : List (Symbol × Symbol)}
    {pair : Symbol × Symbol} (member : pair ∈ pairs) :
    (pairs.foldl Solver.settleStay tableau).SettledAt pair := by
  have shifts := tableau.shifts_settleStays pairs
  have sameRow : (pairs.foldl Solver.settleStay tableau).stayRow pair = tableau.stayRow pair := by
    unfold stayRow
    rw [shifts.isBasic]
  intro row found
  rw [sameRow, shifts.rows] at found
  obtain ⟨old, _, rfl⟩ := Option.map_eq_some_iff.mp found
  exact if_pos (List.mem_map_of_mem member)

end Tableau

namespace Solver

/-! What a resolution leaves -/

structure Resolved [Zero K] (solver : Solver K) : Prop where
  indexed : solver.tableau.Indexed
  emptied : solver.tableau.infeasible = ∅
  published : ∀ unknown value, (unknown, value) ∈ solver.assignments →
    ∃ info, solver.unknowns.get? unknown = some info ∧ info.value = value
  solved : solver.needsSolving = false
  settled : ∀ pair ∈ solver.stays, solver.tableau.SettledAt pair

theorem setValue_eq_self {solver : Solver K} {unknown : Variable} {value : K}
    {info : VariableInfo K} (found : solver.unknowns.get? unknown = some info)
    (same : info.value = value) : solver.setValue unknown value = solver := by
  subst same
  have kept : solver.unknowns.upsert unknown ⟨none, info.value⟩
      (fun old => { old with value := info.value }) = solver.unknowns := by
    unfold Table.upsert
    rw [found]
    exact Table.insert_eq_self found
  exact congrArg (fun unknowns => { solver with unknowns }) kept

theorem setValues_eq_self {solver : Solver K} {values : List (Variable × K)}
    (published : ∀ unknown value, (unknown, value) ∈ values →
      ∃ info, solver.unknowns.get? unknown = some info ∧ info.value = value) :
    values.foldl (fun current entry => current.setValue entry.1 entry.2) solver = solver := by
  induction values with
  | nil => rfl
  | cons entry rest ih =>
    obtain ⟨info, found, same⟩ := published entry.1 entry.2 List.mem_cons_self
    rw [List.foldl_cons, setValue_eq_self found same]
    exact ih fun unknown value member => published unknown value (List.mem_cons_of_mem entry member)

theorem Resolved.publishValues [Zero K] {solver : Solver K} (resolved : solver.Resolved) :
    solver.publishValues = solver := by
  rw [publishValues_eq, setValues_eq_self resolved.published]
  exact congrArg (fun needsSolving => { solver with needsSolving }) resolved.solved.symm

section Settling

variable [Zero K] [One K] [Add K] [Mul K] [Scalar K] {before : Solver K}

theorem row?_settleStays (sound : before.Sound) (unknown : Variable) :
    before.settleStays.tableau.row? unknown.symbol = before.tableau.row? unknown.symbol := by
  have apart : unknown.symbol ∉ before.stays.map before.tableau.stayRow := by
    intro member
    obtain ⟨pair, isStay, same⟩ := List.mem_map.mp member
    have slack := stayRow_slack sound isStay
    rw [same] at slack
    cases slack
  refine ((before.tableau.shifts_settleStays before.stays).rows unknown.symbol).trans ?_
  simp only [if_neg apart]
  cases before.tableau.row? unknown.symbol <;> rfl

theorem mem_assignments_settleStays (sound : before.Sound) {unknown : Variable} {value : K} :
    (unknown, value) ∈ before.settleStays.assignments ↔ (unknown, value) ∈ before.assignments := by
  have column : before.settleStays.tableau.hasColumn unknown.symbol =
      before.tableau.hasColumn unknown.symbol :=
    (before.tableau.shifts_settleStays before.stays).hasColumn unknown.symbol
  rw [mem_assignments sound.settleStays.fits.indexed, mem_assignments sound.fits.indexed,
    row?_settleStays sound, column]

theorem resolved_of_publishValues (sound : before.Sound) :
    (before.publishValues.setTableau
      before.publishValues.tableau.clearInfeasible).settleStays.Resolved := by
  have tidies := tidies_publishValues before
  have clearedSound : (before.publishValues.setTableau
      before.publishValues.tableau.clearInfeasible).Sound := (tidies.sound sound).clearInfeasible
  refine ⟨clearedSound.settleStays.fits.indexed, Tableau.infeasible_settleStays _ _, ?_, rfl,
    fun pair member => Tableau.settledAt_settleStays _ member⟩
  intro unknown value member
  have given := (mem_assignments_settleStays clearedSound).mp member
  have published : (unknown, value) ∈ before.assignments := by
    unfold assignments at given ⊢
    rw [← tidies.tableau]
    exact given
  exact get?_publishValues_of_mem sound.fits.indexed published

end Settling

/-! Resolutions -/

variable [Zero K] [One K] [Add K] [Sub K] [Neg K] [Mul K] [Div K] [LT K] [DecidableLT K] [LE K]
  [DecidableLE K] [Scalar K] {solver before : Solver K} {limit : Nat}

theorem resolve_resolves (sound : before.Sound) :
    (resolve limit before).Meets (fun _ after => after.Resolved) (fun _ _ => True) := by
  refine meets_resolve.mpr ((repair_reaches (fun _ => False) sound.fits.indexed).imp ?_
    fun _ _ _ => trivial)
  exact fun _ _ reaches => resolved_of_publishValues (reaches.sound sound)

omit [Sub K] in
theorem Resolved.resolve (resolved : solver.Resolved) (rounds : 0 < limit) :
    resolve limit solver = .done () solver [] := by
  have repaired : onTableau (Tableau.repair .mainObjective) limit solver = .done () solver [] := by
    unfold onTableau Action.within
    rw [Tableau.repair_idle .mainObjective resolved.emptied rounds]
    rfl
  have published : publish limit solver = .done () solver [] := by
    rw [publish_eq resolved.indexed, resolved.publishValues]
  have cleared : solver.setTableau solver.tableau.clearInfeasible = solver := by
    unfold setTableau Tableau.clearInfeasible
    rw [← resolved.emptied]
  have settled : solver.settleStays = solver := by
    unfold settleStays
    rw [Tableau.settleStays_eq_self resolved.settled]
    rfl
  unfold Solver.resolve
  rw [Action.bind_done repaired, Action.bind_done published]
  change Outcome.done () (solver.setTableau solver.tableau.clearInfeasible).settleStays [] = _
  rw [cleared, settled]

end Solver

namespace Session

variable [Zero K] [One K] [Add K] [Sub K] [Neg K] [Mul K] [Div K] [LT K] [DecidableLT K] [LE K]
  [DecidableLE K] [Scalar K] {session next : Session K} {limit : Nat}

/-- A resolution that returns can be repeated at once: it returns again, reports nothing and changes
nothing, neither the order of any table nor the sink. -/
theorem resolve_again (reachable : session.Reachable) {reply : Reply K} {events : List (Event K)}
    (resolves : perform .resolve limit session = .done reply next events) {again : Nat}
    (rounds : 0 < again) : perform .resolve again next = .done .nothing next [] := by
  have sound := reachable.sound.solver
  have resolved : next.solver.Resolved := by
    have meets : (perform .resolve limit session).Meets _ _ :=
      meets_silent (Solver.resolve_resolves sound)
    rw [resolves] at meets
    exact meets.1
  have same : onSolver Solver.resolve again next = .done () next [] := by
    unfold onSolver
    rw [resolved.resolve rounds]
    rfl
  exact Action.bind_done same

/-- A stay at zero gives way to a suggestion. The resolution publishes three and then settles the
stay, so what it leaves is not the tableau that it published from. -/
theorem resolve_again_settled :
    let session : Session ℚ := (start (.withConfig .standard) (.memory [])).replay 8
      [.newVariable none 0, .addStay ⟨1⟩ .weak 1, .addEdit ⟨1⟩ .strong, .beginEdit, .suggest ⟨1⟩ 3]
    let next := session.replay 8 [.resolve]
    session.Reachable ∧ session.solver.value ⟨1⟩ = 0 ∧ next.solver.value ⟨1⟩ = 3 ∧
      (session.solver.tableau.row? ⟨3, .slack⟩).map (·.constant) = some 3 ∧
      (next.solver.tableau.row? ⟨3, .slack⟩).map (·.constant) = some 0 ∧
      perform .resolve 8 next = .done .nothing next [] := by
  intro session next
  have reachable : session.Reachable :=
    (Runs.fresh _ _).replay ⟨trivial, trivial, trivial, trivial, trivial, trivial⟩
  have returns : (perform .resolve 8 session).state?.isSome = true := by decide +kernel
  obtain ⟨reply, events, resolves⟩ :=
    Outcome.done_of_clean (state?_of_returns returns) (by decide +kernel)
  exact ⟨reachable, by decide +kernel, by decide +kernel, by decide +kernel, by decide +kernel,
    resolve_again reachable resolves (by decide)⟩

end Session

end SoftSimplex
