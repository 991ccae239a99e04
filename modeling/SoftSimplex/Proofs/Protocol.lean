import SoftSimplex.Proofs.Moves

/-!
The calls of the edit protocol, opened once. Each equation says what an outcome of a call has to
meet in terms of the calls that it makes, so that no later argument needs the text of the call.
-/

namespace SoftSimplex

open SoftSimplex.Action

namespace Solver

variable {K : Type} [Zero K] {limit : Nat} {before : Solver K}
  {returned : Unit → Solver K → Prop} {broken : Fault → Solver K → Prop}

theorem meets_suggest [Add K] [Sub K] [Neg K] [Mul K] [LT K] [DecidableLT K]
    (unknown : Variable) (target : K) :
    (suggest unknown target limit before).Meets returned broken ↔
      match before.edits.get? unknown with
      | none => broken (.notAnEditVariable unknown) before
      | some info => returned () (before.retargeted unknown info target) := by
  unfold suggest
  rw [meets_bind, meets_get]
  cases before.edits.get? unknown with
  | none =>
    dsimp only
    rw [meets_bind, meets_report, meets_fail]
  | some info =>
    dsimp only
    rw [meets_modify]
    rfl

theorem meets_beginEdit :
    (beginEdit limit before).Meets returned broken ↔
      if before.edits.isEmpty = true then broken .noEditVariables before
      else returned () { (before.setTableau before.tableau.clearInfeasible).settleStays with
        depths := before.editCount :: before.depths } := by
  unfold beginEdit
  rw [meets_bind, meets_get]
  split
  · rw [meets_fail]
  · rw [meets_bind, meets_report, meets_modify]

variable [One K] [Add K] [Neg K] [Mul K] [Div K] [LT K] [DecidableLT K] [Scalar K]

theorem meets_removeEdit (unknown : Variable) :
    (removeEdit unknown limit before).Meets returned broken ↔
      match before.edits.get? unknown with
      | none => broken .constraintNotFound before
      | some info => (remove info.constraint limit before).Meets returned broken := by
  unfold removeEdit
  rw [meets_bind, meets_get]
  cases before.edits.get? unknown with
  | none => exact meets_fail _ _
  | some info => rfl

theorem meets_trimEdits (count : Nat) :
    (trimEdits count limit before).Meets returned broken ↔
      (forEach removeRegistered
        ((before.edits.entries.filter fun entry => count ≤ entry.2.index).map Prod.fst)
        limit before).Meets returned broken := by
  have silent : ∀ trimmed : Solver K,
      ((if trimmed.editCount = count then return ()
        else report [.diagnostic (.editCountMismatch count trimmed.editCount)] :
          Action K (Solver K) Unit) limit trimmed).Meets returned broken ↔ returned () trimmed := by
    intro trimmed
    split
    · exact meets_pure () _
    · exact meets_report _ _
  unfold trimEdits
  simp only [meets_bind, meets_get, silent]

variable [LE K] [DecidableLE K]

theorem meets_resolve :
    (resolve limit before).Meets returned broken ↔
      (Tableau.repair .mainObjective limit before.tableau).Meets
        (fun _ tableau =>
          let shown := (before.setTableau tableau).publishValues
          returned () (shown.setTableau shown.tableau.clearInfeasible).settleStays)
        (fun fault tableau => broken fault (before.setTableau tableau)) := by
  unfold resolve onTableau publish
  simp only [meets_bind, meets_within, meets_get, meets_report, meets_modify]

theorem meets_endEdit :
    (endEdit limit before).Meets returned broken ↔
      if before.edits.isEmpty = true then broken .noEditVariables before
      else if before.depths.length < 2 then broken .noEditSession before
      else (resolve limit before).Meets
        (fun _ resolved => (trimEdits (resolved.depths.tail.headD 0) limit
          { resolved with depths := resolved.depths.tail }).Meets returned broken) broken := by
  unfold endEdit
  rw [meets_bind, meets_get]
  split
  · rw [meets_fail]
  split
  · rw [meets_fail]
  · simp only [meets_bind, meets_modify, meets_get, meets_report]

theorem meets_setEditedValue [Sub K] (unknown : Variable) (target : K) :
    (setEditedValue unknown target limit before).Meets returned broken ↔
      if (!before.containsVariable unknown) = true then
        returned () (before.setValue unknown target)
      else if Scalar.close target (before.value unknown) = true then returned () before
      else (addEdit unknown before.config.editStrength limit before).Meets
        (fun _ added => (beginEdit limit added).Meets
          (fun _ begun => (suggest unknown target limit begun).Meets
            (fun _ suggested => (endEdit limit suggested).Meets returned broken)
            fun _ => broken (.internal .suggestionRefused)) broken) broken := by
  unfold setEditedValue addDefaultEdit
  rw [meets_bind, meets_get]
  split
  · rw [meets_modify]
  split
  · rw [meets_pure]
  · simp only [meets_bind, meets_get, meets_mapFault]

end Solver

end SoftSimplex
