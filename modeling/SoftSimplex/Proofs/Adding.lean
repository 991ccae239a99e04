import SoftSimplex.Proofs.Equations

/-!
What adding a constraint does to a solver. An addition that fails changes nothing but the ids given
out, unless it fails while the new constraint is optimized; every way to fail is listed.
-/

namespace SoftSimplex

variable {K : Type} [Zero K] [One K] [Add K] [Neg K] [Mul K] [Div K] [LT K] [DecidableLT K]
  [Scalar K] {limit : Nat}

namespace Solver

/-- The index of the tableau is right and the books are in order. -/
structure Sound (solver : Solver K) : Prop where
  fits : solver.tableau.Fits solver.nextId
  books : solver.ledger.Sound

/-! Optimizing -/

def Publishes (before after : Solver K) : Prop :=
  ∃ least tableau, before.tableau.Minimized .mainObjective least tableau ∧
    after = (before.setTableau tableau).publishValues

def Escapes (before after : Solver K) : Prop :=
  ∃ tableau, before.tableau.Unbounded .mainObjective tableau ∧ after = before.setTableau tableau

def Follows (before after : Solver K) : Prop :=
  if before.config.autoSolve then before.Publishes after else after = before

theorem optimize_meets {before : Solver K} (fits : before.tableau.Fits before.nextId) :
    (optimize limit before).Meets (fun _ after => before.Publishes after)
      (fun fault after => fault = .internal .objectiveUnbounded ∧ before.Escapes after) := by
  unfold optimize onTableau publish
  simp only [Action.meets_bind, Action.meets_within, Action.meets_get, Action.meets_report,
    Action.meets_modify]
  refine (Tableau.minimize_meets fits.indexed).imp ?_ ?_
  · rintro _ tableau ⟨least, minimized⟩
    exact ⟨least, tableau, minimized, rfl⟩
  · rintro fault tableau ⟨improved, ⟨_, missing⟩ | ⟨rfl, escapes⟩⟩
    · have stays := (Tableau.isBasic_of_improvements improved rfl).mpr fits.objective
      rw [(tableau.not_isBasic_iff _).mpr missing] at stays
      cases stays
    · exact ⟨rfl, tableau, escapes, rfl⟩

theorem autoOptimize_meets {before : Solver K} (fits : before.tableau.Fits before.nextId) :
    (autoOptimize limit before).Meets (fun _ after => before.Follows after)
      (fun fault after => before.config.autoSolve = true ∧
        fault = .internal .objectiveUnbounded ∧ before.Escapes after) := by
  unfold autoOptimize Follows
  rw [Action.meets_bind, Action.meets_get]
  split
  · rename_i autoSolve
    exact (optimize_meets fits).imp (fun _ _ published => published)
      (fun _ _ failure => ⟨autoSolve, failure⟩)
  · rfl

theorem solve_meets {before : Solver K} (fits : before.tableau.Fits before.nextId) :
    (solve limit before).Meets
      (fun _ after => if before.needsSolving then before.Publishes after else after = before)
      (fun fault after => fault = .internal .objectiveUnbounded ∧ before.Escapes after) := by
  unfold solve
  rw [Action.meets_bind, Action.meets_get]
  split
  · exact optimize_meets fits
  · rfl

/-! Placing -/

def equationFor (solver : Solver K) (constraint : Constraint K) : Equation K :=
  solver.tableau.equationOf solver.nextId constraint.toDemand

def charged (solver : Solver K) (constraint : Constraint K) : Tableau K :=
  chargeObjective (solver.equationFor constraint).charge solver.tableau

end Solver

inductive Tableau.Places (charged : Tableau K) (nextId : Nat) :
    Placement K → Tableau K → Nat → Prop
  | direct {subject : Symbol} {row solved : Expression K} {after : Tableau K}
      (introduces : charged.Introduces subject row solved after) :
      Places charged nextId (.direct subject row) after nextId
  | artificial {row : Expression K} {after : Tableau K}
      (passes : charged.Passes ⟨nextId, .artificial⟩ ⟨nextId + 1, .objective⟩ row after) :
      Places charged nextId (.artificial row) after (nextId + 2)

namespace Solver

structure Installs (before : Solver K) (constraint : Constraint K) (placement : Placement K)
    (tableau : Tableau K) (nextId : Nat) (after : Solver K) : Prop where
  unobjected : before.objection? constraint = none
  chosen : before.tableau.choosePlacement? (before.equationFor constraint).row = some placement
  places : (before.charged constraint).Places (before.equationFor constraint).nextId placement
    tableau nextId
  result : after = ({ before with tableau, nextId } : Solver K).record constraint
    (before.equationFor constraint)

omit [Zero K] [One K] [Add K] [Neg K] [Mul K] [Div K] [LT K] [DecidableLT K] [Scalar K] in
theorem missing_of_unobjected {before : Solver K} {constraint : Constraint K}
    (unobjected : before.objection? constraint = none) :
    before.installed.get? constraint.key = none := by
  unfold objection? at unobjected
  split at unobjected
  · cases unobjected
  · rename_i missing
    simpa [hasConstraint, Table.contains] using missing

/-- How an addition can fail, and what it leaves behind. -/
inductive AddFails (before : Solver K) (constraint : Constraint K) : Fault → Solver K → Prop
  | objected {fault : Fault} (objects : before.objection? constraint = some fault) :
      AddFails before constraint fault before
  | contradicted (unobjected : before.objection? constraint = none)
      (noPlace : before.tableau.choosePlacement? (before.equationFor constraint).row = none) :
      AddFails before constraint .requiredFailure
        { before with nextId := (before.equationFor constraint).nextId }
  | refused {fault : Fault} {row : Expression K}
      (unobjected : before.objection? constraint = none)
      (chosen : before.tableau.choosePlacement? (before.equationFor constraint).row =
        some (.artificial row))
      (refuses : (before.charged constraint).Refuses
        ⟨(before.equationFor constraint).nextId, .artificial⟩
        ⟨(before.equationFor constraint).nextId + 1, .objective⟩ row fault) :
      AddFails before constraint fault
        { before with nextId := (before.equationFor constraint).nextId + 2 }
  | unbounded {placement : Placement K} {tableau : Tableau K} {nextId : Nat}
      {installed after : Solver K}
      (installs : before.Installs constraint placement tableau nextId installed)
      (autoSolve : installed.config.autoSolve = true) (escapes : installed.Escapes after) :
      AddFails before constraint (.internal .objectiveUnbounded) after

section Adding

variable {before : Solver K} {constraint : Constraint K} (fits : before.tableau.Fits before.nextId)

omit [Div K] in
theorem equationFor_made (solver : Solver K) (constraint : Constraint K) :
    (solver.equationFor constraint).MadeFor constraint.toDemand solver.nextId :=
  madeFor_equationOf _ _ _

omit [Div K] in
theorem equationFor_nextId (solver : Solver K) (constraint : Constraint K) :
    solver.nextId < (solver.equationFor constraint).nextId := by
  have width := (solver.equationFor_made constraint).nextId
  rw [width, Demand.width]
  split <;> omega

include fits

omit [Div K] in
theorem charge_fresh {cost : Charge K} (isCharge : (before.equationFor constraint).charge = some cost)
    {symbol : Symbol} (member : symbol ∈ cost.symbols) :
    symbol.Known (before.equationFor constraint).nextId ∧ before.tableau.isBasic symbol = false ∧
      before.tableau.hasColumn symbol = false := by
  have made := before.equationFor_made constraint
  have width := made.nextId
  rw [made.charge, Demand.chargeAt] at isCharge
  rw [Demand.width] at width
  split at isCharge
  · cases isCharge
  · rename_i soft
    rw [if_neg soft] at width
    cases isCharge
    have range : symbol.kind = .slack ∧ before.nextId ≤ symbol.id ∧
        symbol.id < before.nextId + 2 := by
      dsimp only at member
      split at member
      · rw [List.mem_singleton.mp member]
        exact ⟨rfl, by simp, by simp⟩
      · simp only [List.mem_cons, List.not_mem_nil, or_false] at member
        rcases member with rfl | rfl
        · exact ⟨rfl, by simp, by simp⟩
        · exact ⟨rfl, by simp, by simp⟩
    obtain ⟨isSlack, later, bounded⟩ := range
    refine ⟨Or.inr (Or.inr ⟨Or.inl isSlack, by omega⟩), fits.fresh later ?_ ?_⟩
    · rintro rfl
      cases isSlack
    · exact Symbol.internal_of_kind isSlack rfl

omit [Div K] in
theorem charged_fits (constraint : Constraint K) :
    (before.charged constraint).Fits (before.equationFor constraint).nextId :=
  (fits.mono (Nat.le_of_lt (before.equationFor_nextId constraint))).chargeObjective
    (fun _ isCharge _ member => (charge_fresh fits isCharge member).1)
    (fun _ isCharge _ member => (charge_fresh fits isCharge member).2.1)

omit [Div K] in
theorem equationFor_symbols (external : constraint.External) {symbol : Symbol}
    (member : symbol ∈ (before.equationFor constraint).row.symbols) :
    before.tableau.isBasic symbol = false ∧ (symbol.isExternal = true ∨
      (symbol.kind = .slack ∨ symbol.kind = .dummy) ∧
        symbol.id < (before.equationFor constraint).nextId) := by
  have made := before.equationFor_made constraint
  rw [made.nextId]
  exact Tableau.mem_symbols_of_equationOf fits external member

omit [Div K] in
theorem equationFor_kind (external : constraint.External) {symbol : Symbol}
    (member : symbol ∈ (before.equationFor constraint).row.symbols) :
    symbol.kind ≠ .objective ∧ symbol.kind ≠ .artificial := by
  rcases (equationFor_symbols fits external member).2 with isExternal | ⟨kind | kind, _⟩
  · exact ⟨Symbol.kind_ne_of_external isExternal rfl, Symbol.kind_ne_of_external isExternal rfl⟩
  · simp [kind]
  · simp [kind]

omit [Div K] in
theorem charged_entry (external : constraint.External) :
    (before.charged constraint).Entry ⟨(before.equationFor constraint).nextId, .artificial⟩
      ⟨(before.equationFor constraint).nextId + 1, .objective⟩
      (before.equationFor constraint).row where
  indexed := (charged_fits fits constraint).indexed
  isObjective := rfl
  isArtificial := rfl
  freshArtificial := (charged_fits fits constraint).fresh (by simp) (by simp [Symbol.mainObjective]) rfl
  freshObjective := (charged_fits fits constraint).fresh (by simp) (by simp [Symbol.mainObjective]) rfl
  parametric symbol member :=
    ((Tableau.recosts_chargeObjective _ _).bases symbol).trans
      (equationFor_symbols fits external member).1
  unmentioned := ⟨fun member => (equationFor_kind fits external member).2 rfl,
    fun member => (equationFor_kind fits external member).1 rfl⟩

theorem place_meets (external : constraint.External) {placement : Placement K}
    (chosen : before.tableau.choosePlacement? (before.equationFor constraint).row = some placement) :
    (place (before.equationFor constraint) placement limit
        { before with nextId := (before.equationFor constraint).nextId }).Meets
      (fun result after => match result with
        | .ok () => ∃ tableau nextId,
            (before.charged constraint).Places (before.equationFor constraint).nextId placement
              tableau nextId ∧ after = { before with tableau, nextId }
        | .error fault => ∃ row, placement = .artificial row ∧
            (before.charged constraint).Refuses
              ⟨(before.equationFor constraint).nextId, .artificial⟩
              ⟨(before.equationFor constraint).nextId + 1, .objective⟩ row fault ∧
            after = { before with nextId := (before.equationFor constraint).nextId + 2 })
      (fun _ _ => False) := by
  have chooses := (Tableau.chooses_of_choosePlacement chosen).symbols
  have chargedFits := charged_fits fits constraint
  unfold place
  rw [Action.meets_bind, Action.meets_get, Action.meets_bind, Action.meets_modify]
  cases placement with
  | direct subject row =>
    dsimp only at chooses ⊢
    obtain ⟨sameSymbols, occurs⟩ := chooses
    unfold onTableau
    rw [Action.meets_attempt, Action.meets_within]
    refine (Tableau.addSolved_meets chargedFits.indexed (sameSymbols ▸ occurs) ?_).imp ?_ nofun
    · intro symbol member
      rw [sameSymbols] at member
      exact (charged_entry fits external).parametric symbol member
    · rintro _ after ⟨solved, introduces⟩
      exact ⟨after, _, .direct introduces, rfl⟩
  | artificial row =>
    dsimp only at chooses ⊢
    subst chooses
    unfold placeByArtificial freshSymbol onTableau
    simp only [Action.meets_bind, Action.meets_get, Action.meets_modify, Action.meets_pure,
      Action.meets_attempt, Action.meets_within]
    refine (Tableau.addByArtificial_meets (charged_entry fits external)).imp ?_ ?_
    · intro _ after passes
      exact ⟨after, _, .artificial passes, rfl⟩
    · intro fault after refuses
      exact ⟨_, rfl, refuses, rfl⟩

theorem installs_fits (external : constraint.External) {placement : Placement K}
    {tableau : Tableau K} {nextId : Nat} {after : Solver K}
    (installs : before.Installs constraint placement tableau nextId after) :
    tableau.Fits nextId ∧ (before.equationFor constraint).nextId ≤ nextId := by
  have chargedFits := charged_fits fits constraint
  have chooses := (Tableau.chooses_of_choosePlacement installs.chosen).symbols
  have rowKnown : ∀ symbol ∈ (before.equationFor constraint).row.symbols,
      symbol.Known (before.equationFor constraint).nextId :=
    fun symbol member => Or.inr (equationFor_symbols fits external member).2
  cases installs.places with
  | direct introduces =>
    obtain ⟨sameSymbols, occurs⟩ := chooses
    refine ⟨chargedFits.introduce introduces (sameSymbols ▸ occurs) ?_, Nat.le_refl _⟩
    intro symbol member
    rw [sameSymbols] at member
    exact rowKnown symbol member
  | artificial passes =>
    dsimp only at chooses
    subst chooses
    refine ⟨?_, Nat.le_add_right _ 2⟩
    exact (charged_entry fits external).fits_of_passes chargedFits rowKnown
      (by simp [Symbol.mainObjective]) (Nat.le_add_right _ 2) passes

end Adding

section Installed

variable {before after : Solver K} {constraint : Constraint K} {placement : Placement K}
  {tableau : Tableau K} {nextId : Nat}
  (installs : before.Installs constraint placement tableau nextId after)

include installs

theorem Installs.tableau_eq : after.tableau = tableau := by
  rw [installs.result, tableau_record]

theorem Installs.get?_installed (key : Nat) : after.installed.get? key =
    if constraint.key = key then some ⟨constraint, (before.equationFor constraint).marker⟩
    else before.installed.get? key := by
  rw [installs.result, get?_installed_record]

theorem Installs.fresh : before.installed.get? constraint.key = none :=
  missing_of_unobjected installs.unobjected

theorem Installs.sound (sound : before.Sound) (external : constraint.External)
    (older : constraint.key < before.nextKey) : after.Sound := by
  obtain ⟨fits, ids⟩ := installs_fits sound.fits external installs
  rw [installs.result]
  refine ⟨?_, ?_⟩
  · rw [tableau_record, (ids_record _ _ _).1]
    exact fits
  · exact Ledger.Sound.record sound.books
      (before.equationFor_made constraint) ids older external installs.fresh

end Installed

theorem add_meets {before : Solver K} {constraint : Constraint K}
    (sound : before.Sound) (external : constraint.External)
    (older : constraint.key < before.nextKey) :
    (add constraint limit before).Meets
      (fun _ after => ∃ placement tableau nextId installed,
        before.Installs constraint placement tableau nextId installed ∧ installed.Follows after)
      (fun fault after => before.AddFails constraint fault after) := by
  unfold add
  rw [Action.meets_bind, Action.meets_get]
  cases objects : before.objection? constraint with
  | some fault => exact .objected objects
  | none =>
    dsimp only
    simp only [Action.meets_bind, Action.meets_report, Action.meets_modify]
    cases chosen : before.tableau.choosePlacement? (before.equationFor constraint).row with
    | none =>
      have unfolded : before.tableau.choosePlacement?
          (before.tableau.equationOf before.nextId constraint.toDemand).row = none := chosen
      simp only [unfolded, Action.meets_bind, Action.meets_report, Action.meets_fail]
      exact .contradicted objects chosen
    | some placement =>
      have unfolded : before.tableau.choosePlacement?
          (before.tableau.equationOf before.nextId constraint.toDemand).row = some placement :=
        chosen
      simp only [unfolded, Action.meets_bind]
      refine (place_meets sound.fits external chosen).imp ?_ nofun
      intro result reached met
      cases result with
      | error fault =>
        obtain ⟨row, rfl, refuses, rfl⟩ := met
        exact .refused objects chosen refuses
      | ok done =>
        obtain ⟨tableau, nextId, places, rfl⟩ := met
        dsimp only
        rw [Action.meets_bind, Action.meets_modify]
        have installs : before.Installs constraint placement tableau nextId _ :=
          ⟨objects, chosen, places, rfl⟩
        refine (autoOptimize_meets (installs.sound sound external older).fits).imp ?_ ?_
        · intro _ after follows
          exact ⟨placement, tableau, nextId, _, installs, follows⟩
        · rintro _ after ⟨autoSolve, rfl, escapes⟩
          exact .unbounded installs autoSolve escapes

end Solver

end SoftSimplex
