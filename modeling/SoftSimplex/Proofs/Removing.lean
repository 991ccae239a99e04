import SoftSimplex.Proofs.Adding

/-!
What removing a constraint does to a solver: the stays settle, the costs go out of the objective,
the equation of the marker goes, and with it all that was made for the constraint.
-/

namespace SoftSimplex

variable {K : Type} [Zero K] [One K] [Add K] [Neg K] [Mul K] [Div K] [LT K] [DecidableLT K]
  [Scalar K] {limit : Nat}

namespace Tableau

variable {before after : Tableau K} {bound : Nat}

theorem Fits.drop {marker : Symbol} (fits : before.Fits bound)
    (notObjective : marker ≠ .mainObjective) (isInternal : marker.isExternal = false)
    (drops : before.Drops marker after) : after.Fits bound := by
  cases drops with
  | basic _ => exact fits.removeRow notObjective
  | unused _ _ => exact fits.removeColumn isInternal
  | exchange _ chosen pivots =>
    refine (fits.pivot pivots ?_).removeRow notObjective
    rintro rfl
    exact exit_not_objective chosen rfl

omit [Zero K] [One K] [Add K] [Neg K] [Mul K] [Div K] [LT K] [DecidableLT K] [Scalar K] in
theorem Fits.removeColumns (fits : before.Fits bound) {symbols : List Symbol}
    (internal : ∀ symbol ∈ symbols, symbol.isExternal = false) :
    (symbols.foldl Tableau.removeColumn before).Fits bound := by
  induction symbols generalizing before with
  | nil => exact fits
  | cons symbol rest ih =>
    exact ih (fits.removeColumn (internal symbol List.mem_cons_self))
      fun other member => internal other (List.mem_cons_of_mem symbol member)

end Tableau

namespace Ledger

variable {ledger : Ledger K} {key : Nat} {entry : Installed K}

omit [Neg K] [Div K] [LT K] [DecidableLT K] in
theorem Enters.symbol_kind (enters : ledger.Enters key entry) {symbol : Symbol}
    (member : symbol ∈ entry.symbols) : symbol.kind = .slack ∨ symbol.kind = .dummy := by
  have markerKind : entry.marker.kind = .slack ∨ entry.marker.kind = .dummy := by
    rw [enters.marker, Demand.markerKind]
    split <;> simp
  unfold Installed.symbols at member
  split at member
  · rw [List.mem_singleton.mp member]
    exact markerKind
  · simp only [List.mem_cons, List.not_mem_nil, or_false] at member
    rcases member with rfl | rfl
    · exact markerKind
    · exact Or.inl rfl

omit [Neg K] [Div K] [LT K] [DecidableLT K] in
theorem Enters.symbol_known (enters : ledger.Enters key entry) {symbol : Symbol}
    (member : symbol ∈ entry.symbols) :
    symbol.Known ledger.nextId ∧ symbol.isExternal = false ∧ symbol.kind ≠ .objective := by
  have kind := enters.symbol_kind member
  refine ⟨Or.inr (Or.inr ⟨kind, enters.bound symbol member⟩), ?_, ?_⟩
  · rcases kind with kind | kind <;> exact Symbol.internal_of_kind kind rfl
  · rcases kind with kind | kind <;> simp [kind]

omit [Neg K] [Div K] [LT K] [DecidableLT K] in
theorem Enters.charge_symbols (enters : ledger.Enters key entry) {cost : Charge K}
    (isCharge : ledger.charges.get? key = some cost) :
    entry.constraint.isRequired = false ∧
      ∀ symbol ∈ cost.symbols, symbol = entry.marker ∨ symbol = entry.error := by
  have soft : entry.constraint.isRequired = false := by
    rw [← Bool.not_eq_true]
    intro required
    rw [enters.charge, (Demand.chargeAt_eq_none_iff _ _).mpr required] at isCharge
    cases isCharge
  refine ⟨soft, ?_⟩
  rw [enters.soft_charge soft, ← enters.marker_of_soft soft] at isCharge
  cases isCharge
  intro symbol member
  dsimp only at member
  split at member
  · exact Or.inr (List.mem_singleton.mp member)
  · simp only [List.mem_cons, List.not_mem_nil, or_false] at member
    exact member.symm

end Ledger

namespace Solver

variable {before : Solver K} {constraint : Constraint K} {entry : Installed K}

omit [Div K] [LT K] [DecidableLT K] in
theorem withdraw_refunds_symbols (sound : before.Sound)
    (found : before.installed.get? constraint.key = some entry) :
    ∃ (coefficient : K) (errors : List Symbol), (before.withdraw constraint).tableau =
        errors.foldl (Tableau.refundError coefficient) before.settleStays.tableau ∧
      ∀ symbol ∈ errors, symbol ∈ entry.symbols := by
  have enters := sound.books.entries constraint.key entry found
  unfold withdraw
  dsimp only
  cases isCharge : before.charges.get? constraint.key with
  | none => exact ⟨0, [], rfl, nofun⟩
  | some cost =>
    obtain ⟨soft, symbols⟩ := enters.charge_symbols isCharge
    refine ⟨cost.coefficient, cost.symbols, rfl, fun symbol member => ?_⟩
    rcases symbols symbol member with rfl | rfl
    · exact entry.marker_mem_symbols
    · exact Installed.error_mem_symbols soft

omit [Div K] [LT K] [DecidableLT K] in
theorem withdraw_tableau (sound : before.Sound)
    (found : before.installed.get? constraint.key = some entry) :
    before.settleStays.tableau.Recosts (before.withdraw constraint).tableau ∧
      (before.withdraw constraint).tableau.Fits before.nextId := by
  have enters := sound.books.entries constraint.key entry found
  obtain ⟨coefficient, errors, refunded, owned⟩ := withdraw_refunds_symbols sound found
  rw [refunded]
  exact Tableau.foldl_refundError (sound.fits.settleStays before.stays)
    (fun symbol member => (enters.symbol_known (owned symbol member)).1) coefficient

section Clearing

omit [Zero K] [One K] [Add K] [Neg K] [Mul K] [Div K] [LT K] [DecidableLT K] [Scalar K]

theorem dropEdit_tableau (solver : Solver K) (constraint : Constraint K) (unknown : Variable) :
    ∃ dropped : List Symbol, (solver.dropEdit constraint unknown).tableau =
        dropped.foldl Tableau.removeColumn solver.tableau ∧
      ∀ symbol ∈ dropped, ∃ info, solver.edits.get? unknown = some info ∧
        info.constraint.key = constraint.key ∧ symbol = info.minus := by
  unfold dropEdit
  cases registered : solver.edits.get? unknown with
  | none => exact ⟨[], rfl, nofun⟩
  | some info =>
    dsimp only
    split
    · rename_i same
      refine ⟨[info.minus], rfl, ?_⟩
      intro symbol member
      exact ⟨info, rfl, by simpa [BEq.beq] using same, List.mem_singleton.mp member⟩
    · exact ⟨[], rfl, nofun⟩

theorem clearAway_tableau (solver : Solver K) (constraint : Constraint K) (marker : Symbol)
    (charge : Option (Charge K)) :
    ∃ dropped : List Symbol, (solver.clearAway constraint marker charge).tableau =
        dropped.foldl Tableau.removeColumn solver.tableau ∧
      (∀ symbol ∈ dropped,
        (∃ cost, charge = some cost ∧ symbol ∈ cost.symbols ∧ symbol ≠ marker) ∨
        ∃ unknown info, constraint.kind = .edit unknown ∧ solver.edits.get? unknown = some info ∧
          info.constraint.key = constraint.key ∧ symbol = info.minus) ∧
      ∀ cost, charge = some cost → ∀ symbol ∈ cost.symbols, symbol ≠ marker →
        symbol ∈ dropped := by
  unfold clearAway
  cases charge with
  | none =>
    cases kind : constraint.kind with
    | edit unknown =>
      obtain ⟨dropped, result, named⟩ := dropEdit_tableau solver constraint unknown
      refine ⟨dropped, result, fun symbol member => Or.inr ?_, nofun⟩
      obtain ⟨info, registered⟩ := named symbol member
      exact ⟨unknown, info, rfl, registered⟩
    | _ => exact ⟨[], rfl, nofun, nofun⟩
  | some cost =>
    have errors : ∀ symbol ∈ cost.symbols.filter (· != marker),
        ∃ charged, some cost = some charged ∧ symbol ∈ charged.symbols ∧ symbol ≠ marker := by
      intro symbol member
      obtain ⟨inCost, different⟩ := List.mem_filter.mp member
      exact ⟨cost, rfl, inCost, by simpa using different⟩
    have listed : ∀ charged, some cost = some charged → ∀ symbol ∈ charged.symbols,
        symbol ≠ marker → symbol ∈ cost.symbols.filter (· != marker) := by
      rintro _ ⟨⟩ symbol member different
      exact List.mem_filter.mpr ⟨member, by simpa using different⟩
    cases kind : constraint.kind with
    | edit unknown =>
      obtain ⟨dropped, result, named⟩ :=
        dropEdit_tableau (solver.dropErrors marker cost) constraint unknown
      refine ⟨cost.symbols.filter (· != marker) ++ dropped, ?_, ?_, ?_⟩
      · rw [List.foldl_append]
        exact result
      · intro symbol member
        rcases List.mem_append.mp member with isError | isMinus
        · exact Or.inl (errors symbol isError)
        · obtain ⟨info, registered⟩ := named symbol isMinus
          exact Or.inr ⟨unknown, info, rfl, registered⟩
      · exact fun charged same symbol member different =>
          List.mem_append_left dropped (listed charged same symbol member different)
    | _ => exact ⟨_, rfl, fun symbol member => Or.inl (errors symbol member), listed⟩

end Clearing

/-- A constraint has been taken out of the solver. -/
structure Uninstalls (before : Solver K) (constraint : Constraint K) (entry : Installed K)
    (dropped : Tableau K) (after : Solver K) : Prop where
  found : before.installed.get? constraint.key = some entry
  drops : (before.withdraw constraint).tableau.Drops entry.marker dropped
  result : after = ((before.withdraw constraint).setTableau dropped).clearAway constraint
    entry.marker (before.charges.get? constraint.key)

inductive RemoveFails (before : Solver K) (constraint : Constraint K) : Fault → Solver K → Prop
  | missing (missing : before.installed.get? constraint.key = none) :
      RemoveFails before constraint .constraintNotFound before
  | unbounded {entry : Installed K} {dropped : Tableau K} {removed after : Solver K}
      (uninstalls : before.Uninstalls constraint entry dropped removed)
      (autoSolve : removed.config.autoSolve = true) (escapes : removed.Escapes after) :
      RemoveFails before constraint (.internal .objectiveUnbounded) after

namespace Uninstalls

variable {dropped : Tableau K} {after : Solver K}

theorem dropped_fits (uninstalls : before.Uninstalls constraint entry dropped after)
    (sound : before.Sound) : dropped.Fits before.nextId := by
  have enters := sound.books.entries constraint.key entry uninstalls.found
  have known := enters.symbol_known entry.marker_mem_symbols
  refine (withdraw_tableau sound uninstalls.found).2.drop ?_ known.2.1 uninstalls.drops
  intro same
  exact known.2.2 (congrArg Symbol.kind same)

theorem tableau_after (uninstalls : before.Uninstalls constraint entry dropped after)
    (sound : before.Sound) (sameKind : entry.constraint.kind = constraint.kind) :
    ∃ errors : List Symbol, after.tableau = errors.foldl Tableau.removeColumn dropped ∧
      (∀ symbol ∈ errors, entry.constraint.isRequired = false ∧ symbol = entry.error) ∧
      (entry.constraint.isRequired = false → entry.error ∈ errors) := by
  have enters := sound.books.entries constraint.key entry uninstalls.found
  obtain ⟨errors, result, named, listed⟩ := clearAway_tableau
    ((before.withdraw constraint).setTableau dropped) constraint entry.marker
    (before.charges.get? constraint.key)
  refine ⟨errors, by rw [uninstalls.result, result]; rfl, ?_, ?_⟩
  · intro symbol member
    rcases named symbol member with ⟨cost, isCharge, inCost, different⟩ | ⟨unknown, info, kind,
        registered, sameKey, rfl⟩
    · obtain ⟨soft, symbols⟩ := enters.charge_symbols isCharge
      exact ⟨soft, (symbols symbol inCost).resolve_left different⟩
    · obtain ⟨_, other, found, _, soft, samePair⟩ := sound.books.edits unknown info registered
      have same : other = entry := by
        have here : before.installed.get? info.constraint.key = some other := found
        rw [sameKey, uninstalls.found] at here
        exact (Option.some.inj here).symm
      subst same
      exact ⟨soft, congrArg Prod.snd samePair⟩
  · intro soft
    refine listed _ (enters.soft_charge soft) entry.error ?_ (Ne.symm entry.marker_ne_error)
    split <;> simp

theorem ledger_after (uninstalls : before.Uninstalls constraint entry dropped after) :
    after.ledger = ({ before.ledger with
      charges := before.charges.erase constraint.key
      installed := before.installed.erase constraint.key } : Ledger K).cleared constraint
        (before.charges.get? constraint.key) := by
  rw [uninstalls.result, ledger_clearAway]
  rfl

theorem installed_after (uninstalls : before.Uninstalls constraint entry dropped after) :
    after.installed = before.installed.erase constraint.key :=
  (congrArg Ledger.installed uninstalls.ledger_after).trans Ledger.installed_cleared

theorem get?_installed_iff (uninstalls : before.Uninstalls constraint entry dropped after) {key : Nat}
    {own : Installed K} : after.installed.get? key = some own ↔
      constraint.key ≠ key ∧ before.installed.get? key = some own := by
  rw [uninstalls.installed_after, Table.get?_erase_eq_some_iff]

theorem sound (uninstalls : before.Uninstalls constraint entry dropped after)
    (soundBefore : before.Sound) (sameKind : entry.constraint.kind = constraint.kind) :
    after.Sound := by
  have ledger := uninstalls.ledger_after
  have sameId : after.nextId = before.nextId :=
    (congrArg Ledger.nextId ledger).trans Ledger.ids_cleared.1
  refine ⟨?_, ?_⟩
  · obtain ⟨errors, result, named, _⟩ := uninstalls.tableau_after soundBefore sameKind
    rw [result, sameId]
    refine (uninstalls.dropped_fits soundBefore).removeColumns ?_
    intro symbol member
    rw [(named symbol member).2]
    rfl
  · rw [ledger]
    exact soundBefore.books.remove uninstalls.found sameKind

end Uninstalls

theorem remove_meets (sound : before.Sound)
    (sameKind : ∀ entry, before.installed.get? constraint.key = some entry →
      entry.constraint.kind = constraint.kind) :
    (remove constraint limit before).Meets
      (fun _ after => ∃ entry dropped removed,
        before.Uninstalls constraint entry dropped removed ∧ removed.Follows after)
      (fun fault after => before.RemoveFails constraint fault after) := by
  unfold remove
  rw [Action.meets_bind, Action.meets_get]
  cases found : before.installed.get? constraint.key with
  | none => exact .missing found
  | some entry =>
    dsimp only
    unfold onTableau
    simp only [Action.meets_bind, Action.meets_report, Action.meets_modify, Action.meets_within]
    refine (Tableau.dropMarker_meets (withdraw_tableau sound found).2.indexed).imp ?_
      fun _ _ never => never.elim
    intro _ dropped drops
    have uninstalls : before.Uninstalls constraint entry dropped _ := ⟨found, drops, rfl⟩
    have soundAfter := uninstalls.sound sound (sameKind entry found)
    refine (autoOptimize_meets soundAfter.fits).imp ?_ ?_
    · intro _ after follows
      exact ⟨entry, dropped, _, uninstalls, follows⟩
    · rintro _ after ⟨autoSolve, rfl, escapes⟩
      exact .unbounded uninstalls autoSolve escapes

end Solver

end SoftSimplex
