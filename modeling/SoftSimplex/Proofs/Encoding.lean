import SoftSimplex.Proofs.Balance
import SoftSimplex.Proofs.Runs

/-!
The tableau of a solver encodes its constraints. An assignment solves the tableau exactly when it
balances every installed constraint, up to an offset that settling stays and moving targets may
give to a constraint that is not required. Every move keeps this.
-/

namespace SoftSimplex

variable {K : Type} [Field K] [LinearOrder K]

namespace Tableau

variable {before after : Tableau K}

theorem Pruned.setTermInRow (pruned : before.Pruned) (basic symbol : Symbol) (value : K) :
    (before.setTermInRow basic symbol value).Pruned := by
  intro other next found
  rw [row?_setTermInRow] at found
  split at found
  · obtain ⟨row, was, rfl⟩ := Option.map_eq_some_iff.mp found
    exact (pruned basic row was).setTerm symbol value
  · exact pruned other next found

theorem Pruned.chargeObjective (pruned : before.Pruned) (charge : Option (Charge K)) :
    (Solver.chargeObjective charge before).Pruned := by
  cases charge with
  | none => exact pruned
  | some cost =>
    unfold Solver.chargeObjective
    dsimp only
    induction cost.symbols generalizing before with
    | nil => exact pruned
    | cons symbol rest ih => exact ih (pruned.setTermInRow .mainObjective symbol cost.coefficient)

theorem Pruned.refundErrors (pruned : before.Pruned) (coefficient : K) (symbols : List Symbol) :
    (symbols.foldl (Tableau.refundError coefficient) before).Pruned := by
  induction symbols generalizing before with
  | nil => exact pruned
  | cons symbol rest ih =>
    refine ih ?_
    intro other next found
    unfold Tableau.refundError at found
    split at found
    · rw [row?_addScaledToRow] at found
      split at found
      · obtain ⟨row, was, rfl⟩ := Option.map_eq_some_iff.mp found
        exact (pruned _ row was).addScaled _ _
      · exact pruned other next found
    · rw [row?_addTermToRow] at found
      split at found
      · obtain ⟨row, was, rfl⟩ := Option.map_eq_some_iff.mp found
        exact (pruned _ row was).addTerm _ _
      · exact pruned other next found

omit [LinearOrder K] in
theorem Shifts.pruned {constantOf : Symbol → Expression K → K}
    (shifts : before.Shifts after constantOf) (pruned : before.Pruned) : after.Pruned := by
  intro basic next found
  rw [shifts.rows] at found
  obtain ⟨row, was, rfl⟩ := Option.map_eq_some_iff.mp found
  exact (pruned basic row was).withConstant _

omit [LinearOrder K] in
theorem Retargets.pruned {plus minus : Symbol} {delta : K}
    (retargets : before.Retargets plus minus delta after) (pruned : before.Pruned) :
    after.Pruned := by
  cases retargets with
  | plus _ shifts => exact shifts.pruned pruned
  | minus _ shifts => exact shifts.pruned pruned
  | uses _ _ shifts => exact shifts.pruned pruned

theorem Fits.restates {bound : Nat} (fits : before.Fits bound) (pruned : before.Pruned)
    {entering leaving : Symbol} {row solved : Expression K} (leaves : leaving.kind ≠ .objective)
    (pivots : before.Pivots entering leaving row solved after) : before.Restates after := by
  refine pivots.restates fits.indexed pruned leaves fun isObjective => ?_
  have column := fits.indexed.hasColumn_of_occurs ⟨row, pivots.leaves, pivots.mem⟩
  rcases fits.known_of_column column with isExternal | ⟨kind | kind, _⟩
  · exact Symbol.kind_ne_of_external isExternal rfl isObjective
  · simp [isObjective] at kind
  · simp [isObjective] at kind

theorem Chooses.holds_iff (assignment : Symbol → K) {row : Expression K}
    {placement : Placement K} (chooses : before.Chooses row placement) (pruned : row.Pruned) :
    match placement with
    | .direct _ placed => placed.Pruned ∧
        (placed.valueAt assignment = 0 ↔ row.valueAt assignment = 0)
    | .artificial _ => True := by
  cases chooses with
  | ready _ => exact ⟨pruned, Iff.rfl⟩
  | dummy _ _ _ _ =>
    dsimp only
    split
    · refine ⟨pruned.times (neg_ne_zero.mpr one_ne_zero), ?_⟩
      rw [Expression.valueAt_times, mul_neg_one, neg_eq_zero]
    · exact ⟨pruned, Iff.rfl⟩
  | artificial _ _ => trivial

end Tableau

namespace Solver

variable {before after : Solver K} {offsets : Nat → K} {constraint : Constraint K}
  {entry : Installed K} {assignment : Symbol → K} {given : Constraint K → Prop}

omit [LinearOrder K] in
/-- The symbols of every constraint balance its expression, up to an offset. -/
def Balanced (solver : Solver K) (offsets : Nat → K) (assignment : Symbol → K) : Prop :=
  ∀ key entry, solver.installed.get? key = some entry →
    entry.constraint.expression.valueAt assignment + offsets key = entry.balance assignment

omit [LinearOrder K] in
/-- The solutions of the tableau are the balanced assignments. -/
structure Encodes (solver : Solver K) (offsets : Nat → K) : Prop where
  pruned : solver.tableau.Pruned
  required : ∀ key entry, solver.installed.get? key = some entry →
    entry.constraint.isRequired = true → offsets key = 0
  solves : ∀ assignment, solver.tableau.Solves assignment ↔ solver.Balanced offsets assignment

omit [LinearOrder K] in
theorem row_fresh {config : Config K} {basic : Symbol} {row : Expression K}
    (found : (withConfig config).tableau.row? basic = some row) :
    basic = .mainObjective ∧ row = .ofConstant 0 := by
  have lookup := Tableau.row?_addRow (∅ : Tableau K) .mainObjective (.ofConstant 0) basic
  rw [show (Tableau.addRow ∅ .mainObjective (.ofConstant (0 : K))).row? basic = some row
    from found] at lookup
  split at lookup
  · rename_i same
    exact ⟨same.symm, Option.some.inj lookup⟩
  · cases lookup

omit [LinearOrder K] in
theorem encodes_fresh (config : Config K) : (withConfig config).Encodes fun _ => 0 := by
  refine ⟨?_, nofun, ?_⟩
  · intro basic row found
    obtain ⟨_, rfl⟩ := row_fresh found
    exact Expression.pruned_ofConstant 0
  · intro assignment
    refine ⟨fun _ => nofun, fun _ => ?_⟩
    intro basic row found nonObjective
    obtain ⟨rfl, _⟩ := row_fresh found
    exact absurd rfl nonObjective

omit [LinearOrder K] in
theorem Encodes.of_same (encodes : before.Encodes offsets)
    (rows : after.tableau.rows = before.tableau.rows)
    (installed : after.installed = before.installed) : after.Encodes offsets := by
  have sameRow : after.tableau.row? = before.tableau.row? := by
    funext basic
    rw [Tableau.row?, Tableau.row?, rows]
  refine ⟨?_, ?_, ?_⟩
  · unfold Tableau.Pruned
    rw [sameRow]
    exact encodes.pruned
  · rw [installed]
    exact encodes.required
  · intro assignment
    unfold Balanced Tableau.Solves
    rw [sameRow, installed]
    exact encodes.solves assignment

theorem Encodes.pivot (encodes : before.Encodes offsets) (fits : before.tableau.Fits before.nextId)
    {entering leaving : Symbol} {row solved : Expression K} {tableau : Tableau K}
    (leaves : leaving.kind ≠ .objective)
    (pivots : before.tableau.Pivots entering leaving row solved tableau) :
    (before.setTableau tableau).Encodes offsets := by
  have restates := fits.restates encodes.pruned leaves pivots
  exact ⟨restates.pruned, encodes.required,
    fun assignment => (restates.solves assignment).trans (encodes.solves assignment)⟩

/-! Adding -/

section Adding

variable {placement : Placement K} {tableau : Tableau K} {nextId : Nat}

theorem equationFor_pruned (solver : Solver K) (constraint : Constraint K) :
    (solver.equationFor constraint).row.Pruned :=
  solver.tableau.pruned_equationOf solver.nextId constraint.toDemand

theorem charged_pruned (pruned : before.tableau.Pruned) (constraint : Constraint K) :
    (before.charged constraint).Pruned :=
  pruned.chargeObjective _

theorem charged_solves : (before.charged constraint).Solves assignment ↔
    before.tableau.Solves assignment :=
  (Tableau.recosts_chargeObjective _ _).solves assignment

theorem Installs.solves (installs : before.Installs constraint placement tableau nextId after)
    (fits : before.tableau.Fits before.nextId) (external : constraint.External)
    (pruned : before.tableau.Pruned) :
    tableau.Pruned ∧ ∀ assignment, tableau.Solves assignment ↔
      before.tableau.Solves assignment ∧
        (before.equationFor constraint).row.valueAt assignment = 0 := by
  have entry := charged_entry fits external
  have chargedPruned := charged_pruned pruned constraint
  have rowPruned := before.equationFor_pruned constraint
  have chooses := Tableau.chooses_of_choosePlacement installs.chosen
  have symbols := chooses.symbols
  cases installs.places with
  | @direct subject placed solved _ introduces =>
    obtain ⟨sameSymbols, occurs⟩ := symbols
    have placedPruned := (Tableau.Chooses.holds_iff (fun _ => 0) chooses rowPruned).1
    refine ⟨introduces.pruned placedPruned chargedPruned, fun assignment => ?_⟩
    have holds := (Tableau.Chooses.holds_iff assignment chooses rowPruned).2
    have notObjective := (equationFor_kind fits external occurs).1
    rw [introduces.solves_iff placedPruned (sameSymbols ▸ occurs) (entry.parametric subject occurs)
      notObjective, charged_solves, holds]
  | artificial passes =>
    dsimp only at symbols
    subst symbols
    refine ⟨entry.pruned_of_passes chargedPruned rowPruned passes, fun assignment => ?_⟩
    rw [entry.solves_of_passes chargedPruned rowPruned passes, charged_solves]

theorem Encodes.install (encodes : before.Encodes offsets) (sound : before.Sound)
    (external : constraint.External)
    (installs : before.Installs constraint placement tableau nextId after) :
    after.Encodes (Function.update offsets constraint.key 0) := by
  obtain ⟨pruned, solves⟩ := installs.solves sound.fits external encodes.pruned
  have fresh := installs.fresh
  have lookup := installs.get?_installed
  have sameTableau := installs.tableau_eq
  have different : ∀ key other, before.installed.get? key = some other → constraint.key ≠ key := by
    rintro _ other found rfl
    rw [fresh] at found
    cases found
  refine ⟨sameTableau ▸ pruned, ?_, ?_⟩
  · intro key other found required
    rw [lookup] at found
    by_cases same : constraint.key = key
    · subst same
      exact Function.update_self ..
    · rw [if_neg same] at found
      rw [Function.update_of_ne (Ne.symm same)]
      exact encodes.required key other found required
  · intro assignment
    rw [sameTableau, solves]
    have marker := (before.equationFor_made constraint).marker
    constructor
    · rintro ⟨earlier, holds⟩ key other found
      rw [lookup] at found
      by_cases same : constraint.key = key
      · subst same
        rw [if_pos rfl] at found
        cases found
        rw [Function.update_self, add_zero, marker]
        exact (Tableau.equationOf_holds_iff sound.fits external earlier).mp holds
      · rw [if_neg same] at found
        rw [Function.update_of_ne (Ne.symm same)]
        exact (encodes.solves assignment).mp earlier key other found
    · intro balanced
      have earlier : before.tableau.Solves assignment := by
        refine (encodes.solves assignment).mpr fun key other found => ?_
        have holds := balanced key other
          (by rw [lookup, if_neg (different key other found), found])
        rwa [Function.update_of_ne (Ne.symm (different key other found))] at holds
      refine ⟨earlier, (Tableau.equationOf_holds_iff sound.fits external earlier).mpr ?_⟩
      have holds := balanced constraint.key _ (by rw [lookup, if_pos rfl])
      rwa [Function.update_self, add_zero, marker] at holds

end Adding

/-! Settling and moving targets -/

section Translating

theorem not_mem_expression (sound : before.Sound) {key other : Nat} {owner : Installed K}
    (found : before.installed.get? key = some entry)
    (owned : before.installed.get? other = some owner) {symbol : Symbol}
    (member : symbol ∈ owner.symbols) : symbol ∉ entry.constraint.expression.symbols := by
  intro mentioned
  have isExternal := (sound.books.entries key entry found).external symbol mentioned
  have isInternal := ((sound.books.entries other owner owned).symbol_known member).2.1
  rw [isExternal] at isInternal
  cases isInternal

theorem not_mem_symbols (sound : before.Sound) {key other : Nat} {owner : Installed K}
    (found : before.installed.get? key = some entry)
    (owned : before.installed.get? other = some owner) (different : key ≠ other) {symbol : Symbol}
    (member : symbol ∈ owner.symbols) : symbol ∉ entry.symbols :=
  fun also => different (sound.books.apart key other entry owner found owned symbol also member)

theorem Encodes.translate (encodes : before.Encodes offsets) (sound : before.Sound) {key : Nat}
    (found : before.installed.get? key = some entry) (soft : entry.constraint.isRequired = false)
    {tableau : Tableau K} (pruned : tableau.Pruned) {symbol : Symbol}
    (isOwn : symbol = entry.marker ∨ symbol = entry.error) {amount : K}
    (translates : before.tableau.Translates tableau symbol amount) :
    (before.setTableau tableau).Encodes (Function.update offsets key
      (offsets key + if symbol = entry.marker then -amount else amount)) := by
  have member : symbol ∈ entry.symbols := by
    rcases isOwn with rfl | rfl
    · exact entry.marker_mem_symbols
    · exact Installed.error_mem_symbols soft
  have different := entry.marker_ne_error
  refine ⟨pruned, ?_, ?_⟩
  · intro other otherEntry foundOther required
    have apart : other ≠ key := by
      rintro rfl
      have same : otherEntry = entry := Option.some.inj (foundOther.symm.trans found)
      rw [same, soft] at required
      cases required
    rw [Function.update_of_ne apart]
    exact encodes.required other otherEntry foundOther required
  · intro assignment
    refine (translates.solves assignment).trans ((encodes.solves _).trans ?_)
    refine forall_congr' fun other => forall_congr' fun otherEntry =>
      forall_congr' fun foundOther => ?_
    rw [Tableau.valueAt_update_fresh (not_mem_expression sound foundOther found member)]
    by_cases same : other = key
    · subst same
      have sameEntry : otherEntry = entry := Option.some.inj (foundOther.symm.trans found)
      subst sameEntry
      rw [Function.update_self]
      simp only [Installed.balance, soft, Bool.false_eq_true, if_false]
      rcases isOwn with isMarker | isError
      · simp only [isMarker, if_true, Function.update_self,
          Function.update_of_ne (Ne.symm different)]
        constructor <;> intro holds <;> linear_combination holds
      · simp only [isError, Function.update_self, Function.update_of_ne different,
          Ne.symm different, if_false]
        constructor <;> intro holds <;> linear_combination holds
    · rw [Function.update_of_ne same,
        Installed.balance_update (not_mem_symbols sound foundOther found same member)]

def Resettles (solver : Solver K) (offsets later : Nat → K) : Prop :=
  ∀ key entry, solver.installed.get? key = some entry → entry.constraint.isStay = false →
    later key = offsets key

theorem Encodes.settleStay (encodes : before.Encodes offsets) (sound : before.Sound)
    {pair : Symbol × Symbol} (isStay : pair ∈ before.stays) :
    ∃ later, (before.setTableau (settleStay before.tableau pair)).Encodes later ∧
      before.Resettles offsets later := by
  obtain ⟨key, unknown, entry, found, kind, soft, isOwn⟩ := stayRow_symbol sound isStay
  have pruned := (before.tableau.shifts_settleStay pair).pruned encodes.pruned
  obtain ⟨amount, translates⟩ := Tableau.translates_settleStay sound.fits.indexed pair (by
    rw [stayRow_slack sound isStay]
    nofun)
  refine ⟨_, encodes.translate sound found soft pruned isOwn translates,
    fun other otherEntry foundOther notStay => Function.update_of_ne ?_ _ _⟩
  rintro rfl
  have same : otherEntry = entry := Option.some.inj (foundOther.symm.trans found)
  rw [same, Demand.isStay, kind] at notStay
  cases notStay

theorem Encodes.foldl_settleStay {pairs : List (Symbol × Symbol)}
    (encodes : before.Encodes offsets) (sound : before.Sound)
    (areStays : ∀ pair ∈ pairs, pair ∈ before.stays) :
    ∃ later, (before.setTableau (pairs.foldl Solver.settleStay before.tableau)).Encodes later ∧
      before.Resettles offsets later := by
  induction pairs generalizing before offsets with
  | nil => exact ⟨offsets, encodes, fun _ _ _ _ => rfl⟩
  | cons pair rest ih =>
    obtain ⟨middle, settled, first⟩ := encodes.settleStay sound (areStays pair List.mem_cons_self)
    have settledSound : (before.setTableau (Solver.settleStay before.tableau pair)).Sound :=
      ⟨sound.fits.settleStays [pair], sound.books⟩
    obtain ⟨later, encodesLater, others⟩ := ih settled settledSound fun other member =>
      areStays other (List.mem_cons_of_mem pair member)
    exact ⟨later, encodesLater, fun key entry found notStay =>
      (others key entry found notStay).trans (first key entry found notStay)⟩

theorem Encodes.settleStays (encodes : before.Encodes offsets) (sound : before.Sound) :
    ∃ later, before.settleStays.Encodes later ∧ before.Resettles offsets later :=
  encodes.foldl_settleStay sound fun _ member => member

theorem Encodes.retarget (encodes : before.Encodes offsets)
    (sound : before.Sound) {unknown : Variable} {info : EditInfo K}
    (registered : before.edits.get? unknown = some info) (target : K) :
    (before.retargeted unknown info target).Encodes (Function.update offsets info.constraint.key
      (offsets info.constraint.key + (target - info.target))) := by
  obtain ⟨entry, found, _, soft, samePlus, sameMinus, _⟩ := edit_symbols sound registered
  obtain ⟨plusSlack, minusSlack, retargets⟩ := retargets_retargeted sound registered target
  have isMarker : info.plus = entry.marker ∧ info.minus ≠ entry.marker :=
    ⟨samePlus, sameMinus ▸ Ne.symm entry.marker_ne_error⟩
  have pruned := retargets.pruned encodes.pruned
  have translated : (before.setTableau (before.tableau.shiftTarget info.plus info.minus
      (target - info.target))).Encodes (Function.update offsets info.constraint.key
        (offsets info.constraint.key + (target - info.target))) := by
    rcases retargets.translates sound.fits.indexed plusSlack minusSlack with
      translates | translates
    · have moved := encodes.translate sound found soft pruned (Or.inl samePlus) translates
      rwa [if_pos isMarker.1, neg_neg] at moved
    · have moved := encodes.translate sound found soft pruned (Or.inr sameMinus) translates
      rwa [if_neg isMarker.2] at moved
  exact translated.of_same rfl rfl

end Translating

/-! Removing -/

section Removing

omit [LinearOrder K] in
theorem exists_balance (entry : Installed K) (assignment : Symbol → K) (target : K) :
    ∃ value, target = entry.balance (Function.update assignment entry.marker value) := by
  unfold Installed.balance
  split
  · split
    · exact ⟨target, by rw [Function.update_self]⟩
    · exact ⟨-target, by rw [Function.update_self, neg_neg]⟩
  · refine ⟨target + assignment entry.error, ?_⟩
    rw [Function.update_self, Function.update_of_ne (Ne.symm entry.marker_ne_error)]
    ring

theorem withdraw_pruned (pruned : before.settleStays.tableau.Pruned) (constraint : Constraint K) :
    (before.withdraw constraint).tableau.Pruned := by
  unfold withdraw
  dsimp only
  split
  · exact pruned
  · exact pruned.refundErrors _ _

theorem balanced_erase (sound : before.Sound) {key : Nat}
    (found : before.installed.get? key = some entry)
    (installed : after.installed = before.installed.erase key) :
    (∃ value, before.Balanced offsets (Function.update assignment entry.marker value)) ↔
      after.Balanced offsets assignment := by
  have others : ∀ value other otherEntry, before.installed.get? other = some otherEntry →
      other ≠ key →
      (otherEntry.constraint.expression.valueAt
          (Function.update assignment entry.marker value) + offsets other =
        otherEntry.balance (Function.update assignment entry.marker value) ↔
      otherEntry.constraint.expression.valueAt assignment + offsets other =
        otherEntry.balance assignment) := by
    intro value other otherEntry foundOther apart
    have member := entry.marker_mem_symbols
    rw [Tableau.valueAt_update_fresh (not_mem_expression sound foundOther found member),
      Installed.balance_update (not_mem_symbols sound foundOther found apart member)]
  unfold Balanced
  rw [installed]
  simp only [Table.get?_erase_eq_some_iff]
  constructor
  · rintro ⟨value, balanced⟩ other otherEntry ⟨apart, foundOther⟩
    exact (others value other otherEntry foundOther (Ne.symm apart)).mp
      (balanced other otherEntry foundOther)
  · intro balanced
    obtain ⟨value, holds⟩ := exists_balance entry assignment
      (entry.constraint.expression.valueAt assignment + offsets key)
    refine ⟨value, fun other otherEntry foundOther => ?_⟩
    by_cases same : other = key
    · subst same
      have sameEntry : otherEntry = entry := Option.some.inj (foundOther.symm.trans found)
      subst sameEntry
      rw [Tableau.valueAt_update_fresh
        (not_mem_expression sound found found otherEntry.marker_mem_symbols)]
      exact holds
    · exact (others value other otherEntry foundOther same).mpr
        (balanced other otherEntry ⟨Ne.symm same, foundOther⟩)

theorem balanced_update_error (sound : before.Sound) {key : Nat}
    (found : before.installed.get? key = some entry) (soft : entry.constraint.isRequired = false)
    (installed : after.installed = before.installed.erase key) (value : K) :
    after.Balanced offsets (Function.update assignment entry.error value) ↔
      after.Balanced offsets assignment := by
  have member := Installed.error_mem_symbols soft
  refine forall_congr' fun other => forall_congr' fun otherEntry =>
    forall_congr' fun foundOther => ?_
  rw [installed, Table.get?_erase_eq_some_iff] at foundOther
  obtain ⟨apart, was⟩ := foundOther
  rw [Tableau.valueAt_update_fresh (not_mem_expression sound was found member),
    Installed.balance_update (not_mem_symbols sound was found (Ne.symm apart) member)]

theorem solves_foldl_removeError (sound : before.Sound) {key : Nat}
    (found : before.installed.get? key = some entry)
    (installed : after.installed = before.installed.erase key) {symbols : List Symbol}
    (areErrors : ∀ symbol ∈ symbols,
      entry.constraint.isRequired = false ∧ symbol = entry.error) {tableau : Tableau K}
    (indexed : tableau.Indexed) (pruned : tableau.Pruned)
    (solves : ∀ assignment, tableau.Solves assignment ↔ after.Balanced offsets assignment) :
    (symbols.foldl Tableau.removeColumn tableau).Pruned ∧ ∀ assignment,
      (symbols.foldl Tableau.removeColumn tableau).Solves assignment ↔
        after.Balanced offsets assignment := by
  induction symbols generalizing tableau with
  | nil => exact ⟨pruned, solves⟩
  | cons symbol rest ih =>
    obtain ⟨soft, rfl⟩ := areErrors symbol List.mem_cons_self
    refine ih (fun other member => areErrors other (List.mem_cons_of_mem _ member))
      (indexed.removeColumn rfl) (pruned.removeColumn indexed _) fun assignment => ?_
    cases isBasic : tableau.isBasic entry.error with
    | true => rw [Tableau.solves_removeColumn_basic indexed isBasic, solves]
    | false =>
      rw [Tableau.solves_removeColumn indexed isBasic, solves,
        balanced_update_error sound found soft installed]

section Uninstalling

variable {dropped : Tableau K} (uninstalls : before.Uninstalls constraint entry dropped after)

include uninstalls

variable (encodes : before.Encodes offsets) (sound : before.Sound)

include encodes sound

theorem Encodes.dropped_solves : ∃ later, before.settleStays.Encodes later ∧ dropped.Pruned ∧
    ∀ assignment, dropped.Solves assignment ↔ after.Balanced later assignment := by
  obtain ⟨later, settled, _⟩ := encodes.settleStays sound
  obtain ⟨recosts, fits⟩ := withdraw_tableau sound uninstalls.found
  have withdrawnPruned := withdraw_pruned settled.pruned constraint
  have notObjective := ((sound.books.entries _ entry uninstalls.found).symbol_known
    entry.marker_mem_symbols).2.2
  refine ⟨later, settled, uninstalls.drops.pruned_after fits.indexed withdrawnPruned,
    fun assignment => ?_⟩
  rw [uninstalls.drops.solves_iff fits.indexed withdrawnPruned notObjective,
    ← balanced_erase sound uninstalls.found uninstalls.installed_after]
  exact exists_congr fun value => (recosts.solves _).trans (settled.solves _)

theorem Encodes.uninstall (sameKind : entry.constraint.kind = constraint.kind) :
    ∃ later, before.settleStays.Encodes later ∧ after.Encodes later := by
  obtain ⟨later, settled, droppedPruned, droppedSolves⟩ := encodes.dropped_solves uninstalls sound
  have installed := uninstalls.installed_after
  obtain ⟨errors, result, named, _⟩ := uninstalls.tableau_after sound sameKind
  obtain ⟨pruned, solves⟩ := solves_foldl_removeError sound uninstalls.found installed named
    (uninstalls.dropped_fits sound).indexed droppedPruned droppedSolves
  refine ⟨later, settled, result ▸ pruned, ?_, result ▸ solves⟩
  intro other otherEntry foundOther required
  exact settled.required other otherEntry (uninstalls.get?_installed_iff.mp foundOther).2 required

end Uninstalling

end Removing

theorem Encodes.move (move : Move given before after) (sound : before.Sound)
    (encodes : ∃ offsets, before.Encodes offsets) : ∃ offsets, after.Encodes offsets := by
  obtain ⟨offsets, encodes⟩ := encodes
  cases move with
  | tidy tidies =>
    exact ⟨offsets, encodes.of_same (congrArg Tableau.rows tidies.tableau) tidies.installed⟩
  | requeue requeues => exact ⟨offsets, encodes.of_same requeues.rows rfl⟩
  | pivot leaves pivots => exact ⟨offsets, encodes.pivot sound.fits leaves pivots⟩
  | settle =>
    obtain ⟨later, settled, _⟩ := encodes.settleStays sound
    exact ⟨later, settled⟩
  | suggest registered target => exact ⟨_, encodes.retarget sound registered target⟩
  | install _ external _ installs => exact ⟨_, encodes.install sound external installs⟩
  | uninstall sameKind uninstalls =>
    obtain ⟨later, _, left⟩ := encodes.uninstall uninstalls sound sameKind
    exact ⟨later, left⟩

end Solver

end SoftSimplex
