import SoftSimplex.Proofs.Books
import SoftSimplex.Proofs.Encoding
import SoftSimplex.Proofs.Frames
import SoftSimplex.Proofs.Lasting
import SoftSimplex.Proofs.Markers
import SoftSimplex.Proofs.Serving

/-!
Which variables the tableau of a solver contains, call by call. None that it contains is ever lost.
A variable comes in only by a constraint that names it, and a call that takes constraints out brings
in none.
-/

namespace SoftSimplex

namespace Tableau

/-! Costs -/

section Costs

variable {K : Type} [Scalar K] {tableau : Tableau K} {other : Symbol}

theorem hasColumn_setTermInRow (column : tableau.hasColumn other = true) (basic symbol : Symbol)
    (value : K) : (tableau.setTermInRow basic symbol value).hasColumn other = true := by
  unfold setTermInRow
  split
  · exact column
  · exact (hasColumn_noteChange _ _ _ _ _).mpr (.inr column)

theorem Contains.chargeObjective (contains : tableau.Contains other) (charge : Option (Charge K)) :
    (Solver.chargeObjective charge tableau).Contains other := by
  refine contains.imp ((recosts_chargeObjective charge tableau).bases other).trans fun column => ?_
  cases charge with
  | none => exact column
  | some cost =>
    exact List.foldlRecOn (motive := fun current : Tableau K => current.hasColumn other = true)
      cost.symbols _ column fun current stays symbol _ =>
        hasColumn_setTermInRow stays .mainObjective symbol cost.coefficient

variable [Add K] [Neg K] [Mul K]

theorem hasColumn_refundError (column : tableau.hasColumn other = true) (coefficient : K)
    (symbol : Symbol) : (tableau.refundError coefficient symbol).hasColumn other = true := by
  unfold refundError
  split
  · unfold addScaledToRow
    split
    · exact column
    · have setColumn : ∀ row, (tableau.setRow .mainObjective row).hasColumn other = true :=
        fun _ => column
      exact hasColumn_noteReport (setColumn _) _ _
  · unfold addTermToRow
    split
    · exact column
    · exact (hasColumn_noteChange _ _ _ _ _).mpr (.inr column)

theorem Contains.refundErrors (contains : tableau.Contains other) (coefficient : K)
    (symbols : List Symbol) :
    (symbols.foldl (refundError coefficient) tableau).Contains other := by
  refine List.foldlRecOn (motive := fun current : Tableau K => current.Contains other) symbols _
    contains fun current stays symbol _ => ?_
  exact stays.imp ((current.recosts_refundError coefficient symbol).bases other).trans fun column =>
    hasColumn_refundError column coefficient symbol

end Costs

namespace HasExternals

variable {K : Type} [Field K] [LinearOrder K] {before after : Tableau K} {inside : Symbol → Prop}

omit [LinearOrder K] in
theorem shift {constantOf : Symbol → Expression K → K} (externals : before.HasExternals inside)
    (shifts : before.Shifts after constantOf) : after.HasExternals inside := by
  refine ⟨shifts.indexed externals.indexed, shifts.pruned externals.pruned, fun symbol isExternal => ?_⟩
  rw [← externals.contains symbol isExternal, Contains, shifts.isBasic, shifts.hasColumn, Contains]

omit [LinearOrder K] in
theorem widen (externals : before.HasExternals inside) (indexed : after.Indexed) (pruned : after.Pruned)
    (kept : ∀ symbol, before.Contains symbol → after.Contains symbol)
    (within : after.Within fun symbol => before.Contains symbol ∨ symbol.isExternal = false) :
    after.HasExternals inside := by
  refine ⟨indexed, pruned, fun symbol isExternal => ?_⟩
  rw [← externals.contains symbol isExternal]
  refine ⟨fun contains => (within symbol contains).resolve_right ?_, kept symbol⟩
  rw [isExternal]
  exact Bool.noConfusion

theorem chargeObjective {charge : Option (Charge K)} (externals : before.HasExternals inside)
    (indexed : (Solver.chargeObjective charge before).Indexed)
    (internal : ∀ cost, charge = some cost → ∀ symbol ∈ cost.symbols, symbol.isExternal = false) :
    (Solver.chargeObjective charge before).HasExternals inside := by
  refine externals.widen indexed (externals.pruned.chargeObjective charge)
    (fun symbol contains => contains.chargeObjective charge) ?_
  have start : before.Within fun symbol => before.Contains symbol ∨ symbol.isExternal = false :=
    fun symbol contains => .inl contains
  cases charge with
  | none => exact start
  | some cost =>
    exact List.foldlRecOn
      (motive := fun current : Tableau K => current.Within fun symbol =>
        before.Contains symbol ∨ symbol.isExternal = false)
      cost.symbols _ start fun current within symbol member =>
        within.setTermInRow (.inr (internal cost rfl symbol member)) .mainObjective cost.coefficient

theorem refundErrors {symbols : List Symbol} {bound : Nat} (externals : before.HasExternals inside)
    (fits : before.Fits bound) (known : ∀ symbol ∈ symbols, symbol.Known bound)
    (internal : ∀ symbol ∈ symbols, symbol.isExternal = false) (coefficient : K) :
    (symbols.foldl (Tableau.refundError coefficient) before).HasExternals inside := by
  have start : before.Within fun symbol => before.Contains symbol ∨ symbol.isExternal = false :=
    fun symbol contains => .inl contains
  exact externals.widen (foldl_refundError fits known coefficient).2.indexed
    (externals.pruned.refundErrors coefficient symbols)
    (fun symbol contains => contains.refundErrors coefficient symbols)
    (start.refundErrors fits known (fun symbol member => .inr (internal symbol member)) coefficient)

end HasExternals

end Tableau

namespace Solver

open SoftSimplex.Action

variable {K : Type} [Field K] [LinearOrder K] {origin before after : Solver K}
  {constraint : Constraint K} {entry : Installed K} {limit : Nat} {grows : Prop} {α : Type}

omit [Field K] [LinearOrder K] in
theorem containsVariable_iff (solver : Solver K) (unknown : Variable) :
    solver.containsVariable unknown = true ↔ solver.tableau.Contains unknown.symbol := by
  rw [containsVariable, Bool.or_eq_true, or_comm, Tableau.Contains]

def Constrains (solver : Solver K) (symbol : Symbol) : Prop :=
  ∃ constraint ∈ solver.constraints, constraint.expression.coefficient symbol ≠ 0

instance (solver : Solver K) (symbol : Symbol) : Decidable (solver.Constrains symbol) :=
  inferInstanceAs (Decidable
    (∃ constraint ∈ solver.constraints, constraint.expression.coefficient symbol ≠ 0))

/-- A solver in order with the variables of an earlier one. Others come from its constraints, if any
may come in. -/
structure KeepsVariables (origin : Solver K) (grows : Prop) (solver : Solver K) : Prop where
  sound : solver.Sound
  pruned : solver.tableau.Pruned
  lasts : ∀ symbol, symbol.isExternal = true → origin.tableau.Contains symbol →
    solver.tableau.Contains symbol
  brings : ∀ symbol, symbol.isExternal = true → solver.tableau.Contains symbol →
    origin.tableau.Contains symbol ∨ grows ∧ solver.Constrains symbol

def KeepsVariablesAt (origin : Solver K) (grows : Prop) (action : Action K (Solver K) α) (limit : Nat)
    (before : Solver K) : Prop :=
  (action limit before).Meets (fun _ after => origin.KeepsVariables grows after)
    fun _ after => origin.KeepsVariables grows after

namespace KeepsVariables

theorem refl (sound : origin.Sound) (pruned : origin.tableau.Pruned) :
    origin.KeepsVariables grows origin :=
  ⟨sound, pruned, fun _ _ contains => contains, fun _ _ contains => .inl contains⟩

theorem mono {wider : Prop} (keeps : origin.KeepsVariables grows after) (weaker : grows → wider) :
    origin.KeepsVariables wider after :=
  ⟨keeps.sound, keeps.pruned, keeps.lasts, fun symbol isExternal contains =>
    (keeps.brings symbol isExternal contains).imp_right (And.imp_left weaker)⟩

theorem hasExternals (keeps : origin.KeepsVariables grows before) :
    before.tableau.HasExternals before.tableau.Contains :=
  ⟨keeps.sound.fits.indexed, keeps.pruned, fun _ _ => .rfl⟩

theorem step (keeps : origin.KeepsVariables grows before) (sound : after.Sound)
    (externals : after.tableau.HasExternals before.tableau.Contains)
    (same : after.installed = before.installed) : origin.KeepsVariables grows after := by
  refine ⟨sound, externals.pruned, fun symbol isExternal contains => ?_,
    fun symbol isExternal contains => ?_⟩
  · exact (externals.contains symbol isExternal).mpr (keeps.lasts symbol isExternal contains)
  · have earlier := keeps.brings symbol isExternal ((externals.contains symbol isExternal).mp contains)
    unfold Constrains constraints at earlier ⊢
    rwa [same]

theorem tidy (keeps : origin.KeepsVariables grows before) (tidies : before.Tidies after) :
    origin.KeepsVariables grows after :=
  keeps.step (tidies.sound keeps.sound) (tidies.tableau ▸ keeps.hasExternals) tidies.installed

theorem settleStays (keeps : origin.KeepsVariables grows before) :
    origin.KeepsVariables grows before.settleStays :=
  keeps.step keeps.sound.settleStays
    (keeps.hasExternals.shift (before.tableau.shifts_settleStays before.stays)) rfl

theorem clearInfeasible (keeps : origin.KeepsVariables grows before) :
    origin.KeepsVariables grows (before.setTableau before.tableau.clearInfeasible) :=
  keeps.step keeps.sound.clearInfeasible
    ⟨keeps.sound.clearInfeasible.fits.indexed, keeps.pruned, keeps.hasExternals.contains⟩ rfl

theorem retarget (keeps : origin.KeepsVariables grows before) {unknown : Variable} {info : EditInfo K}
    (registered : before.edits.get? unknown = some info) (target : K) :
    origin.KeepsVariables grows (before.retargeted unknown info target) := by
  obtain ⟨_, _, retargets⟩ := retargets_retargeted keeps.sound registered target
  refine keeps.step (retargeted_sound keeps.sound registered target) ?_ rfl
  cases retargets with
  | plus _ shifts => exact keeps.hasExternals.shift shifts
  | minus _ shifts => exact keeps.hasExternals.shift shifts
  | uses _ _ shifts => exact keeps.hasExternals.shift shifts

end KeepsVariables

/-! Optimizing and repairing -/

theorem keepsVariables_publish :
    (publish : Action K (Solver K) Unit).Keeps (origin.KeepsVariables grows) :=
  keeps_bind keeps_get fun _ => keeps_bind (keeps_report _) fun _ =>
    keeps_modify fun solver keeps => keeps.tidy (tidies_publishValues solver)

theorem keepsVariables_optimize :
    (optimize : Action K (Solver K) Unit).Keeps (origin.KeepsVariables grows) := by
  refine keeps_bind (fun limit before keeps => (meets_within _ _ _ _).mpr ?_) fun _ =>
    keepsVariables_publish
  refine ((minimize_reaches (fun _ => False) keeps.sound.fits.indexed).and
    (keeps.hasExternals.minimize .mainObjective)).imp ?_ ?_
  · exact fun _ _ met => keeps.step (met.1.sound keeps.sound) met.2 rfl
  · exact fun _ _ met => keeps.step (met.1.sound keeps.sound) met.2 rfl

theorem keepsVariables_autoOptimize :
    (autoOptimize : Action K (Solver K) Unit).Keeps (origin.KeepsVariables grows) :=
  keeps_bind keeps_get fun _ => by
    split
    · exact keepsVariables_optimize
    · exact keeps_pure ()

theorem keepsVariables_solve : (solve : Action K (Solver K) Unit).Keeps (origin.KeepsVariables grows) :=
  (compositional_keeps outlook _).closed (solveScript (.part keepsVariables_optimize))

theorem keepsVariables_resolve :
    (resolve : Action K (Solver K) Unit).Keeps (origin.KeepsVariables grows) := by
  have settles : (modify fun solver : Solver K =>
      (solver.setTableau solver.tableau.clearInfeasible).settleStays : Action K (Solver K) Unit).Keeps
        (origin.KeepsVariables grows) :=
    keeps_modify fun _ keeps => keeps.clearInfeasible.settleStays
  refine keeps_bind (fun limit before keeps => (meets_within _ _ _ _).mpr ?_) fun _ =>
    keeps_bind keepsVariables_publish fun _ => settles
  refine ((repair_reaches (fun _ => False) keeps.sound.fits.indexed).and
    (keeps.hasExternals.repair .mainObjective)).imp ?_ ?_
  · exact fun _ _ met => keeps.step (met.1.sound keeps.sound) met.2 rfl
  · exact fun _ _ met => keeps.step (met.1.1.sound keeps.sound) met.2 rfl

theorem keepsVariables_beginEdit :
    (beginEdit : Action K (Solver K) Unit).Keeps (origin.KeepsVariables grows) :=
  keeps_beginEdit fun _ keeps => keeps.clearInfeasible.settleStays.tidy (tidies_depths _ _)

theorem keepsVariables_suggest (unknown : Variable) (target : K) :
    (suggest unknown target).Keeps (origin.KeepsVariables grows) := by
  intro limit before keeps
  refine (meets_suggest unknown target).mpr ?_
  cases registered : before.edits.get? unknown with
  | none => exact keeps
  | some info => exact keeps.retarget registered target

theorem keepsVariables_resolveAt (targets : List K) :
    (resolveAt targets).Keeps (origin.KeepsVariables grows) := by
  refine (compositional_keeps outlook _).closed
    (resolveAtScript ?_ (.part keepsVariables_resolve) targets)
  exact fun unknown target => .part (keepsVariables_suggest unknown target)

/-! Adding -/

section Adding

theorem charge_internal {cost : Charge K}
    (isCharge : (before.equationFor constraint).charge = some cost) :
    ∀ symbol ∈ cost.symbols, symbol.isExternal = false := by
  rw [(before.equationFor_made constraint).charge, Demand.chargeAt] at isCharge
  split at isCharge
  · cases isCharge
  · cases isCharge
    intro symbol member
    dsimp only at member
    split at member
    · rw [List.mem_singleton.mp member]
      rfl
    · simp only [List.mem_cons, List.not_mem_nil, or_false] at member
      rcases member with rfl | rfl <;> rfl

theorem coefficient_of_equationFor (fits : before.tableau.Fits before.nextId)
    (external : constraint.External) {symbol : Symbol} (isExternal : symbol.isExternal = true)
    (absent : ¬ before.tableau.Contains symbol)
    (member : symbol ∈ (before.equationFor constraint).row.symbols) :
    constraint.expression.coefficient symbol ≠ 0 := by
  intro missing
  have worth := (before.equationFor_pruned constraint).coefficient_ne_zero member
  have loose : ¬ before.tableau.InConstraintRows symbol := by
    rintro (isBasic | ⟨basic, _, occurs⟩)
    · exact absent (.inl isBasic)
    · exact absent (.inr (fits.indexed.hasColumn_of_occurs occurs))
  let entry : Installed K := ⟨constraint, ⟨before.nextId, constraint.markerKind⟩⟩
  have apart : symbol ∉ entry.symbols := by
    intro own
    rcases Installed.mem_symbols_iff.mp own with rfl | ⟨_, rfl⟩
    · unfold entry Symbol.isExternal Demand.markerKind at isExternal
      split at isExternal <;> cases isExternal
    · cases isExternal
  have solves : before.tableau.Solves before.tableau.basicSolution :=
    Tableau.solves_completed fits.indexed _
  have holds : ∀ value, (before.equationFor constraint).row.valueAt
      (Function.update before.tableau.basicSolution symbol value) = 0 ↔
        constraint.expression.valueAt before.tableau.basicSolution =
          entry.balance before.tableau.basicSolution := by
    intro value
    have moved := Tableau.solves_update_loose loose solves value
    refine (Tableau.equationOf_holds_iff fits external moved).trans ?_
    rw [Installed.balance_update apart, Expression.valueAt_update, missing, zero_mul, add_zero]
  simp only [Expression.valueAt_update] at holds
  have balanced := (holds (before.tableau.basicSolution symbol -
    (before.equationFor constraint).row.valueAt before.tableau.basicSolution /
      (before.equationFor constraint).row.coefficient symbol)).mp (by
        rw [sub_sub_cancel_left, mul_neg, mul_div_cancel₀ _ worth, add_neg_cancel])
  have here := (holds (before.tableau.basicSolution symbol)).mpr balanced
  have moved := (holds (before.tableau.basicSolution symbol + 1)).mpr balanced
  exact worth (by linear_combination moved - here)

theorem place_hasExternals (keeps : origin.KeepsVariables grows before) (external : constraint.External)
    {placement : Placement K}
    (chosen : before.tableau.choosePlacement? (before.equationFor constraint).row = some placement) :
    (place (before.equationFor constraint) placement limit
        { before with nextId := (before.equationFor constraint).nextId }).Meets
      (fun result after => result = .ok () → after.tableau.HasExternals fun symbol =>
        before.tableau.Contains symbol ∨ symbol ∈ (before.equationFor constraint).row.symbols)
      fun _ _ => True := by
  have fits := keeps.sound.fits
  have rowPruned := before.equationFor_pruned constraint
  have chooses := Tableau.chooses_of_choosePlacement chosen
  have symbols := chooses.symbols
  have charged : (before.charged constraint).HasExternals before.tableau.Contains :=
    keeps.hasExternals.chargeObjective (charged_fits fits constraint).indexed fun _ => charge_internal
  have entry := charged_entry fits external
  unfold place
  rw [meets_bind, meets_get, meets_bind, meets_modify]
  cases placement with
  | direct subject row =>
    obtain ⟨sameSymbols, occurs⟩ := symbols
    have placedPruned := (Tableau.Chooses.holds_iff (fun _ => 0) chooses rowPruned).1
    unfold onTableau
    dsimp only
    rw [meets_attempt, meets_within]
    refine (charged.addSolved placedPruned (sameSymbols ▸ occurs) ?_).imp ?_
      fun _ _ never => never.elim
    · intro symbol member
      exact entry.parametric symbol (sameSymbols ▸ member)
    · intro _ tableau externals _
      rw [← sameSymbols]
      exact externals
  | artificial row =>
    dsimp only at symbols
    subst symbols
    unfold placeByArtificial freshSymbol onTableau
    simp only [meets_bind, meets_get, meets_modify, meets_pure, meets_attempt, meets_within]
    exact (charged.addByArtificial entry rowPruned).imp (fun _ _ externals _ => externals) nofun

theorem KeepsVariables.install (keeps : origin.KeepsVariables grows before)
    (external : constraint.External)
    (older : constraint.key < before.nextKey) {placement : Placement K} {tableau : Tableau K}
    {nextId : Nat} (installs : before.Installs constraint placement tableau nextId after)
    (externals : tableau.HasExternals fun symbol => before.tableau.Contains symbol ∨
      symbol ∈ (before.equationFor constraint).row.symbols)
    (named : ∀ symbol, constraint.expression.coefficient symbol ≠ 0 →
      grows ∨ origin.tableau.Contains symbol) : origin.KeepsVariables grows after := by
  refine ⟨installs.sound keeps.sound external older, installs.tableau_eq ▸ externals.pruned,
    fun symbol isExternal contains => ?_, fun symbol isExternal contains => ?_⟩
  · rw [installs.tableau_eq]
    exact (externals.contains symbol isExternal).mpr (.inl (keeps.lasts symbol isExternal contains))
  rw [installs.tableau_eq, externals.contains symbol isExternal] at contains
  by_cases old : before.tableau.Contains symbol
  · refine (keeps.brings symbol isExternal old).imp_right fun ⟨mayGrow, other, listed, names⟩ =>
      ⟨mayGrow, other, ?_, names⟩
    obtain ⟨key, entry, found, rfl⟩ := mem_constraints_iff.mp listed
    refine mem_constraints_iff.mpr ⟨key, entry, (installs.get?_installed key).trans ?_, rfl⟩
    rw [if_neg, found]
    rintro rfl
    rw [installs.fresh] at found
    cases found
  · have names := coefficient_of_equationFor keeps.sound.fits external isExternal old
      (contains.resolve_left old)
    refine (named symbol names).symm.imp_right fun mayGrow => ⟨mayGrow, constraint, ?_, names⟩
    exact mem_constraints_iff.mpr
      ⟨constraint.key, _, (installs.get?_installed _).trans (if_pos rfl), rfl⟩

theorem keepsVariables_add (keeps : origin.KeepsVariables grows before) (external : constraint.External)
    (older : constraint.key < before.nextKey)
    (named : ∀ symbol, constraint.expression.coefficient symbol ≠ 0 →
      grows ∨ origin.tableau.Contains symbol) :
    origin.KeepsVariablesAt grows (add constraint) limit before := by
  unfold KeepsVariablesAt add
  rw [meets_bind, meets_get]
  cases objects : before.objection? constraint with
  | some fault => exact keeps
  | none =>
    dsimp only
    rw [meets_bind, meets_report, meets_bind, meets_modify]
    generalize same : before.tableau.equationOf before.nextId constraint.toDemand = equation
    obtain rfl : before.equationFor constraint = equation := same
    have numbered := keeps.tidy
      (tidies_nextId (Nat.le_of_lt (before.equationFor_nextId constraint)))
    cases chosen : before.tableau.choosePlacement? (before.equationFor constraint).row with
    | none => exact numbered
    | some placement =>
      dsimp only
      rw [meets_bind]
      refine ((place_meets keeps.sound.fits external chosen).and
        (place_hasExternals keeps external chosen)).imp ?_ fun _ _ never => never.1.elim
      rintro (fault | done) reached ⟨met, externals⟩
      · obtain ⟨row, _, _, rfl⟩ := met
        refine keeps.tidy (tidies_nextId ?_)
        have later := before.equationFor_nextId constraint
        omega
      · obtain ⟨tableau, nextId, places, rfl⟩ := met
        dsimp only
        rw [meets_bind, meets_modify]
        have installs : before.Installs constraint placement tableau nextId _ :=
          ⟨objects, chosen, places, rfl⟩
        exact keepsVariables_autoOptimize limit _
          (keeps.install external older installs (externals rfl) named)

theorem keepsVariables_tryAdd (keeps : origin.KeepsVariables grows before)
    (external : constraint.External)
    (older : constraint.key < before.nextKey)
    (named : ∀ symbol, constraint.expression.coefficient symbol ≠ 0 →
      grows ∨ origin.tableau.Contains symbol) :
    origin.KeepsVariablesAt grows (tryAdd constraint) limit before := by
  unfold KeepsVariablesAt tryAdd
  rw [meets_bind, meets_attempt]
  refine (keepsVariables_add keeps external older named).imp (fun _ _ reached => reached) ?_
  intro fault after reached
  cases fault <;> exact reached

theorem keepsVariables_addFresh (keeps : origin.KeepsVariables grows before) {demand : Demand K}
    (external : demand.External)
    (named : ∀ symbol, demand.expression.coefficient symbol ≠ 0 →
      grows ∨ origin.tableau.Contains symbol) :
    origin.KeepsVariablesAt grows (add ⟨demand, before.nextKey⟩) limit before.withNextKey :=
  keepsVariables_add (keeps.tidy before.tidies_withNextKey) external (Nat.lt_succ_self _) named

theorem keepsVariables_addNew {demand : Demand K} (external : demand.External) :
    (addNew demand).Keeps (origin.KeepsVariables True) := fun _ _ keeps =>
  (meets_addNew demand _ _).mpr (keepsVariables_addFresh keeps external fun _ _ => .inl trivial)

theorem keepsVariables_addStay (unknown : Variable) (strength : Strength) (weight : K) :
    (addStay unknown strength weight).Keeps (origin.KeepsVariables True) :=
  (compositional_keeps outlook _).closed (addStayScript fun value =>
    .part (keepsVariables_addNew (Demand.external_stay unknown value strength weight)))

theorem keepsVariables_addEdit (keeps : origin.KeepsVariables grows before) (unknown : Variable)
    (strength : Strength)
    (named : grows ∨ origin.tableau.Contains unknown.symbol) :
    origin.KeepsVariablesAt grows (addEdit unknown strength) limit before := by
  refine (meets_addEdit unknown strength _ _).mpr
    (keepsVariables_addFresh keeps (Demand.external_edit unknown _ strength) ?_)
  intro symbol present
  by_cases member : symbol ∈ (Demand.gap unknown (before.value unknown)).symbols
  · rwa [Demand.mem_symbols_of_gap member]
  · exact absurd (Expression.coefficient_eq_zero _ member) present

end Adding

/-! Removing -/

section Removing

variable {dropped : Tableau K}

theorem KeepsVariables.withdraw (keeps : origin.KeepsVariables grows before)
    (found : before.installed.get? constraint.key = some entry) :
    (before.withdraw constraint).tableau.HasExternals before.tableau.Contains := by
  have settled := keeps.hasExternals.shift (before.tableau.shifts_settleStays before.stays)
  have enters := keeps.sound.books.entries constraint.key entry found
  obtain ⟨coefficient, errors, refunded, owned⟩ := withdraw_refunds_symbols keeps.sound found
  rw [refunded]
  exact settled.refundErrors keeps.sound.settleStays.fits
    (fun symbol member => (enters.symbol_known (owned symbol member)).1)
    (fun symbol member => (enters.symbol_known (owned symbol member)).2.1) coefficient

theorem KeepsVariables.uninstall (keeps : origin.KeepsVariables False before)
    (uninstalls : before.Uninstalls constraint entry dropped after)
    (sameKind : entry.constraint.kind = constraint.kind)
    (externals : dropped.HasExternals before.tableau.Contains) : origin.KeepsVariables False after := by
  obtain ⟨errors, result, named, _⟩ := uninstalls.tableau_after keeps.sound sameKind
  have cleared : after.tableau.HasExternals before.tableau.Contains := by
    rw [result]
    refine externals.removeColumns fun symbol member => ?_
    rw [(named symbol member).2]
    rfl
  refine ⟨uninstalls.sound keeps.sound sameKind, cleared.pruned,
    fun symbol isExternal contains => ?_, fun symbol isExternal contains => .inl ?_⟩
  · exact (cleared.contains symbol isExternal).mpr (keeps.lasts symbol isExternal contains)
  · have earlier := (cleared.contains symbol isExternal).mp contains
    exact (keeps.brings symbol isExternal earlier).resolve_right And.left

theorem keepsVariables_remove (keeps : origin.KeepsVariables False before)
    (sameKind : ∀ entry, before.installed.get? constraint.key = some entry →
      entry.constraint.kind = constraint.kind) :
    origin.KeepsVariablesAt False (remove constraint) limit before := by
  unfold KeepsVariablesAt remove
  rw [meets_bind, meets_get]
  cases found : before.installed.get? constraint.key with
  | none => exact keeps
  | some entry =>
    have internal := ((keeps.sound.books.entries _ entry found).symbol_known
      entry.marker_mem_symbols).2.1
    dsimp only
    unfold onTableau
    simp only [meets_bind, meets_report, meets_modify, meets_within]
    refine ((Tableau.dropMarker_meets (withdraw_tableau keeps.sound found).2.indexed).and
      ((keeps.withdraw found).dropMarker internal)).imp ?_ fun _ _ never => never.1.elim
    rintro _ dropped ⟨drops, externals⟩
    exact keepsVariables_autoOptimize limit _
      (keeps.uninstall ⟨found, drops, rfl⟩ (sameKind entry found) externals)

theorem keepsVariables_removeEdit (unknown : Variable) :
    (removeEdit unknown).Keeps (origin.KeepsVariables False) := by
  intro limit before keeps
  refine (meets_removeEdit unknown).mpr ?_
  cases registered : before.edits.get? unknown with
  | none => exact keeps
  | some info => exact keepsVariables_remove keeps (keeps.sound.edit_kind registered)

theorem keepsVariables_trimEdits (count : Nat) :
    (trimEdits count).Keeps (origin.KeepsVariables False) :=
  keeps_trimEdits keepsVariables_removeEdit count

theorem keepsVariables_endEdit : endEdit.Keeps (origin.KeepsVariables False) :=
  keeps_endEdit keepsVariables_resolve
    (fun _ keeps => keeps.tidy (tidies_depths _ _)) keepsVariables_trimEdits

theorem keepsVariables_editValue {unknown : Variable}
    (contains : origin.tableau.Contains unknown.symbol)
    (target : K) : (editValue unknown target).Keeps (origin.KeepsVariables False) := by
  have edits : (addDefaultEdit unknown).Keeps (origin.KeepsVariables False) := fun _ before keeps =>
    (meets_bind _ _ _).mpr
      (keepsVariables_addEdit keeps unknown before.config.editStrength (.inr contains))
  refine (compositional_keeps outlook _).closed (editValueScript (.part edits) ?_ ?_ ?_)
  · exact .part keepsVariables_beginEdit
  · exact .part (keepsVariables_suggest unknown target)
  · exact .part keepsVariables_endEdit

theorem keepsVariables_setEditedValue (keeps : origin.KeepsVariables False origin)
    (unknown : Variable) (target : K) :
    origin.KeepsVariablesAt False (setEditedValue unknown target) limit origin := by
  refine (meets_bind _ _ _).mpr ?_
  rw [meets_get]
  split
  · exact keeps.tidy ⟨rfl, rfl, rfl, rfl, rfl, Nat.le_refl _, Nat.le_refl _⟩
  split
  · exact keeps
  · rename_i present _
    have contains := (origin.containsVariable_iff unknown).mp (by simpa using present)
    exact keepsVariables_editValue contains target limit origin keeps

end Removing

end Solver

namespace Session

open SoftSimplex.Action Solver

variable {K : Type} [Field K] [LinearOrder K] {session : Session K} {limit : Nat} {α : Type}

def KeepsVariablesAt (action : Action K (Session K) α) (limit : Nat) (session : Session K) : Prop :=
  (action limit session).Meets (fun _ next => session.solver.KeepsVariables True next.solver)
    fun _ next => session.solver.KeepsVariables True next.solver

/-- However a call ends, the variables that it brings into the tableau are in constraints then. -/
theorem perform_keepsVariables (sound : session.Sound) (pruned : session.solver.tableau.Pruned)
    {request : Call K} : KeepsVariablesAt (perform request) limit session := by
  have start : ∀ grows, session.solver.KeepsVariables grows session.solver := fun _ =>
    .refl sound.solver pruned
  have compositional :=
    compositional_keeps (K := K) outlook fun solver => session.solver.KeepsVariables True solver
  have widened : ∀ {α : Type} {action : Action K (Solver K) α},
      session.solver.KeepsVariablesAt False action limit session.solver →
        session.solver.KeepsVariablesAt True action limit session.solver := fun keeps =>
    keeps.imp (fun _ _ spanned => spanned.mono False.elim) fun _ _ spanned => spanned.mono False.elim
  refine meets_perform (session.solver.KeepsVariables True)
    (fun _ => session.solver.KeepsVariables True) (start True)
    fun serves => ?_
  cases serves with
  | newVariable name value =>
    exact (start True).tidy ⟨rfl, rfl, rfl, rfl, rfl, Nat.le_succ _, Nat.le_refl _⟩
  | make demand => exact (start True).tidy session.solver.tidies_withNextKey
  | setStrength | reset => exact start True
  | add found =>
    have agrees := (sound.held _ _ found).2
    exact keepsVariables_add (start True) agrees.external agrees.older fun _ _ => .inl trivial
  | tryAdd found =>
    have agrees := (sound.held _ _ found).2
    exact keepsVariables_tryAdd (start True) agrees.external agrees.older fun _ _ => .inl trivial
  | remove found =>
    exact widened (keepsVariables_remove (start False) (sound.held _ _ found).2.sameKind)
  | addLowerBound unknown lower =>
    exact keepsVariables_addNew (Demand.external_lowerBound unknown lower .required) limit _
      (start True)
  | addUpperBound unknown upper =>
    exact keepsVariables_addNew (Demand.external_upperBound unknown upper .required) limit _
      (start True)
  | addBounds unknown lower upper =>
    have below := Demand.external_lowerBound unknown lower .required
    have above := Demand.external_upperBound unknown upper .required
    exact compositional.closed
      (addBoundsScript (.part (keepsVariables_addNew below))
        (.part (keepsVariables_addNew above))) _ _ (start True)
  | addStay unknown strength weight =>
    exact keepsVariables_addStay unknown strength weight _ _ (start True)
  | addPointStay horizontal vertical weight =>
    exact compositional.closed (addPointStayScript _ _ fun _ => .part (keepsVariables_addStay _ _ _))
      _ _ (start True)
  | addPointStays points =>
    exact compositional.closed
      (addPointStaysFromScript (fun _ _ => .part (keepsVariables_addStay _ _ _)) 1 points) _ _
        (start True)
  | addVariable unknown =>
    exact compositional.closed (addVariableScript (.part (keepsVariables_addStay unknown .weak 1)))
      _ _ (start True)
  | addEdit unknown strength =>
    exact keepsVariables_addEdit (start True) unknown strength (.inl trivial)
  | addDefaultEdit unknown =>
    exact (meets_bind _ _ _).mpr (keepsVariables_addEdit (start True) unknown _ (.inl trivial))
  | removeEdit unknown => exact widened (keepsVariables_removeEdit unknown limit _ (start False))
  | trimEdits count => exact widened (keepsVariables_trimEdits count limit _ (start False))
  | removeAllEdits => exact widened (keepsVariables_trimEdits 0 limit _ (start False))
  | beginEdit => exact widened (keepsVariables_beginEdit limit _ (start False))
  | endEdit => exact widened (keepsVariables_endEdit limit _ (start False))
  | suggest unknown target =>
    exact widened (keepsVariables_suggest unknown target limit _ (start False))
  | resolve => exact widened (keepsVariables_resolve limit _ (start False))
  | resolveAt targets => exact widened (keepsVariables_resolveAt targets limit _ (start False))
  | setEditedValue unknown target =>
    exact widened (keepsVariables_setEditedValue (start False) unknown target)
  | solve => exact widened (keepsVariables_solve limit _ (start False))
  | setAutoSolve autoSolve =>
    exact (start True).tidy ⟨rfl, rfl, rfl, rfl, rfl, Nat.le_refl _, Nat.le_refl _⟩

end Session

end SoftSimplex
