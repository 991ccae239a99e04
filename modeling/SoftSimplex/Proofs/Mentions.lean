import SoftSimplex.Proofs.Requirements

/-!
Where a symbol can stand in a solver, and that a removal leaves no symbol of the removed constraint
anywhere. Only the row of the marker is dropped, and a column only goes if its symbol is not basic;
that the other error symbol is never basic by then is read off the solutions of the tableau, which
leave it free.
-/

namespace SoftSimplex

/-! Symbols in a tableau -/

namespace Tableau

section Absence

variable {K : Type} {before after : Tableau K} {symbol marker : Symbol}

/-- A symbol stands somewhere in a tableau. -/
inductive Mentions (tableau : Tableau K) (symbol : Symbol) : Prop
  | row (isBasic : tableau.isBasic symbol = true)
  | column (hasColumn : tableau.hasColumn symbol = true)
  | term {basic : Symbol} (occurs : tableau.Occurs symbol basic)
  | use {other : Symbol} (member : symbol ∈ tableau.column other)
  | queued (member : symbol ∈ tableau.infeasible.keys)
  | basicExternal (member : symbol ∈ tableau.basicExternals.keys)
  | parametricExternal (member : symbol ∈ tableau.parametricExternals.keys)

theorem Within.not_mentions {tableau : Tableau K} (without : tableau.Within (· ≠ symbol))
    (indexed : tableau.Indexed) : ¬ tableau.Mentions symbol := by
  have noRow : tableau.isBasic symbol ≠ true := fun isBasic => without symbol (.inl isBasic) rfl
  have noColumn : tableau.hasColumn symbol ≠ true := fun column =>
    without symbol (.inr column) rfl
  intro mentions
  cases mentions with
  | row isBasic => exact noRow isBasic
  | column hasColumn => exact noColumn hasColumn
  | term occurs => exact noColumn (indexed.hasColumn_of_occurs occurs)
  | use member =>
    obtain ⟨row, found, _⟩ := (indexed.agrees _ _).mp member
    exact noRow (isBasic_of_row? found)
  | queued member => exact noRow (indexed.queued symbol member).2
  | basicExternal member => exact noRow ((indexed.listsBasic symbol not_false).mp member).2
  | parametricExternal member => exact noColumn ((indexed.listsParametric symbol).mp member).2

theorem Within.removeColumns {allowed : Symbol → Prop} (within : before.Within allowed)
    (indexed : before.Indexed) {symbols : List Symbol}
    (internal : ∀ other ∈ symbols, other.isExternal = false) :
    (symbols.foldl Tableau.removeColumn before).Within allowed := by
  induction symbols generalizing before with
  | nil => exact within
  | cons first rest ih =>
    exact ih (within.removeColumn indexed first) (indexed.removeColumn
      (internal first List.mem_cons_self)) fun other member =>
        internal other (List.mem_cons_of_mem _ member)

theorem without_of_removeColumns (indexed : before.Indexed)
    (notBasic : before.isBasic symbol = false) {symbols : List Symbol} (member : symbol ∈ symbols)
    (internal : ∀ other ∈ symbols, other.isExternal = false) :
    (symbols.foldl Tableau.removeColumn before).Within (· ≠ symbol) := by
  induction symbols generalizing before with
  | nil => cases member
  | cons first rest ih =>
    have isIndexed := indexed.removeColumn (internal first List.mem_cons_self)
    have restInternal := fun other member => internal other (List.mem_cons_of_mem first member)
    have stillNotBasic := (isBasic_removeColumn indexed first symbol).trans notBasic
    rcases List.mem_cons.mp member with rfl | later
    · refine Within.removeColumns ?_ isIndexed restInternal
      rintro other (isBasic | column) rfl
      · rw [stillNotBasic] at isBasic
        cases isBasic
      · exact ((hasColumn_removeColumn before other other).mp column).1 rfl
    · exact ih isIndexed stillNotBasic later restInternal

theorem without_of_removeRow (indexed : before.Indexed) (isBasic : before.isBasic marker = true) :
    (before.removeRow marker).Within (· ≠ marker) := by
  rintro other (stillBasic | column) rfl
  · exact ((isBasic_removeRow before other other).mp stillBasic).1 rfl
  · rw [hasColumn_removeRow, indexed.parametric other isBasic] at column
    cases column

section Dropping

variable [Zero K] [One K] [Add K] [Neg K] [Mul K] [Div K] [LT K] [DecidableLT K] [Scalar K]

theorem Drops.within {allowed : Symbol → Prop} (drops : before.Drops marker after)
    (indexed : before.Indexed) (within : before.Within allowed) : after.Within allowed := by
  cases drops with
  | basic _ => exact within.removeRow marker
  | unused _ _ => exact within.removeColumn indexed marker
  | exchange _ _ pivots => exact (pivots.within indexed within).removeRow marker

theorem Drops.without (drops : before.Drops marker after) (indexed : before.Indexed)
    (internal : marker.isExternal = false) : after.Within (· ≠ marker) := by
  cases drops with
  | basic isBasic => exact without_of_removeRow indexed isBasic
  | unused notBasic =>
    exact without_of_removeColumns indexed notBasic (List.mem_singleton_self marker)
      fun other member => List.mem_singleton.mp member ▸ internal
  | exchange _ _ pivots =>
    exact without_of_removeRow pivots.indexed ((pivots.isBasic_after marker).mpr (.inl rfl))

end Dropping

end Absence

section Freedom

variable {K : Type} [Field K] {tableau : Tableau K} {symbol : Symbol}

theorem not_basic_of_free (indexed : tableau.Indexed) (notObjective : symbol.kind ≠ .objective)
    (free : ∀ assignment value, tableau.Solves (Function.update assignment symbol value) ↔
      tableau.Solves assignment) : tableau.isBasic symbol = false := by
  rw [← Bool.not_eq_true]
  intro isBasic
  obtain ⟨row, found⟩ := (tableau.isBasic_iff symbol).mp isBasic
  have solves := solves_completed indexed fun _ => 0
  have fixed := solves symbol row found notObjective
  have raised := (free tableau.basicSolution (tableau.basicSolution symbol + 1)).mpr solves
    symbol row found notObjective
  rw [valueAt_update_basic indexed _ isBasic found, Function.update_self] at raised
  exact one_ne_zero (left_eq_add.mp (fixed.trans raised.symm))

end Freedom

end Tableau

/-! Symbols in the books -/

namespace Ledger

variable {K : Type} {ledger : Ledger K} {symbol : Symbol}

inductive Names (ledger : Ledger K) (symbol : Symbol) : Prop
  | marker {key : Nat} {entry : Installed K} (found : ledger.installed.get? key = some entry)
      (same : symbol = entry.marker)
  | expression {key : Nat} {entry : Installed K} (found : ledger.installed.get? key = some entry)
      (member : symbol ∈ entry.constraint.expression.symbols)
  | charge {key : Nat} {cost : Charge K} (found : ledger.charges.get? key = some cost)
      (member : symbol ∈ cost.symbols)
  | stay {pair : Symbol × Symbol} (member : pair ∈ ledger.stays)
      (same : symbol = pair.1 ∨ symbol = pair.2)
  | edit {unknown : Variable} {info : EditInfo K} (found : ledger.edits.get? unknown = some info)
      (same : symbol = info.plus ∨ symbol = info.minus)

theorem Pairs.owned {key : Nat} {kind : ConstraintKind} {pair : Symbol × Symbol}
    (pairs : ledger.Pairs key kind pair) (same : symbol = pair.1 ∨ symbol = pair.2) :
    ∃ entry, ledger.installed.get? key = some entry ∧ symbol ∈ entry.symbols := by
  obtain ⟨entry, found, _, soft, rfl⟩ := pairs
  refine ⟨entry, found, ?_⟩
  rcases same with rfl | rfl
  · exact entry.marker_mem_symbols
  · exact Installed.error_mem_symbols soft

variable [Zero K] [One K] [Add K] [Mul K] [Scalar K]

theorem Sound.owned (sound : ledger.Sound) (names : ledger.Names symbol)
    (internal : symbol.isExternal = false) :
    ∃ key entry, ledger.installed.get? key = some entry ∧ symbol ∈ entry.symbols := by
  cases names with
  | marker found same => exact ⟨_, _, found, same ▸ Installed.marker_mem_symbols _⟩
  | expression found member =>
    have isExternal := (sound.entries _ _ found).external symbol member
    rw [internal] at isExternal
    cases isExternal
  | @charge key cost found member =>
    cases isThere : ledger.installed.get? key with
    | none =>
      rw [sound.uncharged key isThere] at found
      cases found
    | some entry =>
      obtain ⟨soft, symbols⟩ := (sound.entries key entry isThere).charge_symbols found
      refine ⟨key, entry, isThere, ?_⟩
      rcases symbols symbol member with rfl | rfl
      · exact entry.marker_mem_symbols
      · exact Installed.error_mem_symbols soft
  | stay member same =>
    obtain ⟨key, unknown, pairs⟩ := sound.stays _ member
    exact ⟨key, pairs.owned same⟩
  | edit found same => exact ⟨_, (sound.edits _ _ found).2.owned same⟩

end Ledger

/-! Symbols in a solver -/

namespace Solver

section Places

variable {K : Type}

/-- A symbol stands somewhere in a solver: in its tableau or in its books. -/
def Mentions (solver : Solver K) (symbol : Symbol) : Prop :=
  solver.tableau.Mentions symbol ∨ solver.ledger.Names symbol

end Places

variable {K : Type} [Field K] [LinearOrder K] {before after : Solver K}
  {constraint : Constraint K} {entry : Installed K} {dropped : Tableau K} {offsets : Nat → K}
  {symbol : Symbol}

theorem Publishes.improved (publishes : before.Publishes after) :
    Relation.ReflTransGen (Tableau.Improves .mainObjective) before.tableau after.tableau := by
  obtain ⟨least, tableau, minimized, rfl⟩ := publishes
  rw [(tidies_publishValues (before.setTableau tableau)).tableau]
  exact minimized.improved

theorem Follows.improved (follows : before.Follows after) :
    Relation.ReflTransGen (Tableau.Improves .mainObjective) before.tableau after.tableau := by
  unfold Follows at follows
  split at follows
  · exact follows.improved
  · rw [follows]

namespace Uninstalls

variable (uninstalls : before.Uninstalls constraint entry dropped after)

include uninstalls

theorem error_not_basic (sound : before.Sound) (encodes : before.Encodes offsets)
    (soft : entry.constraint.isRequired = false) : dropped.isBasic entry.error = false := by
  obtain ⟨later, _, _, solves⟩ := encodes.dropped_solves uninstalls sound
  refine Tableau.not_basic_of_free (uninstalls.dropped_fits sound).indexed nofun
    fun assignment value => ?_
  rw [solves, solves, balanced_update_error sound uninstalls.found soft uninstalls.installed_after]

theorem without (sound : before.Sound) (encodes : before.Encodes offsets)
    (sameKind : entry.constraint.kind = constraint.kind) (member : symbol ∈ entry.symbols) :
    after.tableau.Within (· ≠ symbol) := by
  have enters := sound.books.entries constraint.key entry uninstalls.found
  have indexed := (uninstalls.dropped_fits sound).indexed
  obtain ⟨errors, result, named, listed⟩ := uninstalls.tableau_after sound sameKind
  have internal : ∀ other ∈ errors, other.isExternal = false := by
    intro other isError
    obtain ⟨_, rfl⟩ := named other isError
    rfl
  rw [result]
  rcases Installed.mem_symbols_iff.mp member with rfl | ⟨soft, rfl⟩
  · exact (uninstalls.drops.without (withdraw_tableau sound uninstalls.found).2.indexed
      (enters.symbol_known member).2.1).removeColumns indexed internal
  · exact Tableau.without_of_removeColumns indexed (uninstalls.error_not_basic sound encodes soft)
      (listed soft) internal

theorem within {allowed : Symbol → Prop} (sound : before.Sound)
    (sameKind : entry.constraint.kind = constraint.kind) (start : before.tableau.Within allowed)
    (own : ∀ symbol ∈ entry.symbols, allowed symbol) : after.tableau.Within allowed := by
  have enters := sound.books.entries constraint.key entry uninstalls.found
  have shifts := before.tableau.shifts_settleStays before.stays
  have settled : before.settleStays.tableau.Within allowed := fun symbol present =>
    start symbol (present.imp (shifts.isBasic symbol).symm.trans (shifts.hasColumn symbol).symm.trans)
  have withdrawn : (before.withdraw constraint).tableau.Within allowed := by
    obtain ⟨coefficient, errors, refunded, owned⟩ := withdraw_refunds_symbols sound uninstalls.found
    rw [refunded]
    exact settled.refundErrors (sound.fits.settleStays before.stays)
      (fun symbol member => (enters.symbol_known (owned symbol member)).1)
      (fun symbol member => own symbol (owned symbol member)) coefficient
  obtain ⟨errors, result, named, _⟩ := uninstalls.tableau_after sound sameKind
  rw [result]
  refine (uninstalls.drops.within (withdraw_tableau sound uninstalls.found).2.indexed
    withdrawn).removeColumns (uninstalls.dropped_fits sound).indexed fun symbol isError => ?_
  rw [(named symbol isError).2]
  rfl

theorem not_names {later : Solver K} (soundBefore : before.Sound) (sound : later.Sound)
    (installed : later.installed = after.installed) (member : symbol ∈ entry.symbols) :
    ¬ later.ledger.Names symbol := by
  intro names
  have internal := ((soundBefore.books.entries _ entry uninstalls.found).symbol_known member).2.1
  obtain ⟨key, owner, found, owned⟩ := sound.books.owned names internal
  have still : after.installed.get? key = some owner := installed ▸ found
  obtain ⟨apart, was⟩ := uninstalls.get?_installed_iff.mp still
  exact apart (soundBefore.books.apart _ _ _ _ uninstalls.found was symbol member owned)

theorem not_mentions {later : Solver K} (soundBefore : before.Sound)
    (encodes : before.Encodes offsets) (sameKind : entry.constraint.kind = constraint.kind)
    (improved : Relation.ReflTransGen (Tableau.Improves .mainObjective) after.tableau later.tableau)
    (sound : later.Sound) (installed : later.installed = after.installed)
    (member : symbol ∈ entry.symbols) : ¬ later.Mentions symbol := by
  rintro (mentions | names)
  · exact (Tableau.within_of_improvements improved
      (uninstalls.sound soundBefore sameKind).fits.indexed
      (uninstalls.without soundBefore encodes sameKind member)).not_mentions
        sound.fits.indexed mentions
  · exact uninstalls.not_names soundBefore sound installed member names

end Uninstalls

end Solver

namespace Session

variable {K : Type} [Field K] [LinearOrder K] {session : Session K} {constraint : Constraint K}
  {entry : Installed K} {limit : Nat}

/-- A removal leaves no symbol of the constraint behind, not even if the optimization at its end
fails, which is the only thing that can. -/
theorem remove_not_mentions (reachable : session.Reachable)
    (found : session.solver.installed.get? constraint.key = some entry)
    (sameKind : entry.constraint.kind = constraint.kind) :
    (Solver.remove constraint limit session.solver).Meets
      (fun _ after => ∀ symbol ∈ entry.symbols, ¬ after.Mentions symbol)
      (fun fault after => fault = .internal .objectiveUnbounded ∧
        ∀ symbol ∈ entry.symbols, ¬ after.Mentions symbol) := by
  obtain ⟨sound, offsets, encodes⟩ := reachable.encodes
  have same : ∀ other, session.solver.installed.get? constraint.key = some other →
      other.constraint.kind = constraint.kind := by
    intro other isThere
    rw [found] at isThere
    exact Option.some.inj isThere ▸ sameKind
  refine (Solver.remove_meets sound.solver same).imp ?_ ?_
  · rintro _ after ⟨other, dropped, removed, uninstalls, follows⟩ symbol member
    obtain rfl := Option.some.inj (found.symm.trans uninstalls.found)
    have removedSound := uninstalls.sound sound.solver sameKind
    exact uninstalls.not_mentions sound.solver encodes sameKind follows.improved
      (follows.sound removedSound) follows.tidies.installed
      member
  · intro fault after fails
    cases fails with
    | missing missing =>
      rw [found] at missing
      cases missing
    | @unbounded other dropped removed _ uninstalls _ escapes =>
      obtain rfl := Option.some.inj (found.symm.trans uninstalls.found)
      have removedSound := uninstalls.sound sound.solver sameKind
      have soundAfter := escapes.sound removedSound
      refine ⟨rfl, fun symbol member => ?_⟩
      obtain ⟨tableau, unbounded, rfl⟩ := escapes
      exact uninstalls.not_mentions sound.solver encodes sameKind unbounded.1 soundAfter rfl member

/-- A wish for more than is allowed: its marker has a column, and its other error symbol is basic
until the removal. -/
theorem remove_not_mentions_unmet :
    let session : Session ℚ := (start (.withConfig .standard) .log).replay 8
      [.newVariable none 0, .make (.equal (.ofVariable ⟨1⟩) (.ofConstant 10) .required),
        .make (.equal (.ofVariable ⟨1⟩) (.ofConstant 30) .weak), .add 0, .add 1]
    ∃ entry after, session.solver.installed.get? 1 = some entry ∧
      entry.symbols = [⟨3, .slack⟩, ⟨4, .slack⟩] ∧
      session.solver.tableau.hasColumn ⟨3, .slack⟩ = true ∧
      session.solver.tableau.isBasic ⟨4, .slack⟩ = true ∧
      (Solver.remove entry.constraint 8 session.solver).state? = some after ∧
      ∀ symbol ∈ entry.symbols, ¬ after.Mentions symbol := by
  intro session
  have reachable : session.Reachable :=
    (Runs.fresh _ _).replay ⟨trivial, Demand.external_lowerBound ⟨1⟩ 10 .required,
      Demand.external_lowerBound ⟨1⟩ 30 .weak, trivial, trivial, trivial⟩
  have isThere : (session.solver.installed.get? 1).map (fun entry =>
      (entry.constraint.key, entry.symbols)) = some (1, [⟨3, .slack⟩, ⟨4, .slack⟩]) := by
    decide +kernel
  have ends : ((session.solver.installed.get? 1).bind fun entry =>
      (Solver.remove entry.constraint 8 session.solver).state?).isSome = true := by
    decide +kernel
  obtain ⟨entry, found, is⟩ := Option.map_eq_some_iff.mp isThere
  obtain ⟨sameKey, symbols⟩ := Prod.mk.inj is
  rw [found, Option.bind_some] at ends
  obtain ⟨after, ended⟩ := Option.isSome_iff_exists.mp ends
  have meets : (Solver.remove entry.constraint 8 session.solver).Meets _ _ :=
    remove_not_mentions reachable (sameKey.symm ▸ found) rfl
  exact ⟨entry, after, found, symbols, by decide +kernel, by decide +kernel, ended,
    (meets.imp (fun _ _ clean => clean) fun _ _ failed => failed.2).of_state? ended⟩

end Session

end SoftSimplex
