import Mathlib.Data.List.Basic
import SoftSimplex.Proofs.Moves
import SoftSimplex.Proofs.Readiness

/-!
The lists of stays and edits beside the constraints. An addition grows each list by exactly what the
new constraint contributes, and a removal takes exactly that away, so the lists can always be read
off the constraints that are installed.
-/

namespace SoftSimplex

variable {K : Type}

theorem Demand.equality_of_paired {demand : Demand K}
    (paired : demand.isEdit = true ∨ demand.isStay = true) : demand.isInequality = false := by
  unfold isEdit isStay at paired
  unfold isInequality
  cases kind : demand.kind <;> simp [kind] at paired ⊢

namespace Installed

def stayPair? (entry : Installed K) : Option (Symbol × Symbol) :=
  if entry.constraint.isStay = true ∧ entry.constraint.isRequired = false then
    some (entry.marker, entry.error)
  else none

theorem stayPair?_eq_some_iff (entry : Installed K) (pair : Symbol × Symbol) :
    entry.stayPair? = some pair ↔ entry.constraint.isStay = true ∧
      entry.constraint.isRequired = false ∧ (entry.marker, entry.error) = pair := by
  unfold stayPair?
  split
  · rename_i isStay
    simp [isStay]
  · rename_i other
    constructor
    · exact nofun
    · exact fun ⟨isStay, soft, _⟩ => (other ⟨isStay, soft⟩).elim

end Installed

namespace Solver

variable {before after : Solver K} {constraint : Constraint K}

/-- The stays are those of the installed constraints, in their order, and the edits are registered
one for one. -/
structure Tallies (solver : Solver K) : Prop where
  stays : solver.stays = solver.installed.values.filterMap (·.stayPair?)
  registered : ∀ key entry unknown, solver.installed.get? key = some entry →
    entry.constraint.kind = .edit unknown →
    ∃ info, solver.edits.get? unknown = some info ∧ info.constraint = entry.constraint
  named : ∀ unknown info, solver.edits.get? unknown = some info →
    ∃ entry, solver.installed.get? info.constraint.key = some entry ∧
      entry.constraint = info.constraint

theorem Tallies.of_same (tallies : before.Tallies) (installed : after.installed = before.installed)
    (stays : after.stays = before.stays) (edits : after.edits = before.edits) : after.Tallies := by
  constructor
  · rw [stays, installed, tallies.stays]
  · rw [installed, edits]
    exact tallies.registered
  · rw [installed, edits]
    exact tallies.named

variable [Zero K] [One K] [Add K] [Neg K] [Mul K] [Div K] [LT K] [DecidableLT K] [Scalar K]

/-! Coming in -/

section Installing

variable {placement : Placement K} {tableau : Tableau K} {nextId : Nat}

def entryFor (solver : Solver K) (constraint : Constraint K) : Installed K :=
  ⟨constraint, (solver.equationFor constraint).marker⟩

omit [Div K] in
theorem pair_entryFor (soft : constraint.isRequired = false)
    (paired : constraint.isEdit = true ∨ constraint.isStay = true) :
    (before.equationFor constraint).pair =
      some ((before.entryFor constraint).marker, (before.entryFor constraint).error) := by
  have made := before.equationFor_made constraint
  have isPair := made.pair
  rw [if_pos ⟨soft, Demand.equality_of_paired paired, paired⟩] at isPair
  rw [isPair, (Ledger.pairs_of_madeFor made isPair).2]
  rfl

variable (installs : before.Installs constraint placement tableau nextId after)

include installs

theorem Installs.installed_values :
    after.installed.values = before.installed.values ++ [before.entryFor constraint] := by
  rw [installs.result, installed_record, Table.values,
    Table.entries_insert_of_missing installs.fresh, List.map_append]
  rfl

theorem Installs.stays_eq :
    after.stays = before.stays ++ (before.entryFor constraint).stayPair?.toList := by
  have none_of : (constraint.isStay = true → constraint.isRequired = false → False) →
      (before.entryFor constraint).stayPair? = none := fun never =>
    if_neg fun soft => never soft.1 soft.2
  rw [installs.result]
  unfold record
  dsimp only
  split
  · rename_i unknown pair isStay paired
    have soft := (Ledger.pairs_of_madeFor (before.equationFor_made constraint) paired).1
    have stay : constraint.isStay = true := by simp [Demand.isStay, isStay]
    have same := (pair_entryFor soft (Or.inr stay)).symm.trans paired
    rw [((Installed.stayPair?_eq_some_iff _ _).mpr ⟨stay, soft, Option.some.inj same⟩)]
    rfl
  · rename_i isEdit _
    rw [none_of (by simp [Demand.isStay, isEdit])]
    exact (List.append_nil _).symm
  · rename_i notStay _
    rw [none_of ?_]
    · exact (List.append_nil _).symm
    · intro stay soft
      cases kind : constraint.kind with
      | stay unknown => exact notStay unknown _ kind (pair_entryFor soft (Or.inr stay))
      | _ => simp [Demand.isStay, kind] at stay

theorem Installs.edits_eq {unknown : Variable} (isEdit : constraint.kind = .edit unknown) :
    before.edits.get? unknown = none ∧ after.edits = before.edits.insert unknown
      ⟨constraint, (before.entryFor constraint).marker, (before.entryFor constraint).error,
        constraint.expression.constant, before.edits.size⟩ := by
  obtain ⟨soft, free⟩ := edit_of_unobjected isEdit installs.unobjected
  refine ⟨by simpa [Table.contains] using free, ?_⟩
  have paired : (before.equationFor constraint).pair = _ :=
    pair_entryFor soft (Or.inl (show constraint.isEdit = true by simp [Demand.isEdit, isEdit]))
  rw [installs.result]
  unfold record
  simp only [isEdit, paired]

theorem Installs.edits_same (notEdit : ∀ unknown, constraint.kind ≠ .edit unknown) :
    after.edits = before.edits := by
  rw [installs.result]
  unfold record
  dsimp only
  split
  · rfl
  · rename_i isEdit _
    exact (notEdit _ isEdit).elim
  · rfl

theorem Installs.registers {unknown : Variable} (isEdit : constraint.kind = .edit unknown) :
    ∃ info, after.edits.get? unknown = some info ∧ info.constraint = constraint ∧
      info.target = constraint.expression.constant :=
  ⟨_, by rw [(installs.edits_eq isEdit).2, Table.get?_insert, if_pos rfl], rfl, rfl⟩

theorem Installs.edits_kept {other : Variable} {info : EditInfo K}
    (registered : before.edits.get? other = some info) : after.edits.get? other = some info := by
  by_cases isEdit : ∃ unknown, constraint.kind = .edit unknown
  · obtain ⟨unknown, isEdit⟩ := isEdit
    obtain ⟨free, grown⟩ := installs.edits_eq isEdit
    rw [grown, Table.get?_insert, if_neg, registered]
    rintro rfl
    rw [free] at registered
    cases registered
  · rw [installs.edits_same (not_exists.mp isEdit), registered]

theorem Tallies.install (tallies : before.Tallies) : after.Tallies := by
  have old : ∀ key entry, before.installed.get? key = some entry →
      after.installed.get? key = some entry := by
    intro key entry found
    rw [installs.get?_installed, if_neg, found]
    rintro rfl
    rw [installs.fresh] at found
    cases found
  constructor
  · rw [installs.stays_eq, tallies.stays, installs.installed_values, List.filterMap_append]
    cases contributes : (before.entryFor constraint).stayPair? <;> simp [contributes]
  · intro key entry unknown found isEdit
    rw [installs.get?_installed] at found
    split at found
    · cases found
      obtain ⟨info, registered, same, _⟩ := installs.registers isEdit
      exact ⟨info, registered, same⟩
    · obtain ⟨info, registered, same⟩ := tallies.registered key entry unknown found isEdit
      exact ⟨info, installs.edits_kept registered, same⟩
  · intro unknown info registered
    rw [installs.result] at registered
    rcases mem_edits_record _ _ _ registered with earlier | ⟨_, same, _⟩
    · obtain ⟨entry, found, sameConstraint⟩ := tallies.named unknown info earlier
      exact ⟨entry, old _ _ found, sameConstraint⟩
    · refine ⟨before.entryFor constraint, ?_, same.symm⟩
      rw [same, installs.get?_installed, if_pos rfl]
      rfl

end Installing

/-! Going out -/

section Uninstalling

variable {entry : Installed K} {dropped : Tableau K}
  (uninstalls : before.Uninstalls constraint entry dropped after)

include uninstalls

theorem Uninstalls.stays_same (kept : entry.stayPair? = none) (sound : before.Sound)
    (sameKind : entry.constraint.kind = constraint.kind) : after.stays = before.stays := by
  have ledger : after.stays = _ := congrArg Ledger.stays uninstalls.ledger_after
  have enters := sound.books.entries constraint.key entry uninstalls.found
  rw [ledger]
  unfold Ledger.cleared
  dsimp only
  split
  · rename_i unknown cost isStay isCharge
    have soft := (enters.charge_symbols isCharge).1
    have stay : entry.constraint.isStay = true := by simp [Demand.isStay, sameKind, isStay]
    rw [(entry.stayPair?_eq_some_iff _).mpr ⟨stay, soft, rfl⟩] at kept
    cases kept
  · rfl
  · rfl

theorem Uninstalls.stays_eq {pair : Symbol × Symbol} (contributes : entry.stayPair? = some pair)
    (sound : before.Sound) (sameKind : entry.constraint.kind = constraint.kind) :
    after.stays = before.stays.filter fun other =>
      other.1 ∉ entry.symbols ∧ other.2 ∉ entry.symbols := by
  obtain ⟨stay, soft, _⟩ := (entry.stayPair?_eq_some_iff pair).mp contributes
  have enters := sound.books.entries constraint.key entry uninstalls.found
  have ledger : after.stays = _ := congrArg Ledger.stays uninstalls.ledger_after
  have isCharge : before.charges.get? constraint.key = _ := enters.soft_charge soft
  rw [Demand.equality_of_paired (Or.inr stay), if_neg Bool.false_ne_true,
    ← enters.marker_of_soft soft] at isCharge
  rw [ledger, isCharge]
  have swapped : ∀ symbol, [entry.error, entry.marker].contains symbol =
      decide (symbol ∈ entry.symbols) := by
    intro symbol
    simp [Installed.symbols, soft, Bool.or_comm]
  cases kind : constraint.kind with
  | stay unknown =>
    unfold Ledger.cleared
    simp only [kind, swapped, Bool.decide_and, decide_not]
    rfl
  | _ => simp [Demand.isStay, sameKind, kind] at stay

theorem Uninstalls.edits_kept {unknown : Variable} {info : EditInfo K}
    (registered : before.edits.get? unknown = some info)
    (other : info.constraint.key ≠ constraint.key) : after.edits.get? unknown = some info := by
  have ledger : after.edits = _ := congrArg Ledger.edits uninstalls.ledger_after
  rw [ledger]
  unfold Ledger.cleared
  split
  · exact registered
  · rename_i edited _
    change (Ledger.editsWithout _ constraint edited).get? unknown = some info
    unfold Ledger.editsWithout
    split
    · exact registered
    · rename_i found present
      split
      · rename_i same
        rw [Table.get?_erase, if_neg]
        · exact registered
        · rintro rfl
          have isInfo : some found = some info := present.symm.trans registered
          cases isInfo
          exact other (by simpa [BEq.beq] using same)
      · exact registered
  · exact registered

theorem Uninstalls.edits_eq {unknown : Variable} {info : EditInfo K}
    (registered : before.edits.get? unknown = some info)
    (isEdit : constraint.kind = .edit unknown) (same : info.constraint.key = constraint.key) :
    after.edits = before.edits.erase unknown := by
  have ledger : after.edits = _ := congrArg Ledger.edits uninstalls.ledger_after
  have erased : before.ledger.editsWithout constraint unknown = before.edits.erase unknown := by
    unfold Ledger.editsWithout
    rw [show before.ledger.edits.get? unknown = some info from registered]
    exact if_pos (by simpa [BEq.beq] using same)
  rw [ledger]
  unfold Ledger.cleared
  simp only [isEdit]
  exact erased

theorem Uninstalls.stayPairs_eq : after.installed.values.filterMap (·.stayPair?) =
    before.installed.entries.filterMap fun item =>
      if item.1 ≠ constraint.key then item.2.stayPair? else none := by
  rw [uninstalls.installed_after, Table.values, Table.entries_erase, List.filterMap_map,
    List.filterMap_filter]
  refine List.filterMap_congr fun item _ => ?_
  simp

theorem Uninstalls.eq_of_key {item : Nat × Installed K} (member : item ∈ before.installed.entries)
    (own : item.1 = constraint.key) : item.2 = entry := by
  have present := (before.installed.mem_entries_iff item.1 item.2).mp member
  rw [own, uninstalls.found] at present
  exact (Option.some.inj present).symm

theorem Uninstalls.pair_apart (sound : before.Sound) {item : Nat × Installed K}
    (member : item ∈ before.installed.entries) (other : item.1 ≠ constraint.key)
    {pair : Symbol × Symbol} (contributes : item.2.stayPair? = some pair) :
    pair.1 ∉ entry.symbols ∧ pair.2 ∉ entry.symbols := by
  have present := (before.installed.mem_entries_iff item.1 item.2).mp member
  have apart : ∀ symbol ∈ item.2.symbols, symbol ∉ entry.symbols :=
    fun symbol inItem inEntry => other (sound.books.apart item.1 constraint.key item.2 entry
      present uninstalls.found symbol inItem inEntry)
  obtain ⟨_, soft, rfl⟩ := (item.2.stayPair?_eq_some_iff pair).mp contributes
  exact ⟨apart _ item.2.marker_mem_symbols, apart _ (Installed.error_mem_symbols soft)⟩

theorem Tallies.stays_of_uninstalls (tallies : before.Tallies) (sound : before.Sound)
    (sameKind : entry.constraint.kind = constraint.kind) :
    after.stays = after.installed.values.filterMap (·.stayPair?) := by
  rw [uninstalls.stayPairs_eq]
  cases contributes : entry.stayPair? with
  | none =>
    rw [uninstalls.stays_same contributes sound sameKind, tallies.stays, Table.values,
      List.filterMap_map]
    refine List.filterMap_congr fun item member => ?_
    by_cases own : item.1 = constraint.key
    · simp [own, uninstalls.eq_of_key member own, contributes]
    · simp [own]
  | some pair =>
    obtain ⟨_, _, samePair⟩ := (entry.stayPair?_eq_some_iff pair).mp contributes
    rw [uninstalls.stays_eq contributes sound sameKind, tallies.stays, Table.values,
      List.filterMap_map, List.filter_filterMap]
    refine List.filterMap_congr fun item member => ?_
    by_cases own : item.1 = constraint.key
    · have leaves : pair.1 ∈ entry.symbols := samePair ▸ entry.marker_mem_symbols
      simp [own, uninstalls.eq_of_key member own, contributes, leaves, Option.filter]
    · cases others : item.2.stayPair? with
      | none => simp [others]
      | some other =>
        have stays := uninstalls.pair_apart sound member own others
        simp [others, own, stays, Option.filter]

theorem Tallies.uninstall (tallies : before.Tallies) (sound : before.Sound)
    (sameKind : entry.constraint.kind = constraint.kind) : after.Tallies := by
  refine ⟨tallies.stays_of_uninstalls uninstalls sound sameKind, ?_, ?_⟩
  · intro key other unknown still isEdit
    obtain ⟨different, was⟩ := uninstalls.get?_installed_iff.mp still
    obtain ⟨info, registered, same⟩ := tallies.registered key other unknown was isEdit
    refine ⟨info, uninstalls.edits_kept registered ?_, same⟩
    rw [same, (sound.books.entries key other was).sameKey]
    exact fun sameKey => different sameKey.symm
  · intro unknown info present
    have ledger : after.edits = _ := congrArg Ledger.edits uninstalls.ledger_after
    rw [ledger] at present
    obtain ⟨registered, notItsOwn⟩ := Ledger.mem_edits_cleared present
    obtain ⟨other, found, same⟩ := tallies.named unknown info registered
    refine ⟨other, uninstalls.get?_installed_iff.mpr ⟨fun sameKey => ?_, found⟩, same⟩
    rw [← sameKey, uninstalls.found] at found
    cases found
    refine notItsOwn ?_ sameKey.symm
    rw [← sameKind, same, (sound.books.edits unknown info registered).1]

end Uninstalling

/-! Every change -/

omit [One K] [Div K] [Scalar K] in
theorem Tallies.retargeted [Sub K] (tallies : before.Tallies) {unknown : Variable}
    {info : EditInfo K} (registered : before.edits.get? unknown = some info) (target : K) :
    (before.retargeted unknown info target).Tallies := by
  have edits : ∀ other, (before.retargeted unknown info target).edits.get? other =
      if unknown = other then some { info with target } else before.edits.get? other :=
    fun other => Table.get?_insert ..
  constructor
  · exact tallies.stays
  · intro key entry other found isEdit
    obtain ⟨earlier, present, same⟩ := tallies.registered key entry other found isEdit
    rw [edits]
    split
    · rename_i sameVariable
      rw [sameVariable, present] at registered
      cases registered
      exact ⟨_, rfl, same⟩
    · exact ⟨earlier, present, same⟩
  · intro other changed present
    rw [edits] at present
    split at present
    · cases present
      exact tallies.named unknown info registered
    · exact tallies.named other changed present

theorem Tallies.move [Sub K] {given : Constraint K → Prop} (tallies : before.Tallies)
    (sound : before.Sound) (move : Move given before after) : after.Tallies := by
  cases move with
  | tidy tidies => exact tallies.of_same tidies.installed tidies.stays tidies.edits
  | requeue _ => exact tallies.of_same rfl rfl rfl
  | pivot _ _ => exact tallies.of_same rfl rfl rfl
  | settle => exact tallies.of_same rfl rfl rfl
  | suggest registered target => exact tallies.retargeted registered target
  | install _ _ _ installs => exact tallies.install installs
  | uninstall sameKind uninstalls => exact tallies.uninstall uninstalls sound sameKind

end Solver

end SoftSimplex
