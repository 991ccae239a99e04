import SoftSimplex.Proofs.Phases
import SoftSimplex.Proofs.Upkeep

/-!
The queue of rows below zero. Whatever changes a row checks its constant afterwards, so that no
restricted row falls below zero without being queued; a repair takes one row off the queue. Nothing
is asked of the numbers.
-/

namespace SoftSimplex

namespace Tableau

variable {K : Type} [Zero K] [LT K] {before middle after : Tableau K} {free : Symbol → Prop}

def dequeued (tableau : Tableau K) : Tableau K :=
  { tableau with infeasible := tableau.infeasible.dropLast }

/-- Restricted rows below zero are queued, those of free symbols apart. -/
def FlaggedBut (tableau : Tableau K) (free : Symbol → Prop) : Prop :=
  ∀ basic row, tableau.row? basic = some row → ¬ free basic → basic.isRestricted = true →
    row.constant < 0 → basic ∈ tableau.infeasible.keys

abbrev Flagged (tableau : Tableau K) : Prop := tableau.FlaggedBut fun _ => False

structure Checks (before : Tableau K) (basic : Symbol) (after : Tableau K) : Prop where
  others : ∀ other, other ≠ basic → after.row? other = before.row? other
  queued : before.infeasible.keys ⊆ after.infeasible.keys
  checked : ∀ row, after.row? basic = some row → basic.isRestricted = true → row.constant < 0 →
    basic ∈ after.infeasible.keys

theorem FlaggedBut.check (flagged : before.FlaggedBut free) {basic : Symbol}
    (checks : before.Checks basic after) : after.FlaggedBut free := by
  intro other row found bound restricted negative
  by_cases same : other = basic
  · subst same
    exact checks.checked row found restricted negative
  · rw [checks.others other same] at found
    exact checks.queued (flagged other row found bound restricted negative)

theorem FlaggedBut.checkAll {change : Tableau K → Symbol → Tableau K}
    (checks : ∀ (current : Tableau K) basic, current.Checks basic (change current basic))
    (users : List Symbol)
    (flagged : before.FlaggedBut free) : (users.foldl change before).FlaggedBut free := by
  induction users generalizing before with
  | nil => exact flagged
  | cons user rest ih => exact ih (flagged.check (checks before user))

theorem FlaggedBut.of_same (flagged : before.FlaggedBut free) (rows : after.rows = before.rows)
    (infeasible : after.infeasible = before.infeasible) : after.FlaggedBut free := by
  intro basic row found
  rw [row?, rows] at found
  rw [infeasible]
  exact flagged basic row found

theorem FlaggedBut.flagged (flagged : before.FlaggedBut free)
    (settled : ∀ basic row, free basic → before.row? basic = some row → ¬ row.constant < 0) :
    before.Flagged := by
  intro basic row found _ restricted negative
  exact flagged basic row found (fun isFree => settled basic row isFree found negative) restricted
    negative

theorem Flagged.nonneg (flagged : before.Flagged) (empty : before.infeasible.lastKey? = none)
    {basic : Symbol} {row : Expression K} (found : before.row? basic = some row)
    (restricted : basic.isRestricted = true) : ¬ row.constant < 0 := by
  intro negative
  have member := flagged basic row found not_false restricted negative
  have nothing : before.infeasible.entries = [] := by
    simpa [Table.lastKey?] using empty
  simp [Table.keys, nothing] at member

theorem Flagged.dequeue (flagged : before.Flagged) {last : Symbol}
    (isLast : before.infeasible.lastKey? = some last) :
    before.dequeued.FlaggedBut (· = last) := by
  intro basic row found different restricted negative
  have member := flagged basic row found not_false restricted negative
  obtain ⟨entry, found, rfl⟩ := Option.map_eq_some_iff.mp isLast
  obtain ⟨front, shape⟩ := List.getLast?_eq_some_iff.mp found
  rw [Table.keys, shape, List.map_append, List.mem_append] at member
  rcases member with earlier | same
  · simpa [dequeued, Table.dropLast, Table.keys, shape] using earlier
  · exact absurd (by simpa using same) different

/-! Rows that come and go -/

theorem FlaggedBut.addRow (flagged : before.Flagged) (basic : Symbol) (row : Expression K) :
    (before.addRow basic row).FlaggedBut (· = basic) := by
  intro other found isRow different restricted negative
  have queue : (before.addRow basic row).infeasible = before.infeasible := by
    unfold Tableau.addRow
    dsimp only [setRow]
    split <;> exact (sameRows_foldl_noteInserted before basic row.symbols).infeasible
  rw [row?_addRow, if_neg (Ne.symm different)] at isRow
  rw [queue]
  exact flagged other found isRow not_false restricted negative

theorem FlaggedBut.removeRow {basic : Symbol} (flagged : before.FlaggedBut (· = basic)) :
    (before.removeRow basic).Flagged := by
  intro other row found _ restricted negative
  obtain ⟨different, was⟩ := (row?_removeRow_eq_some_iff ..).mp found
  have member := flagged other row was (Ne.symm different) restricted negative
  unfold Tableau.removeRow
  split
  · exact member
  · rename_i gone _
    dsimp only
    rw [(sameRows_foldl_noteRemoved
      { before with rows := before.rows.swapErase basic } basic gone.symbols).infeasible]
    exact (Table.mem_keys_swapErase _ _ _).mpr ⟨Ne.symm different, member⟩

/-! Constants that change -/

section Changes

variable [DecidableLT K]

omit [DecidableLT K] in
theorem checks_refl {basic : Symbol} (missing : before.row? basic = none) :
    before.Checks basic before :=
  ⟨fun _ _ => rfl, fun _ member => member, fun row found => by rw [missing] at found; cases found⟩

theorem checks_checkFeasible {basic : Symbol} {next : Expression K}
    (others : ∀ other, other ≠ basic → middle.row? other = before.row? other)
    (queue : middle.infeasible = before.infeasible) (found : middle.row? basic = some next) :
    before.Checks basic (middle.checkFeasible basic next.constant) := by
  constructor
  · intro other different
    rw [row?_checkFeasible, others other different]
  · rw [← queue]
    unfold checkFeasible
    split
    · exact fun symbol member => (Table.mem_keys_insert _ _ _ _).mpr (Or.inr member)
    · exact fun symbol member => member
  · intro row isRow restricted negative
    rw [row?_checkFeasible, found] at isRow
    cases isRow
    rw [checkFeasible, if_pos ⟨restricted, negative⟩]
    exact (Table.mem_keys_insert _ _ _ _).mpr (Or.inl rfl)

theorem checks_setRow {basic : Symbol} {next : Expression K}
    (same : SameRows (before.setRow basic next) middle) :
    before.Checks basic (middle.checkFeasible basic next.constant) := by
  refine checks_checkFeasible ?_ same.infeasible ?_
  · intro other different
    rw [same.row?, row?_setRow, if_neg (Ne.symm different)]
  · rw [same.row?, row?_setRow, if_pos rfl]

variable [Add K]

theorem checks_shiftError (tableau : Tableau K) (basic : Symbol) (row : Expression K) (amount : K) :
    tableau.Checks basic (tableau.shiftError basic row amount) := by
  unfold shiftError
  dsimp only
  have others : ∀ other, other ≠ basic →
      (tableau.setRow basic (row.increaseConstant amount)).row? other = tableau.row? other := by
    intro other different
    rw [row?_setRow, if_neg (Ne.symm different)]
  split
  · exact ⟨others, fun symbol member => (Table.mem_keys_insert _ _ _ _).mpr (Or.inr member),
      fun _ _ _ _ => (Table.mem_keys_insert _ _ _ _).mpr (Or.inl rfl)⟩
  · rename_i notBelow
    refine ⟨others, fun _ member => member, ?_⟩
    intro next found _ below
    rw [row?_setRow, if_pos rfl] at found
    cases found
    exact absurd below notBelow

variable [Mul K]

theorem checks_shiftUse (minus : Symbol) (delta : K) (tableau : Tableau K) (basic : Symbol) :
    tableau.Checks basic (tableau.shiftUse minus delta basic) := by
  unfold shiftUse
  split
  · rename_i missing
    exact checks_refl missing
  · exact checks_setRow (SameRows.refl _)

theorem FlaggedBut.shiftTarget [Neg K] [Sub K] (flagged : before.FlaggedBut free)
    (plus minus : Symbol) (delta : K) : (before.shiftTarget plus minus delta).FlaggedBut free := by
  unfold Tableau.shiftTarget
  split
  · exact flagged.check (checks_shiftError ..)
  · exact flagged.check (checks_shiftError ..)
  · exact flagged.checkAll (checks_shiftUse minus delta) _

variable [Scalar K]

theorem checks_substituteInRow (symbol : Symbol) (replacement : Expression K)
    (tableau : Tableau K) (basic : Symbol) :
    tableau.Checks basic (tableau.substituteInRow symbol replacement basic) := by
  unfold substituteInRow
  split
  · rename_i missing
    exact checks_refl missing
  · rename_i row found
    split
    · exact checks_checkFeasible (fun _ _ => rfl) rfl found
    · exact checks_setRow (sameRows_noteReport _ _ _)

theorem FlaggedBut.eliminate (flagged : before.FlaggedBut free) (symbol : Symbol)
    (replacement : Expression K) : (before.eliminate symbol replacement).FlaggedBut free := by
  have opened : ({ before with columns := before.columns.swapErase symbol } : Tableau K).FlaggedBut
      free := flagged.of_same rfl rfl
  have swept := opened.checkAll (checks_substituteInRow symbol replacement) (before.column symbol)
  unfold Tableau.eliminate
  dsimp only
  split
  · exact swept.of_same rfl rfl
  · exact swept

theorem pivot_flagged [One K] [Neg K] [Div K] {entering leaving : Symbol} {limit : Nat} :
    (pivot entering leaving limit before).Meets
      (fun _ after => before.FlaggedBut (· = leaving) → after.FlaggedBut (· = entering))
      (fun _ _ => True) := by
  refine pivot_reaches.imp ?_ fun _ _ _ => trivial
  rintro _ _ ⟨solved, rfl⟩ flagged
  exact FlaggedBut.addRow (flagged.removeRow.eliminate entering solved) _ _

end Changes

/-! Repairing -/

section Repairing

variable [One K] [Add K] [Neg K] [Mul K] [Div K] [DecidableLT K] [LE K] [DecidableLE K] [Scalar K]
  {objective : Symbol} {limit : Nat}

omit [Zero K] [LT K] [One K] [Add K] [Neg K] [Mul K] [Div K] [DecidableLT K] [LE K] [DecidableLE K]
  [Scalar K] in
theorem indexed_dequeued (indexed : before.Indexed) : before.dequeued.Indexed :=
  { indexed with
    queued := by
      intro symbol member
      refine indexed.queued symbol ?_
      exact ((List.dropLast_sublist before.infeasible.entries).map Prod.fst).subset member }

inductive Repairs (objective : Symbol) (before : Tableau K) : Tableau K → Prop
  | drop {last : Symbol} (isLast : before.infeasible.lastKey? = some last)
      (settled : ∀ row, before.row? last = some row → 0 ≤ row.constant) :
      Repairs objective before before.dequeued
  | pivot {costs : Expression K} {entering leaving : Symbol} {row solved : Expression K}
      {after : Tableau K} (isLast : before.infeasible.lastKey? = some leaving)
      (objectiveRow : before.row? objective = some costs) (negative : ¬ 0 ≤ row.constant)
      (chosen : repairingSymbol? costs row = some entering)
      (pivots : before.dequeued.Pivots entering leaving row solved after)
      (flagged : before.Flagged → after.FlaggedBut (· = entering)) :
      Repairs objective before after

def LastUnrepairable (objective : Symbol) (before : Tableau K) : Prop :=
  ∃ costs leaving row, before.infeasible.lastKey? = some leaving ∧
    before.row? leaving = some row ∧ before.row? objective = some costs ∧ ¬ 0 ≤ row.constant ∧
      repairingSymbol? costs row = none

omit [DecidableLE K] in
theorem Repairs.indexed (repairs : before.Repairs objective after) (indexed : before.Indexed) :
    after.Indexed := by
  cases repairs with
  | drop _ _ => exact indexed_dequeued indexed
  | pivot _ _ _ _ pivots _ => exact pivots.indexed

omit [DecidableLE K] in
theorem Repairs.fits {bound : Nat} (repairs : before.Repairs .mainObjective after)
    (fits : before.Fits bound) : after.Fits bound := by
  have dequeued : before.dequeued.Fits bound :=
    ⟨indexed_dequeued fits.indexed, fits.objective, fits.within⟩
  cases repairs with
  | drop _ _ => exact dequeued
  | pivot isLast _ _ _ pivots _ =>
    refine dequeued.pivot pivots ?_
    rintro rfl
    exact absurd (fits.indexed.queued _ (Table.mem_keys_of_lastKey? isLast)).1 nofun

theorem repairLast_meets (indexed : before.Indexed) :
    (repairLast objective limit before).Meets
      (fun again after => if again then before.Repairs objective after
        else after = before ∧ before.infeasible.lastKey? = none)
      (fun fault after => after = before.dequeued ∧
        (fault = .internal .objectiveMissing ∧ before.row? objective = none ∨
          fault = .internal .repairStuck ∧ before.LastUnrepairable objective)) := by
  unfold repairLast
  rw [Action.meets_bind, Action.meets_get]
  cases isLast : before.infeasible.lastKey? with
  | none => exact ⟨rfl, rfl⟩
  | some leaving =>
    dsimp only
    rw [Action.meets_bind, Action.meets_modify]
    cases found : before.row? leaving with
    | none => exact .drop isLast fun row isRow => by rw [found] at isRow; cases isRow
    | some row =>
      dsimp only
      split
      · rename_i settled
        exact .drop isLast fun other isRow => by rw [found] at isRow; cases isRow; exact settled
      · rename_i negative
        cases objectiveRow : before.row? objective with
        | none => exact ⟨rfl, Or.inl ⟨rfl, rfl⟩⟩
        | some costs =>
          dsimp only
          cases chosen : repairingSymbol? costs row with
          | none =>
            exact ⟨rfl, Or.inr ⟨rfl, costs, leaving, row, isLast, found, objectiveRow, negative,
              chosen⟩⟩
          | some entering =>
            have occurs : before.dequeued.Occurs entering leaving :=
              ⟨row, found, (repairing_mem chosen).1⟩
            refine (Action.meets_bind _ _ _).mpr
              (((pivot_meets (indexed_dequeued indexed) occurs).and pivot_flagged).imp ?_ ?_)
            · rintro _ reached ⟨⟨other, solved, pivots⟩, kept⟩
              have same : some other = some row := pivots.leaves.symm.trans found
              cases same
              exact .pivot isLast objectiveRow negative chosen pivots fun flagged =>
                kept (flagged.dequeue isLast)
            · exact fun _ _ impossible => impossible.1.elim

theorem repair_meets (indexed : before.Indexed) :
    (repair objective limit before).Meets
      (fun _ after => Relation.ReflTransGen (Repairs objective) before after ∧
        after.infeasible.lastKey? = none)
      (fun fault after => ∃ reached, Relation.ReflTransGen (Repairs objective) before reached ∧
        after = reached.dequeued ∧
        (fault = .internal .objectiveMissing ∨ fault = .internal .repairStuck)) := by
  refine Action.meets_loop
    (fun current => Relation.ReflTransGen (Repairs objective) before current ∧ current.Indexed) ?_
    ⟨.refl, indexed⟩
  rintro current ⟨repaired, currentIndexed⟩
  refine (repairLast_meets currentIndexed).imp ?_ ?_
  · intro again reached next
    cases again with
    | true => exact ⟨repaired.tail next, Repairs.indexed next currentIndexed⟩
    | false =>
      obtain ⟨rfl, empty⟩ := next
      exact ⟨repaired, empty⟩
  · rintro fault reached ⟨rfl, cause⟩
    exact ⟨current, repaired, rfl, cause.imp And.left And.left⟩

end Repairing

end Tableau

end SoftSimplex
