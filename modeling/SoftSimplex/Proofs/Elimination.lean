import SoftSimplex.Proofs.Outcome
import SoftSimplex.Proofs.Rows
import SoftSimplex.Solver.Install

/-!
Putting an expression in the place of a symbol. A sweep over the column of the symbol changes each
row in which it occurs; pivots and the direct way of adding an equation are built from it.
-/

namespace SoftSimplex

namespace Tableau

variable {K : Type} [Add K] [Mul K] [Scalar K]

section Sweeping

variable [Zero K] [LT K] [DecidableLT K] {tableau : Tableau K} {symbol : Symbol}
  {replacement : Expression K}

/-- What holds while a symbol is replaced in one row after the other: rows that are still waiting
may mention it although its column is gone. -/
structure Sweeping (tableau : Tableau K) (symbol : Symbol) (waiting : List Symbol) : Prop where
  noColumn : tableau.hasColumn symbol = false
  swept : ∀ basic, basic ∉ waiting → ∀ other,
    basic ∈ tableau.column other ↔ tableau.Occurs other basic
  unswept : ∀ basic, basic ∈ waiting → ∀ other,
    basic ∈ tableau.column other ↔ other ≠ symbol ∧ tableau.Occurs other basic
  parametric : ∀ basic, tableau.isBasic basic = true → tableau.hasColumn basic = false
  listsBasic : ∀ other, tableau.ListsBasic other
  listsParametric : ∀ other, other ≠ symbol ∨ symbol.isExternal = false →
    tableau.ListsParametric other
  queued : ∀ other ∈ tableau.infeasible.keys,
    other.isRestricted = true ∧ tableau.isBasic other = true

omit [Add K] [Mul K] [Scalar K] in
theorem row?_checkFeasible (tableau : Tableau K) (basic other : Symbol) (constant : K) :
    (tableau.checkFeasible basic constant).row? other = tableau.row? other := by
  unfold checkFeasible
  split <;> rfl

theorem row?_substituteInRow (tableau : Tableau K) (symbol : Symbol) (replacement : Expression K)
    (basic other : Symbol) :
    (tableau.substituteInRow symbol replacement basic).row? other =
      if basic = other then (tableau.row? basic).map (·.substitute symbol replacement)
      else tableau.row? other := by
  unfold substituteInRow
  cases found : tableau.row? basic with
  | none =>
    by_cases same : basic = other
    · simp [← same, found]
    · simp [same]
  | some row =>
    simp only [Option.map_some, Expression.substitute]
    cases row.substituteReporting? symbol replacement with
    | none =>
      by_cases same : basic = other
      · simp [← same, found, row?_checkFeasible]
      · simp [same, row?_checkFeasible]
    | some result =>
      simp only [row?_checkFeasible, (sameRows_noteReport _ _ _).row?, row?_setRow,
        Option.map_some, Option.getD_some]

theorem isBasic_substituteInRow (tableau : Tableau K) (symbol : Symbol)
    (replacement : Expression K) (basic other : Symbol) :
    (tableau.substituteInRow symbol replacement basic).isBasic other = tableau.isBasic other := by
  rw [Bool.eq_iff_iff, isBasic_iff, isBasic_iff, row?_substituteInRow]
  by_cases same : basic = other
  · subst same
    cases tableau.row? basic <;> simp
  · simp [same]

omit [Zero K] [LT K] [DecidableLT K] [Add K] [Mul K] [Scalar K] in
theorem Sweeping.skip {basic : Symbol} {rest : List Symbol}
    (sweeping : tableau.Sweeping symbol (basic :: rest))
    (missing : ¬ tableau.Occurs symbol basic) : tableau.Sweeping symbol rest :=
  { sweeping with
    swept := by
      intro user notWaiting other
      by_cases same : user = basic
      · subst same
        rw [sweeping.unswept user List.mem_cons_self other]
        refine ⟨And.right, fun occurs => ⟨?_, occurs⟩⟩
        rintro rfl
        exact missing occurs
      · exact sweeping.swept user (by simp [same, notWaiting]) other
    unswept := fun user waiting => sweeping.unswept user (List.mem_cons_of_mem _ waiting) }

omit [Add K] [Mul K] [Scalar K] in
theorem Sweeping.checkFeasible {rest : List Symbol} (sweeping : tableau.Sweeping symbol rest)
    {basic : Symbol} (isBasic : tableau.isBasic basic = true) (constant : K) :
    (tableau.checkFeasible basic constant).Sweeping symbol rest := by
  unfold Tableau.checkFeasible
  split
  · rename_i negative
    refine { sweeping with queued := ?_ }
    intro other member
    rcases (Table.mem_keys_insert _ _ _ _).mp member with same | before
    · exact ⟨same ▸ negative.1, same ▸ isBasic⟩
    · exact sweeping.queued other before
  · exact sweeping

omit [Zero K] [LT K] [DecidableLT K] [Add K] [Mul K] [Scalar K] in
theorem Sweeping.replaceRow {after : Tableau K} {basic : Symbol} {rest : List Symbol}
    {row next : Expression K} (sweeping : tableau.Sweeping symbol (basic :: rest))
    (notLater : basic ∉ rest) (found : tableau.row? basic = some row)
    (same : SameRows (tableau.setRow basic next) after)
    (agrees : ∀ other, basic ∈ after.column other ↔ other ∈ next.symbols)
    (others : ∀ other user, user ≠ basic →
      (user ∈ after.column other ↔ user ∈ tableau.column other))
    (columns : ∀ other, after.hasColumn other = true →
      tableau.hasColumn other = true ∨ other ≠ symbol ∧ tableau.isBasic other = false)
    (listed : ∀ other, tableau.ListsParametric other → after.ListsParametric other) :
    after.Sweeping symbol rest := by
  have bases := same.isBasic_of_setRow found
  constructor
  · rw [← Bool.not_eq_true]
    intro column
    rcases columns symbol column with before | added
    · rw [sweeping.noColumn] at before
      cases before
    · exact added.1 rfl
  · intro user notWaiting other
    rw [same.occurs_of_setRow]
    by_cases isHere : basic = user
    · subst isHere
      rw [agrees, if_pos rfl]
    · rw [others other user (Ne.symm isHere), if_neg isHere]
      exact sweeping.swept user (by simp [Ne.symm isHere, notWaiting]) other
  · intro user waiting other
    have different : user ≠ basic := fun isHere => notLater (isHere ▸ waiting)
    rw [same.occurs_of_setRow, others other user different, if_neg (Ne.symm different)]
    exact sweeping.unswept user (List.mem_cons_of_mem _ waiting) other
  · intro user isBasic
    rw [bases] at isBasic
    rw [← Bool.not_eq_true]
    intro column
    rcases columns user column with before | added
    · rw [sweeping.parametric user isBasic] at before
      cases before
    · rw [isBasic] at added
      cases added.2
  · intro other
    unfold ListsBasic
    rw [bases, same.basicExternals]
    exact sweeping.listsBasic other
  · exact fun other apart => listed other (sweeping.listsParametric other apart)
  · intro other member
    rw [same.infeasible] at member
    rw [bases]
    exact sweeping.queued other member

theorem Sweeping.substituteInRow {basic : Symbol} {rest : List Symbol}
    (sweeping : tableau.Sweeping symbol (basic :: rest)) (notLater : basic ∉ rest)
    (parametric : ∀ other ∈ replacement.symbols, other ≠ symbol ∧ tableau.isBasic other = false) :
    (tableau.substituteInRow symbol replacement basic).Sweeping symbol rest := by
  unfold Tableau.substituteInRow
  cases found : tableau.row? basic with
  | none => exact sweeping.skip (not_occurs_of_row? found symbol)
  | some row =>
    have basicHere := isBasic_of_row? found
    by_cases occurs : symbol ∈ row.symbols
    · obtain ⟨value, coefficient⟩ := (row.mem_symbols_iff symbol).mp occurs
      simp only [Expression.substituteReporting?, coefficient, Option.map_some]
      have same := sameRows_noteReport (tableau.setRow basic
        ((row.removeTerm symbol).addScaledReporting replacement value).1) basic
        ((row.removeTerm symbol).addScaledReporting replacement value).2
      have started : ∀ other, basic ∈ tableau.column other ↔
          other ∈ ((row.removeTerm symbol).increaseConstant
            (replacement.constant * value)).symbols := by
        intro other
        rw [sweeping.unswept basic List.mem_cons_self other, occurs_iff_of_row? found]
        exact (row.mem_symbols_removeTerm symbol other).symm
      refine Sweeping.checkFeasible (sweeping.replaceRow notLater found same ?_ ?_ ?_ ?_)
        ((same.isBasic_of_setRow found basic).trans basicHere) _
      · exact mem_column_noteReport _ _ started
      · intro other user different
        exact mem_column_noteReport_of_ne _ _ _ different
      · intro other column
        rcases hasColumn_of_noteReport _ _ column with reported | before
        · exact Or.inr (parametric other (mem_added_of_report reported))
        · exact Or.inl before
      · intro other listed
        exact listsParametric_noteReport _ _ _ listed
    · have absent := (row.not_mem_symbols_iff symbol).mp occurs
      simp only [Expression.substituteReporting?, absent, Option.map_none]
      refine Sweeping.checkFeasible (sweeping.skip ?_) basicHere row.constant
      rw [occurs_iff_of_row? found]
      exact occurs

variable (tableau symbol replacement)

theorem row?_foldl_substituteInRow {waiting : List Symbol} (distinct : waiting.Nodup)
    (other : Symbol) :
    (waiting.foldl (fun current basic => current.substituteInRow symbol replacement basic)
        tableau).row? other =
      if other ∈ waiting then (tableau.row? other).map (·.substitute symbol replacement)
      else tableau.row? other := by
  induction waiting generalizing tableau with
  | nil => simp
  | cons basic rest ih =>
    rw [List.nodup_cons] at distinct
    rw [List.foldl_cons, ih _ distinct.2, row?_substituteInRow]
    simp only [List.mem_cons]
    by_cases same : basic = other
    · subst same
      simp [distinct.1]
    · simp [same, Ne.symm same]

theorem hasColumn_of_substituteInRow {basic other : Symbol}
    (column : (tableau.substituteInRow symbol replacement basic).hasColumn other = true) :
    other ∈ replacement.symbols ∨ tableau.hasColumn other = true := by
  unfold substituteInRow at column
  cases found : tableau.row? basic with
  | none =>
    rw [found] at column
    exact Or.inr column
  | some row =>
    simp only [found, Expression.substituteReporting?] at column
    cases coefficient : row.terms.get? symbol with
    | none =>
      simp only [coefficient, Option.map_none, checkFeasible] at column
      split at column <;> exact Or.inr column
    | some value =>
      simp only [coefficient, Option.map_some, checkFeasible] at column
      have noted : other ∈ (((row.removeTerm symbol).addScaledReporting replacement
          value).2.map Prod.fst) ∨ tableau.hasColumn other = true := by
        split at column <;> exact hasColumn_of_noteReport (tableau.setRow basic _) basic column
      exact noted.imp_left mem_added_of_report

theorem hasColumn_of_foldl_substituteInRow {waiting : List Symbol} {other : Symbol}
    (column : (waiting.foldl (fun current basic => current.substituteInRow symbol replacement basic)
      tableau).hasColumn other = true) :
    other ∈ replacement.symbols ∨ tableau.hasColumn other = true := by
  induction waiting generalizing tableau with
  | nil => exact Or.inr column
  | cons basic rest ih =>
    rcases ih _ column with added | earlier
    · exact Or.inl added
    · exact hasColumn_of_substituteInRow tableau symbol replacement earlier

variable {tableau symbol replacement}

theorem Sweeping.foldl (replacement : Expression K) {waiting : List Symbol}
    (sweeping : tableau.Sweeping symbol waiting)
    (distinct : waiting.Nodup)
    (parametric : ∀ other ∈ replacement.symbols, other ≠ symbol ∧ tableau.isBasic other = false) :
    (waiting.foldl (fun current basic => current.substituteInRow symbol replacement basic)
      tableau).Sweeping symbol [] := by
  induction waiting generalizing tableau with
  | nil => exact sweeping
  | cons basic rest ih =>
    rw [List.nodup_cons] at distinct
    refine ih (sweeping.substituteInRow distinct.1 parametric) distinct.2 ?_
    intro other member
    rw [isBasic_substituteInRow]
    exact parametric other member

omit [Zero K] [LT K] [DecidableLT K] [Add K] [Mul K] [Scalar K] in
theorem IndexedBut.sweeping (indexed : tableau.Indexed) (symbol : Symbol) :
    ({ tableau with columns := tableau.columns.swapErase symbol } : Tableau K).Sweeping symbol
      (tableau.column symbol) := by
  have members : ∀ other basic, basic ∈ ({ tableau with
      columns := tableau.columns.swapErase symbol } : Tableau K).column other ↔
        other ≠ symbol ∧ basic ∈ tableau.column other := by
    intro other basic
    simp only [column, Table.get?_swapErase]
    by_cases same : symbol = other
    · simp [same, Table.keys, EmptyCollection.emptyCollection, Table.empty]
    · simp [same, Ne.symm same]
  have columns : ∀ other, ({ tableau with
      columns := tableau.columns.swapErase symbol } : Tableau K).hasColumn other = true ↔
        other ≠ symbol ∧ tableau.hasColumn other = true := by
    intro other
    simp only [hasColumn, Table.contains_iff, Table.mem_keys_swapErase]
  constructor
  · rw [← Bool.not_eq_true, columns]
    simp
  · intro basic notWaiting other
    rw [members, indexed.agrees]
    refine ⟨And.right, fun occurs => ⟨?_, occurs⟩⟩
    rintro rfl
    exact notWaiting ((indexed.agrees other basic).mpr occurs)
  · intro basic _ other
    rw [members, indexed.agrees]
    rfl
  · intro basic isBasic
    rw [← Bool.not_eq_true, columns, indexed.parametric basic isBasic]
    simp
  · exact fun other => indexed.listsBasic other not_false
  · intro other apart
    have listed := indexed.listsParametric other
    unfold ListsParametric at listed ⊢
    rw [columns]
    refine listed.trans (and_congr_right fun isExternal => ?_)
    refine ⟨fun column => ⟨?_, column⟩, And.right⟩
    rintro rfl
    rcases apart with different | isInternal
    · exact different rfl
    · rw [isInternal] at isExternal
      cases isExternal
  · exact indexed.queued

end Sweeping

section Eliminate

variable [Zero K] [LT K] [DecidableLT K] {tableau : Tableau K} {symbol : Symbol}
  {replacement : Expression K}

theorem row?_eliminate (indexed : tableau.Indexed) (basic : Symbol) :
    (tableau.eliminate symbol replacement).row? basic =
      (tableau.row? basic).map (·.substitute symbol replacement) := by
  have swept := row?_foldl_substituteInRow
    { tableau with columns := tableau.columns.swapErase symbol } symbol replacement
    (tableau.column_nodup symbol) basic
  have unfolded : (tableau.eliminate symbol replacement).row? basic =
      if basic ∈ tableau.column symbol then
        (tableau.row? basic).map (·.substitute symbol replacement)
      else tableau.row? basic := by
    refine Eq.trans ?_ swept
    unfold eliminate
    split <;> rfl
  rw [unfolded]
  split
  · rfl
  · rename_i unused
    cases found : tableau.row? basic with
    | none => rfl
    | some row =>
      have missing : symbol ∉ row.symbols := fun member =>
        unused ((indexed.agrees symbol basic).mpr ⟨row, found, member⟩)
      rw [Option.map_some, Expression.substitute_of_not_mem missing]

theorem isBasic_eliminate (indexed : tableau.Indexed) (basic : Symbol) :
    (tableau.eliminate symbol replacement).isBasic basic = tableau.isBasic basic := by
  rw [Bool.eq_iff_iff, isBasic_iff, isBasic_iff, row?_eliminate indexed]
  cases tableau.row? basic <;> simp

theorem hasColumn_of_eliminate {other : Symbol}
    (column : (tableau.eliminate symbol replacement).hasColumn other = true) :
    other ∈ replacement.symbols ∨ other ≠ symbol ∧ tableau.hasColumn other = true := by
  have swept : (((tableau.column symbol).foldl
      (fun (current : Tableau K) basic => current.substituteInRow symbol replacement basic)
      { tableau with columns := tableau.columns.swapErase symbol }).hasColumn other = true) := by
    unfold eliminate at column
    split at column <;> exact column
  refine (hasColumn_of_foldl_substituteInRow _ _ _ swept).imp_right fun before => ?_
  simpa only [hasColumn, Table.contains_iff, Table.mem_keys_swapErase] using before

theorem IndexedBut.eliminate (indexed : tableau.Indexed)
    (parametric : ∀ other ∈ replacement.symbols, other ≠ symbol ∧ tableau.isBasic other = false) :
    (tableau.eliminate symbol replacement).IndexedBut (· = symbol) ∧
      (tableau.eliminate symbol replacement).hasColumn symbol = false ∧
      (symbol ∈ (tableau.eliminate symbol replacement).basicExternals.keys →
        symbol.isExternal = true) := by
  have swept := (indexed.sweeping symbol).foldl replacement
    (tableau.column_nodup symbol) parametric
  unfold Tableau.eliminate
  split
  · rename_i isExternal
    refine ⟨⟨fun other basic => swept.swept basic List.not_mem_nil other, swept.parametric,
      ?_, ?_, swept.queued⟩, swept.noColumn, fun _ => isExternal⟩
    · intro other different
      have listed := swept.listsBasic other
      unfold ListsBasic at listed ⊢
      rw [Table.mem_keys_insert, listed]
      simp only [different, false_or]
      rfl
    · intro other
      unfold ListsParametric
      rw [Table.mem_keys_swapErase]
      by_cases same : other = symbol
      · subst same
        have noColumn := swept.noColumn
        simp only [ne_eq, not_true, false_and, false_iff, not_and, Bool.not_eq_true]
        exact fun _ => noColumn
      · have listed := swept.listsParametric other (Or.inl same)
        unfold ListsParametric at listed
        rw [listed]
        simp only [ne_eq, same, not_false_eq_true, true_and]
        rfl
  · rename_i isInternal
    have internal : symbol.isExternal = false := by simpa using isInternal
    exact ⟨⟨fun other basic => swept.swept basic List.not_mem_nil other, swept.parametric,
      fun other _ => swept.listsBasic other,
      fun other => swept.listsParametric other (Or.inr internal), swept.queued⟩,
      swept.noColumn, fun member => ((swept.listsBasic symbol).mp member).1⟩

end Eliminate

/-! A symbol that becomes basic -/

section Defines

structure Defines (before : Tableau K) (symbol : Symbol) (solved : Expression K)
    (after : Tableau K) : Prop where
  rows : ∀ basic, after.row? basic =
    if symbol = basic then some solved else (before.row? basic).map (·.substitute symbol solved)
  columns : ∀ other, after.hasColumn other = true →
    other ∈ solved.symbols ∨ other ≠ symbol ∧ before.hasColumn other = true
  indexed : after.Indexed

variable {before after : Tableau K} {symbol : Symbol} {solved : Expression K}

theorem defines_of_addRow (indexed : before.Indexed) (notBasic : before.isBasic symbol = false)
    (noColumn : before.hasColumn symbol = false)
    (parametric : ∀ other ∈ solved.symbols, other ≠ symbol ∧ before.isBasic other = false) :
    before.Defines symbol solved (before.addRow symbol solved) := by
  constructor
  · intro basic
    rw [row?_addRow]
    by_cases same : symbol = basic
    · simp [same]
    · rw [if_neg same, if_neg same]
      cases found : before.row? basic with
      | none => rfl
      | some row =>
        have missing : symbol ∉ row.symbols := by
          intro member
          have column := indexed.hasColumn_of_occurs ⟨row, found, member⟩
          rw [noColumn] at column
          cases column
        rw [Option.map_some, Expression.substitute_of_not_mem missing]
  · intro other column
    rcases (hasColumn_addRow _ _ _ _).mp column with member | earlier
    · exact Or.inl member
    · refine Or.inr ⟨?_, earlier⟩
      rintro rfl
      rw [noColumn] at earlier
      cases earlier
  · exact indexed.addFreshRow notBasic noColumn parametric

theorem Defines.isBasic (defines : before.Defines symbol solved after) (basic : Symbol) :
    after.isBasic basic = true ↔ basic = symbol ∨ before.isBasic basic = true := by
  simp only [isBasic_iff, defines.rows]
  by_cases same : symbol = basic
  · simp [same]
  · rw [if_neg same]
    cases before.row? basic <;> simp [Ne.symm same]

variable [Zero K] [LT K] [DecidableLT K]

theorem defines_of_eliminate (indexed : before.Indexed) (notBasic : before.isBasic symbol = false)
    (parametric : ∀ other ∈ solved.symbols, other ≠ symbol ∧ before.isBasic other = false) :
    before.Defines symbol solved ((before.eliminate symbol solved).addRow symbol solved) := by
  obtain ⟨eliminated, noColumn, wasListed⟩ := indexed.eliminate parametric
  constructor
  · intro basic
    rw [row?_addRow, row?_eliminate indexed]
  · intro other column
    rcases (hasColumn_addRow _ _ _ _).mp column with member | earlier
    · exact Or.inl member
    · exact hasColumn_of_eliminate earlier
  · refine eliminated.addRow wasListed ((isBasic_eliminate indexed symbol).trans notBasic) noColumn ?_
    intro other member
    exact ⟨(parametric other member).1,
      (isBasic_eliminate indexed other).trans (parametric other member).2⟩

end Defines

section Pivots

variable [One K] [Neg K] [Div K]

/-- The leaving symbol gives up its row, which is solved for the entering symbol. -/
structure Pivots (before : Tableau K) (entering leaving : Symbol) (row solved : Expression K)
    (after : Tableau K) : Prop where
  leaves : before.row? leaving = some row
  solves : row.exchange? leaving entering = some solved
  defines : (before.removeRow leaving).Defines entering solved after

variable {before after : Tableau K} {entering leaving : Symbol} {row solved : Expression K}
  {limit : Nat}

namespace Pivots

theorem mem (pivots : before.Pivots entering leaving row solved after) :
    entering ∈ row.symbols := by
  obtain ⟨⟨reciprocal, partly⟩, solvesFor, _⟩ := Option.map_eq_some_iff.mp pivots.solves
  obtain ⟨value, found, _⟩ := Option.map_eq_some_iff.mp solvesFor
  exact (row.mem_symbols_iff entering).mpr ⟨value, found⟩

theorem indexed (pivots : before.Pivots entering leaving row solved after) : after.Indexed :=
  pivots.defines.indexed

theorem row?_after (pivots : before.Pivots entering leaving row solved after) (basic : Symbol) :
    after.row? basic =
      if entering = basic then some solved
      else if leaving = basic then none
      else (before.row? basic).map (·.substitute entering solved) := by
  rw [pivots.defines.rows, row?_removeRow]
  split
  · rfl
  · split <;> rfl

theorem isBasic_after (pivots : before.Pivots entering leaving row solved after) (basic : Symbol) :
    after.isBasic basic = true ↔
      basic = entering ∨ basic ≠ leaving ∧ before.isBasic basic = true := by
  rw [pivots.defines.isBasic, isBasic_removeRow]

theorem row_cases (pivots : before.Pivots entering leaving row solved after) {basic : Symbol}
    {next : Expression K} (found : after.row? basic = some next) :
    basic = entering ∧ next = solved ∨
      basic ≠ entering ∧ basic ≠ leaving ∧
        ∃ old, before.row? basic = some old ∧ next = old.substitute entering solved := by
  rw [pivots.row?_after] at found
  split at found
  · rename_i same
    exact Or.inl ⟨same.symm, (Option.some.inj found).symm⟩
  · rename_i different
    split at found
    · cases found
    · rename_i stays
      obtain ⟨old, was, replaced⟩ := Option.map_eq_some_iff.mp found
      exact Or.inr ⟨Ne.symm different, Ne.symm stays, old, was, replaced.symm⟩

theorem different (pivots : before.Pivots entering leaving row solved after)
    (indexed : before.Indexed) : entering ≠ leaving := by
  rintro rfl
  exact indexed.not_mem_of_basic (isBasic_of_row? pivots.leaves) pivots.leaves pivots.mem

theorem leaving_not_mem (pivots : before.Pivots entering leaving row solved after)
    (indexed : before.Indexed) : leaving ∉ row.symbols :=
  indexed.not_mem_of_basic (isBasic_of_row? pivots.leaves) pivots.leaves

end Pivots

variable [Zero K] [LT K] [DecidableLT K]

theorem pivot_reaches : (pivot entering leaving limit before).Meets
    (fun _ after => ∃ solved,
      after = ((before.removeRow leaving).eliminate entering solved).addRow entering solved)
    (fun _ _ => True) := by
  unfold pivot
  rw [Action.meets_bind, Action.meets_report, Action.meets_bind, Action.meets_get]
  cases before.row? leaving with
  | none => trivial
  | some row =>
    dsimp only
    rw [Action.meets_bind, Action.meets_modify]
    cases row.exchange? leaving entering with
    | none => trivial
    | some solved => exact ⟨solved, rfl⟩

theorem pivot_meets (indexed : before.Indexed) (occurs : before.Occurs entering leaving) :
    (pivot entering leaving limit before).Meets
      (fun _ after => ∃ row solved, before.Pivots entering leaving row solved after)
      (fun _ _ => False) := by
  obtain ⟨row, found, member⟩ := occurs
  obtain ⟨solved, solves⟩ := Expression.exchange?_eq_some_of_mem leaving member
  have notBasic := indexed.not_basic_of_mem found member
  unfold pivot
  simp only [Action.meets_bind, Action.meets_report, Action.meets_get, found, Action.meets_modify,
    solves]
  refine ⟨row, solved, found, solves, ?_⟩
  refine defines_of_eliminate (indexed.removeRow leaving) ?_ ?_
  · rw [← Bool.not_eq_true, isBasic_removeRow, notBasic]
    simp
  · intro other included
    rcases Expression.mem_symbols_of_exchange solves included with same | ⟨different, inRow⟩
    · subst same
      refine ⟨?_, ?_⟩
      · rintro rfl
        rw [isBasic_of_row? found] at notBasic
        cases notBasic
      · rw [← Bool.not_eq_true, isBasic_removeRow]
        simp
    · refine ⟨different, ?_⟩
      rw [← Bool.not_eq_true, isBasic_removeRow, indexed.not_basic_of_mem found inRow]
      simp

end Pivots

section Introduces

variable [One K] [Neg K] [Div K]

/-- An equation has come in, solved for one of its symbols. -/
structure Introduces (before : Tableau K) (subject : Symbol) (row solved : Expression K)
    (after : Tableau K) : Prop where
  solves : ∃ reciprocal, row.solveFor? subject = some (reciprocal, solved)
  defines : before.Defines subject solved after

variable [Zero K] [LT K] [DecidableLT K]

theorem addSolved_meets {before : Tableau K} {subject : Symbol} {row : Expression K} {limit : Nat}
    (indexed : before.Indexed) (occurs : subject ∈ row.symbols)
    (parametric : ∀ symbol ∈ row.symbols, before.isBasic symbol = false) :
    (addSolved subject row limit before).Meets
      (fun _ after => ∃ solved, before.Introduces subject row solved after)
      (fun _ _ => False) := by
  obtain ⟨reciprocal, solved, solves⟩ := Expression.solveFor?_eq_some_of_mem occurs
  have others : ∀ other ∈ solved.symbols, other ≠ subject ∧ before.isBasic other = false := by
    intro other member
    obtain ⟨different, inRow⟩ := (Expression.mem_symbols_solveFor solves other).mp member
    exact ⟨different, parametric other inRow⟩
  simp only [addSolved, solves, Action.meets_modify]
  refine ⟨solved, ⟨reciprocal, solves⟩, ?_⟩
  split
  · exact defines_of_eliminate indexed (parametric subject occurs) others
  · rename_i noColumn
    exact defines_of_addRow indexed (parametric subject occurs) (by simpa using noColumn) others

end Introduces

end Tableau

end SoftSimplex
