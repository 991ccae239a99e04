import SoftSimplex.Proofs.Parallel
import SoftSimplex.Proofs.Phases

/-!
What pivots read of a tableau. They look at its rows and at the rows listed for a symbol, never at
the queue or the lists of external symbols, nor whether a column is empty or not there. So a tableau
of which no more is known than that its rows and columns are linked goes through the same pivots as
an indexed one.
-/

namespace SoftSimplex

namespace Table

variable {α β : Type}

def restrict (table : Table α β) (keep : α → Bool) : Table α β where
  entries := table.entries.filter fun entry => keep entry.1
  distinct := List.Pairwise.sublist (List.filter_sublist.map Prod.fst) table.distinct

theorem mem_keys_restrict (table : Table α β) (keep : α → Bool) (key : α) :
    key ∈ (table.restrict keep).keys ↔ key ∈ table.keys ∧ keep key = true := by
  simp only [keys, restrict, List.mem_map, List.mem_filter]
  constructor
  · rintro ⟨entry, ⟨member, kept⟩, rfl⟩
    exact ⟨⟨entry, member, rfl⟩, kept⟩
  · rintro ⟨⟨entry, member, rfl⟩, kept⟩
    exact ⟨entry, ⟨member, kept⟩, rfl⟩

theorem get?_restrict [DecidableEq α] (table : Table α β) (keep : α → Bool) (key : α) :
    (table.restrict keep).get? key = if keep key then table.get? key else none := by
  have kept : ∀ value, (table.restrict keep).get? key = some value ↔
      keep key = true ∧ table.get? key = some value := by
    intro value
    rw [← mem_entries_iff, ← mem_entries_iff, restrict, List.mem_filter, and_comm]
  refine Option.ext fun value => ?_
  rw [kept]
  split
  · rename_i passes
    simp [passes]
  · rename_i fails
    simp [fails]

theorem eq_empty_of_keys {table : Table α β} (none : ∀ key, key ∉ table.keys) : table = ∅ := by
  refine eq_of_entries (List.eq_nil_iff_forall_not_mem.mpr fun entry member => ?_)
  exact none entry.1 (List.mem_map_of_mem member)

end Table

namespace Tableau

variable {K : Type} {left right before : Tableau K}

def users (tableau : Tableau K) (symbol : Symbol) : SymbolSet :=
  (tableau.columns.get? symbol).getD ∅

structure Alike (left right : Tableau K) : Prop where
  rows : left.rows = right.rows
  users : ∀ symbol, left.users symbol = right.users symbol

/-- Rows and columns agree, and no basic symbol occurs in a row. -/
structure Linked (tableau : Tableau K) : Prop where
  agrees : ∀ symbol basic, basic ∈ tableau.column symbol ↔ tableau.Occurs symbol basic
  parametric : ∀ symbol basic, tableau.Occurs symbol basic → tableau.isBasic symbol = false

theorem IndexedBut.linked {pending : Symbol → Prop} (indexed : before.IndexedBut pending) :
    before.Linked :=
  ⟨indexed.agrees, fun _ _ => indexed.not_basic_of_occurs⟩

namespace Alike

theorem row? (alike : left.Alike right) (basic : Symbol) : left.row? basic = right.row? basic := by
  rw [Tableau.row?, Tableau.row?, alike.rows]

theorem isBasic (alike : left.Alike right) (basic : Symbol) :
    left.isBasic basic = right.isBasic basic := by
  rw [Tableau.isBasic, Tableau.isBasic, alike.rows]

theorem column (alike : left.Alike right) (symbol : Symbol) :
    left.column symbol = right.column symbol :=
  congrArg Table.keys (alike.users symbol)

theorem occurs (alike : left.Alike right) (symbol basic : Symbol) :
    left.Occurs symbol basic ↔ right.Occurs symbol basic := by
  unfold Occurs
  rw [alike.row?]

theorem linked (alike : left.Alike right) (linked : right.Linked) : left.Linked := by
  constructor
  · intro symbol basic
    rw [alike.column, alike.occurs]
    exact linked.agrees symbol basic
  · intro symbol basic occurs
    rw [alike.isBasic]
    exact linked.parametric symbol basic ((alike.occurs symbol basic).mp occurs)

end Alike

/-! Links can be checked -/

section Checks

variable (tableau : Tableau K)

theorem forall_row?_iff (holds : Symbol → Expression K → Prop) :
    (∀ basic row, tableau.row? basic = some row → holds basic row) ↔
      ∀ entry ∈ tableau.rows.entries, holds entry.1 entry.2 := by
  constructor
  · exact fun all entry member => all entry.1 entry.2 ((tableau.rows.mem_entries_iff _ _).mp member)
  · exact fun all basic row found => all (basic, row) ((tableau.rows.mem_entries_iff _ _).mpr found)

instance (symbol basic : Symbol) : Decidable (tableau.Occurs symbol basic) :=
  decidable_of_iff ((tableau.row? basic).any (fun row => symbol ∈ row.symbols) = true) (by
    simp [Occurs, Option.any_eq_true])

theorem linked_iff : tableau.Linked ↔
    (∀ entry ∈ tableau.columns.entries, ∀ basic ∈ entry.2.keys, tableau.Occurs entry.1 basic) ∧
      ∀ entry ∈ tableau.rows.entries, ∀ symbol ∈ entry.2.symbols,
        entry.1 ∈ tableau.column symbol ∧ tableau.isBasic symbol = false := by
  rw [← tableau.forall_row?_iff fun basic row => ∀ symbol ∈ row.symbols,
    basic ∈ tableau.column symbol ∧ tableau.isBasic symbol = false]
  constructor
  · intro linked
    refine ⟨fun entry listed basic member => (linked.agrees entry.1 basic).mp ?_, ?_⟩
    · have found := (tableau.columns.mem_entries_iff entry.1 entry.2).mp listed
      rwa [column, found]
    · intro basic row found symbol member
      have occurs : tableau.Occurs symbol basic := ⟨row, found, member⟩
      exact ⟨(linked.agrees symbol basic).mpr occurs, linked.parametric symbol basic occurs⟩
  · rintro ⟨columns, rows⟩
    constructor
    · intro symbol basic
      constructor
      · intro member
        unfold column at member
        cases found : tableau.columns.get? symbol with
        | none =>
          rw [found] at member
          cases member
        | some users =>
          rw [found] at member
          exact columns (symbol, users) ((tableau.columns.mem_entries_iff _ _).mpr found) basic member
      · rintro ⟨row, found, member⟩
        exact (rows basic row found symbol member).1
    · rintro symbol basic ⟨row, found, member⟩
      exact (rows basic row found symbol member).2

instance : Decidable tableau.Linked := decidable_of_iff _ tableau.linked_iff.symm

end Checks

/-! A tableau with its bookkeeping made anew -/

section Reindexed

variable (tableau : Tableau K)

def reindexed : Tableau K where
  rows := tableau.rows
  columns := tableau.columns.restrict fun symbol => !tableau.isBasic symbol
  infeasible := ∅
  basicExternals := (tableau.rows.restrict (·.isExternal)).mapValues fun _ => ()
  parametricExternals := (tableau.columns.restrict fun symbol =>
    !tableau.isBasic symbol && symbol.isExternal).mapValues fun _ => ()

theorem users_reindexed (symbol : Symbol) :
    tableau.reindexed.users symbol = if tableau.isBasic symbol then ∅ else tableau.users symbol := by
  simp only [users, reindexed, Table.get?_restrict]
  cases tableau.isBasic symbol <;> rfl

theorem hasColumn_reindexed (symbol : Symbol) :
    tableau.reindexed.hasColumn symbol = true ↔
      tableau.hasColumn symbol = true ∧ tableau.isBasic symbol = false := by
  simp only [hasColumn, reindexed, Table.contains_iff, Table.mem_keys_restrict, Bool.not_eq_true']

variable {tableau}

theorem Linked.alike_reindexed (linked : tableau.Linked) : tableau.Alike tableau.reindexed := by
  refine ⟨rfl, fun symbol => ?_⟩
  rw [users_reindexed]
  split
  · rename_i isBasic
    refine Table.eq_empty_of_keys fun basic member => ?_
    have notBasic := linked.parametric symbol basic ((linked.agrees symbol basic).mp member)
    rw [isBasic] at notBasic
    cases notBasic
  · rfl

theorem Linked.indexed_reindexed (linked : tableau.Linked) : tableau.reindexed.Indexed := by
  have alike := linked.alike_reindexed
  constructor
  · intro symbol basic
    rw [← alike.column, ← alike.occurs]
    exact linked.agrees symbol basic
  · intro basic isBasic
    rw [← alike.isBasic] at isBasic
    rw [← Bool.not_eq_true, hasColumn_reindexed, isBasic]
    simp
  · intro symbol _
    simp only [ListsBasic, reindexed, isBasic, Table.keys_mapValues, Table.mem_keys_restrict,
      Table.contains_iff]
    exact and_comm
  · intro symbol
    rw [ListsParametric, hasColumn_reindexed]
    simp only [reindexed, hasColumn, Table.keys_mapValues, Table.mem_keys_restrict,
      Table.contains_iff, Bool.and_eq_true, Bool.not_eq_true']
    tauto
  · exact fun symbol member => absurd member List.not_mem_nil

end Reindexed

/-! Changes of rows and columns -/

namespace Alike

theorem noteInserted (alike : left.Alike right) (basic symbol : Symbol) :
    (left.noteInserted basic symbol).Alike (right.noteInserted basic symbol) := by
  refine ⟨alike.rows, fun other => ?_⟩
  have users := alike.users
  simp only [Tableau.users, Tableau.noteInserted, Table.get?_upsert] at users ⊢
  split
  · rw [users]
  · exact users other

theorem noteRemoved (alike : left.Alike right) (basic symbol : Symbol) :
    (left.noteRemoved basic symbol).Alike (right.noteRemoved basic symbol) := by
  refine ⟨alike.rows, fun other => ?_⟩
  have removed : ∀ column : Option SymbolSet,
      (column.map (·.swapErase basic)).getD ∅ = (column.getD ∅).swapErase basic := by
    intro column
    cases column <;> rfl
  have users := alike.users
  simp only [Tableau.users, Tableau.noteRemoved, Table.get?_modify] at users ⊢
  split
  · rw [removed, removed, users]
  · exact users other

theorem noteChange (alike : left.Alike right) (basic symbol : Symbol) (change : TermChange) :
    (left.noteChange basic symbol change).Alike (right.noteChange basic symbol change) := by
  cases change with
  | inserted => exact alike.noteInserted basic symbol
  | removed => exact alike.noteRemoved basic symbol
  | updated => exact alike
  | unchanged => exact alike

theorem foldl {α : Type} {change : Tableau K → α → Tableau K}
    (kept : ∀ {earlier later : Tableau K}, earlier.Alike later → ∀ value,
      (change earlier value).Alike (change later value))
    (values : List α) (alike : left.Alike right) :
    (values.foldl change left).Alike (values.foldl change right) := by
  induction values generalizing left right with
  | nil => exact alike
  | cons value rest ih => exact ih (kept alike value)

theorem setRow (alike : left.Alike right) (basic : Symbol) (row : Expression K) :
    (left.setRow basic row).Alike (right.setRow basic row) :=
  ⟨congrArg (·.insert basic row) alike.rows, alike.users⟩

theorem addRow (alike : left.Alike right) (basic : Symbol) (row : Expression K) :
    (left.addRow basic row).Alike (right.addRow basic row) := by
  have noted := alike.foldl (fun alike symbol => alike.noteInserted basic symbol) row.symbols
  unfold Tableau.addRow
  dsimp only
  split <;> exact ⟨congrArg (·.insert basic row) noted.rows, noted.users⟩

theorem removeRow (alike : left.Alike right) (basic : Symbol) :
    (left.removeRow basic).Alike (right.removeRow basic) := by
  unfold Tableau.removeRow
  rw [alike.row?]
  cases right.row? basic with
  | none => exact alike
  | some row =>
    have cut : ({ left with rows := left.rows.swapErase basic } : Tableau K).Alike
        { right with rows := right.rows.swapErase basic } :=
      ⟨congrArg (·.swapErase basic) alike.rows, alike.users⟩
    have noted := cut.foldl (fun alike symbol => alike.noteRemoved basic symbol) row.symbols
    exact ⟨noted.rows, noted.users⟩

section Substituting

variable [Zero K] [Add K] [Mul K] [LT K] [DecidableLT K] [Scalar K]

omit [Add K] [Mul K] [Scalar K] in
theorem checkFeasible (alike : left.Alike right) (basic : Symbol) (constant : K) :
    (left.checkFeasible basic constant).Alike (right.checkFeasible basic constant) := by
  unfold Tableau.checkFeasible
  split
  · exact ⟨alike.rows, alike.users⟩
  · exact alike

theorem substituteInRow (alike : left.Alike right) (symbol : Symbol) (replacement : Expression K)
    (basic : Symbol) : (left.substituteInRow symbol replacement basic).Alike
      (right.substituteInRow symbol replacement basic) := by
  unfold Tableau.substituteInRow
  rw [alike.row?]
  cases right.row? basic with
  | none => exact alike
  | some row =>
    dsimp only
    cases row.substituteReporting? symbol replacement with
    | none => exact alike.checkFeasible basic _
    | some result =>
      have noted := (alike.setRow basic result.1).foldl
        (fun alike entry => alike.noteChange basic entry.1 entry.2) result.2
      exact noted.checkFeasible basic _

theorem eliminate (alike : left.Alike right) (symbol : Symbol) (replacement : Expression K) :
    (left.eliminate symbol replacement).Alike (right.eliminate symbol replacement) := by
  have opened : ({ left with columns := left.columns.swapErase symbol } : Tableau K).Alike
      { right with columns := right.columns.swapErase symbol } := by
    refine ⟨alike.rows, fun other => ?_⟩
    have users := alike.users other
    simp only [Tableau.users, Table.get?_swapErase] at users ⊢
    split
    · rfl
    · exact users
  have swept := opened.foldl
    (fun alike basic => alike.substituteInRow symbol replacement basic) (left.column symbol)
  unfold Tableau.eliminate
  rw [← alike.column]
  dsimp only
  split
  · exact ⟨swept.rows, swept.users⟩
  · exact swept

end Substituting

end Alike

/-! Pivots -/

section Pivoting

variable [Zero K] [One K] [Add K] [Neg K] [Mul K] [Div K] [LT K] [DecidableLT K] [Scalar K]
  {entering leaving objective : Symbol} {limit : Nat}

theorem Alike.pivot (alike : left.Alike right) :
    (pivot entering leaving limit left).Parallel Alike Eq
      (pivot entering leaving limit right) := by
  refine Action.parallel_bind (Action.parallel_report alike (List.forall₂_same.mpr fun _ _ => rfl)) ?_
  intro _ current echo same
  refine Action.parallel_get ?_
  rw [same.row?]
  cases echo.row? leaving with
  | none => exact Action.parallel_fail same _
  | some row =>
    refine Action.parallel_bind (Action.parallel_modify (same.removeRow leaving)) ?_
    intro _ cut cutEcho cutSame
    cases row.exchange? leaving entering with
    | none => exact Action.parallel_fail cutSame _
    | some solved =>
      exact Action.parallel_modify ((cutSame.eliminate entering solved).addRow entering solved)

omit [One K] [Add K] [Mul K] [Scalar K] in
theorem Alike.growthLimits (alike : left.Alike right) (entering : Symbol) :
    left.growthLimits entering = right.growthLimits entering := by
  unfold Tableau.growthLimits
  rw [alike.column]
  refine congrArg (List.filterMap · _) (funext fun basic => ?_)
  rw [alike.row?]

theorem Alike.improve (alike : left.Alike right) :
    (improve objective limit left).Parallel Alike Eq (improve objective limit right) := by
  refine Action.parallel_get ?_
  rw [alike.row?]
  cases right.row? objective with
  | none => exact Action.parallel_fail alike _
  | some costs =>
    dsimp only
    cases enteringSymbol? costs with
    | none => exact Action.parallel_pure alike false
    | some entering =>
      dsimp only
      unfold leavingSymbol?
      rw [alike.growthLimits]
      cases (least? Scalar.bounded (right.growthLimits entering)).map Prod.fst with
      | none => exact Action.parallel_fail alike _
      | some leaving =>
        exact Action.parallel_bind alike.pivot fun _ _ _ same => Action.parallel_pure same true

theorem Alike.minimize (alike : left.Alike right) :
    (minimize objective limit left).Parallel Alike Eq (minimize objective limit right) :=
  Action.parallel_loop (fun _ _ => Alike.improve) alike

theorem Linked.pivot_meets (linked : before.Linked) (occurs : before.Occurs entering leaving) :
    (pivot entering leaving limit before).Meets
      (fun _ after => ∃ twin, after.Alike twin ∧
        ∃ row solved, before.reindexed.Pivots entering leaving row solved twin)
      (fun _ _ => False) := by
  have alike := linked.alike_reindexed
  refine (alike.pivot.meets (Tableau.pivot_meets linked.indexed_reindexed
    ((alike.occurs entering leaving).mp occurs))).imp (fun _ _ met => met) ?_
  rintro _ _ ⟨_, _, impossible⟩
  exact impossible

theorem Linked.minimize_meets (linked : before.Linked) :
    (minimize objective limit before).Meets
      (fun _ after => ∃ twin, after.Alike twin ∧
        ∃ least, before.reindexed.Minimized objective least twin)
      (fun fault after => ∃ twin, after.Alike twin ∧
        Relation.ReflTransGen (Improves objective) before.reindexed twin ∧
        (fault = .internal .objectiveMissing ∧ twin.row? objective = none ∨
          fault = .internal .objectiveUnbounded ∧ before.reindexed.Unbounded objective twin)) :=
  linked.alike_reindexed.minimize.meets (Tableau.minimize_meets linked.indexed_reindexed)

end Pivoting

end Tableau

end SoftSimplex
