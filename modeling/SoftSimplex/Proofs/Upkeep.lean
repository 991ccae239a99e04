import SoftSimplex.Proofs.Fit

/-!
Changes that leave the shape of a tableau alone: constants shift when stays settle and targets
move, and costs come into the objective row and go out of it again.
-/

namespace SoftSimplex

namespace Tableau

variable {K : Type} {before middle after : Tableau K} {bound : Nat}

/-! Constants -/

section Shifts

structure Shifts (before after : Tableau K) (constantOf : Symbol → Expression K → K) : Prop where
  rows : ∀ basic, after.row? basic =
    (before.row? basic).map fun row => row.withConstant (constantOf basic row)
  columns : after.columns = before.columns
  basicExternals : after.basicExternals = before.basicExternals
  parametricExternals : after.parametricExternals = before.parametricExternals
  queued : ∀ symbol ∈ after.infeasible.keys, symbol ∈ before.infeasible.keys ∨
    symbol.isRestricted = true ∧ before.isBasic symbol = true

namespace Shifts

variable {constantOf : Symbol → Expression K → K}

theorem isBasic (shifts : before.Shifts after constantOf) (basic : Symbol) :
    after.isBasic basic = before.isBasic basic := by
  rw [Bool.eq_iff_iff, isBasic_iff, isBasic_iff, shifts.rows]
  cases before.row? basic <;> simp

theorem hasColumn (shifts : before.Shifts after constantOf) (symbol : Symbol) :
    after.hasColumn symbol = before.hasColumn symbol := by
  unfold Tableau.hasColumn
  rw [shifts.columns]

theorem column (shifts : before.Shifts after constantOf) (symbol : Symbol) :
    after.column symbol = before.column symbol := by
  unfold Tableau.column
  rw [shifts.columns]

theorem occurs (shifts : before.Shifts after constantOf) (symbol basic : Symbol) :
    after.Occurs symbol basic ↔ before.Occurs symbol basic := by
  unfold Occurs
  rw [shifts.rows]
  cases before.row? basic <;> simp [Expression.symbols_withConstant]

theorem indexed (shifts : before.Shifts after constantOf) (indexed : before.Indexed) :
    after.Indexed where
  agrees symbol basic := by
    rw [shifts.column, shifts.occurs]
    exact indexed.agrees symbol basic
  parametric basic isBasic := by
    rw [shifts.isBasic] at isBasic
    rw [shifts.hasColumn]
    exact indexed.parametric basic isBasic
  listsBasic symbol free := by
    unfold ListsBasic
    rw [shifts.isBasic, shifts.basicExternals]
    exact indexed.listsBasic symbol free
  listsParametric symbol := by
    unfold ListsParametric
    rw [shifts.hasColumn, shifts.parametricExternals]
    exact indexed.listsParametric symbol
  queued symbol member := by
    rw [shifts.isBasic]
    exact (shifts.queued symbol member).elim (indexed.queued symbol) id

theorem fits (shifts : before.Shifts after constantOf) (fits : before.Fits bound) :
    after.Fits bound where
  indexed := shifts.indexed fits.indexed
  objective := (shifts.isBasic _).trans fits.objective
  within symbol present := by
    rw [shifts.isBasic, shifts.hasColumn] at present
    exact fits.within symbol present

theorem refl (tableau : Tableau K) : tableau.Shifts tableau fun _ row => row.constant where
  rows basic := by cases tableau.row? basic <;> rfl
  columns := rfl
  basicExternals := rfl
  parametricExternals := rfl
  queued _ member := Or.inl member

theorem trans {laterOf bothOf : Symbol → Expression K → K}
    (first : before.Shifts middle constantOf) (second : middle.Shifts after laterOf)
    (combines : ∀ basic row,
      laterOf basic (row.withConstant (constantOf basic row)) = bothOf basic row) :
    before.Shifts after bothOf where
  rows basic := by
    rw [second.rows, first.rows, Option.map_map]
    refine congrArg (Option.map · (before.row? basic)) (funext fun row => ?_)
    rw [← combines]
    rfl
  columns := second.columns.trans first.columns
  basicExternals := second.basicExternals.trans first.basicExternals
  parametricExternals := second.parametricExternals.trans first.parametricExternals
  queued symbol member := by
    rcases second.queued symbol member with earlier | ⟨restricted, isBasic⟩
    · exact first.queued symbol earlier
    · rw [first.isBasic] at isBasic
      exact Or.inr ⟨restricted, isBasic⟩

end Shifts

end Shifts

section Settling

variable [Zero K]

def stayRow (tableau : Tableau K) (pair : Symbol × Symbol) : Symbol :=
  if tableau.isBasic pair.1 then pair.1 else pair.2

theorem shifts_settleStay (tableau : Tableau K) (pair : Symbol × Symbol) :
    tableau.Shifts (Solver.settleStay tableau pair)
      fun basic row => if tableau.stayRow pair = basic then 0 else row.constant where
  rows basic := by
    refine (Table.get?_modify ..).trans ?_
    change (if tableau.stayRow pair = basic then _ else _) = _
    unfold row?
    by_cases same : tableau.stayRow pair = basic
    · simp only [same, if_true]
    · simp only [same, if_false]
      cases tableau.rows.get? basic <;> rfl
  columns := rfl
  basicExternals := rfl
  parametricExternals := rfl
  queued _ member := Or.inl member

theorem shifts_settleStays (tableau : Tableau K) (pairs : List (Symbol × Symbol)) :
    tableau.Shifts (pairs.foldl Solver.settleStay tableau)
      fun basic row => if basic ∈ pairs.map tableau.stayRow then 0 else row.constant := by
  induction pairs generalizing tableau with
  | nil => exact Shifts.refl tableau
  | cons pair rest ih =>
    have first := tableau.shifts_settleStay pair
    have sameRow : (Solver.settleStay tableau pair).stayRow = tableau.stayRow := by
      funext other
      unfold stayRow
      rw [first.isBasic]
    refine first.trans (ih (Solver.settleStay tableau pair)) fun basic row => ?_
    rw [sameRow]
    by_cases here : tableau.stayRow pair = basic
    · rw [if_pos here, if_pos (List.mem_map.mpr ⟨pair, List.mem_cons_self, here⟩)]
      split <;> rfl
    · have others : basic ∈ (pair :: rest).map tableau.stayRow ↔
          basic ∈ rest.map tableau.stayRow := by
        rw [List.map_cons, List.mem_cons, or_iff_right (Ne.symm here)]
      simp only [if_neg here, others]
      rfl

theorem Fits.settleStays (fits : before.Fits bound) (pairs : List (Symbol × Symbol)) :
    (pairs.foldl Solver.settleStay before).Fits bound :=
  (before.shifts_settleStays pairs).fits fits

end Settling

section Targets

variable [Zero K] [Add K] [LT K] [DecidableLT K]

theorem shifts_shiftError {basic : Symbol} {row : Expression K}
    (found : before.row? basic = some row) (restricted : basic.isRestricted = true) (amount : K) :
    before.Shifts (before.shiftError basic row amount)
      fun other current => if basic = other then current.constant + amount
        else current.constant := by
  have rows : ∀ other, (before.shiftError basic row amount).row? other =
      (before.setRow basic (row.increaseConstant amount)).row? other := by
    intro other
    unfold shiftError
    dsimp only
    split <;> rfl
  constructor
  · intro other
    rw [rows, row?_setRow]
    by_cases same : basic = other
    · subst same
      simp [found, Expression.increaseConstant]
    · simp only [same, if_false]
      cases before.row? other <;> rfl
  · unfold shiftError
    dsimp only
    split <;> rfl
  · unfold shiftError
    dsimp only
    split <;> rfl
  · unfold shiftError
    dsimp only
    split <;> rfl
  · intro symbol member
    unfold shiftError at member
    dsimp only at member
    split at member
    · rcases (Table.mem_keys_insert _ _ _ _).mp member with rfl | old
      · exact Or.inr ⟨restricted, isBasic_of_row? found⟩
      · exact Or.inl old
    · exact Or.inl member

variable [Mul K]

theorem shifts_shiftUse (tableau : Tableau K) (minus : Symbol) (delta : K) (basic : Symbol) :
    tableau.Shifts (tableau.shiftUse minus delta basic)
      fun other row => if basic = other then row.constant + row.coefficient minus * delta
        else row.constant := by
  unfold shiftUse
  cases found : tableau.row? basic with
  | none =>
    refine ⟨?_, rfl, rfl, rfl, fun _ member => Or.inl member⟩
    intro other
    by_cases same : basic = other
    · simp [← same, found]
    · simp only [same, if_false]
      cases tableau.row? other <;> rfl
  | some row =>
    dsimp only
    unfold checkFeasible
    constructor
    · intro other
      refine Eq.trans (b := (tableau.setRow basic
        (row.increaseConstant (row.coefficient minus * delta))).row? other) ?_ ?_
      · split <;> rfl
      · rw [row?_setRow]
        by_cases same : basic = other
        · subst same
          simp [found, Expression.increaseConstant]
        · simp only [same, if_false]
          cases tableau.row? other <;> rfl
    · split <;> rfl
    · split <;> rfl
    · split <;> rfl
    · intro symbol member
      split at member
      · rename_i negative
        rcases (Table.mem_keys_insert _ _ _ _).mp member with rfl | old
        · exact Or.inr ⟨negative.1, isBasic_of_row? found⟩
        · exact Or.inl old
      · exact Or.inl member

theorem shifts_foldl_shiftUse (tableau : Tableau K) (minus : Symbol) (delta : K)
    {users : List Symbol} (distinct : users.Nodup) :
    tableau.Shifts (users.foldl (shiftUse minus delta) tableau)
      fun basic row => if basic ∈ users then row.constant + row.coefficient minus * delta
        else row.constant := by
  induction users generalizing tableau with
  | nil => exact Shifts.refl tableau
  | cons user rest ih =>
    rw [List.nodup_cons] at distinct
    refine (tableau.shifts_shiftUse minus delta user).trans
      (ih (tableau.shiftUse minus delta user) distinct.2) fun basic row => ?_
    by_cases same : user = basic
    · subst same
      simp [distinct.1, Expression.withConstant]
    · simp [same, Ne.symm same, Expression.withConstant, Expression.coefficient]

variable [Neg K] [Sub K]

inductive Retargets (before : Tableau K) (plus minus : Symbol) (delta : K) (after : Tableau K) : Prop
  | plus (isBasic : before.isBasic plus = true)
      (shifts : before.Shifts after fun basic row =>
        if plus = basic then row.constant + delta else row.constant)
  | minus (isBasic : before.isBasic minus = true)
      (shifts : before.Shifts after fun basic row =>
        if minus = basic then row.constant + -delta else row.constant)
  | uses (notPlus : before.isBasic plus = false) (notMinus : before.isBasic minus = false)
      (shifts : before.Shifts after fun basic row =>
        if basic ∈ before.column minus then row.constant + row.coefficient minus * delta
        else row.constant)

theorem retargets_shiftTarget (plus minus : Symbol) (plusRestricted : plus.isRestricted = true)
    (minusRestricted : minus.isRestricted = true) (delta : K) :
    before.Retargets plus minus delta (before.shiftTarget plus minus delta) := by
  unfold shiftTarget
  cases plusRow : before.row? plus with
  | some row =>
    exact .plus (isBasic_of_row? plusRow) (shifts_shiftError plusRow plusRestricted delta)
  | none =>
    cases minusRow : before.row? minus with
    | some row =>
      exact .minus (isBasic_of_row? minusRow) (shifts_shiftError minusRow minusRestricted (-delta))
    | none =>
      exact .uses ((before.not_isBasic_iff plus).mpr plusRow)
        ((before.not_isBasic_iff minus).mpr minusRow)
        (before.shifts_foldl_shiftUse minus delta (before.column_nodup minus))

omit [LT K] [DecidableLT K] [Sub K] in
theorem Retargets.fits {plus minus : Symbol} {delta : K}
    (retargets : before.Retargets plus minus delta after) (fits : before.Fits bound) :
    after.Fits bound := by
  cases retargets with
  | plus _ shifts => exact shifts.fits fits
  | minus _ shifts => exact shifts.fits fits
  | uses _ _ shifts => exact shifts.fits fits

end Targets

/-! Costs -/

structure Recosts (before after : Tableau K) : Prop where
  rows : ∀ basic, basic ≠ .mainObjective → after.row? basic = before.row? basic
  bases : ∀ basic, after.isBasic basic = before.isBasic basic

theorem Recosts.refl (tableau : Tableau K) : tableau.Recosts tableau :=
  ⟨fun _ _ => rfl, fun _ => rfl⟩

theorem Recosts.trans (first : before.Recosts middle) (second : middle.Recosts after) :
    before.Recosts after where
  rows basic other := (second.rows basic other).trans (first.rows basic other)
  bases basic := (second.bases basic).trans (first.bases basic)

section Costs

variable [Scalar K]

theorem recosts_setTermInRow (tableau : Tableau K) (symbol : Symbol) (value : K) :
    tableau.Recosts (tableau.setTermInRow .mainObjective symbol value) where
  rows basic other := by rw [row?_setTermInRow, if_neg (Ne.symm other)]
  bases basic := isBasic_setTermInRow ..

theorem recosts_chargeObjective (charge : Option (Charge K)) (tableau : Tableau K) :
    tableau.Recosts (Solver.chargeObjective charge tableau) := by
  cases charge with
  | none => exact Recosts.refl tableau
  | some cost =>
    unfold Solver.chargeObjective
    dsimp only
    induction cost.symbols generalizing tableau with
    | nil => exact Recosts.refl tableau
    | cons symbol rest ih =>
      exact (tableau.recosts_setTermInRow symbol cost.coefficient).trans (ih _)

theorem Fits.setTermsInRow (fits : before.Fits bound) {symbols : List Symbol}
    (known : ∀ symbol ∈ symbols, symbol.Known bound)
    (notBasic : ∀ symbol ∈ symbols, before.isBasic symbol = false) (basic : Symbol) (value : K) :
    (symbols.foldl (fun current symbol => current.setTermInRow basic symbol value)
      before).Fits bound := by
  induction symbols generalizing before with
  | nil => exact fits
  | cons symbol rest ih =>
    refine ih (fits.setTermInRow (known symbol List.mem_cons_self)
      (notBasic symbol List.mem_cons_self) basic value) ?_ ?_
    · exact fun other member => known other (List.mem_cons_of_mem symbol member)
    · intro other member
      rw [isBasic_setTermInRow]
      exact notBasic other (List.mem_cons_of_mem symbol member)

theorem Fits.chargeObjective (fits : before.Fits bound) {charge : Option (Charge K)}
    (known : ∀ cost, charge = some cost → ∀ symbol ∈ cost.symbols, symbol.Known bound)
    (notBasic : ∀ cost, charge = some cost → ∀ symbol ∈ cost.symbols,
      before.isBasic symbol = false) :
    (Solver.chargeObjective charge before).Fits bound := by
  cases charge with
  | none => exact fits
  | some cost => exact fits.setTermsInRow (known cost rfl) (notBasic cost rfl) _ _

variable [Add K] [Neg K] [Mul K]

theorem recosts_refundError (tableau : Tableau K) (coefficient : K) (symbol : Symbol) :
    tableau.Recosts (tableau.refundError coefficient symbol) := by
  unfold refundError
  split
  · exact ⟨fun basic other => by rw [row?_addScaledToRow, if_neg (Ne.symm other)],
      fun basic => isBasic_addScaledToRow ..⟩
  · exact ⟨fun basic other => by rw [row?_addTermToRow, if_neg (Ne.symm other)],
      fun basic => isBasic_addTermToRow ..⟩

theorem Within.refundError {allowed : Symbol → Prop} (within : before.Within allowed)
    (indexed : before.Indexed) {symbol : Symbol} (symbolAllowed : allowed symbol)
    (coefficient : K) : (before.refundError coefficient symbol).Within allowed := by
  unfold Tableau.refundError
  split
  · rename_i row found
    exact within.addScaledToRow (fun other member =>
      within other (Or.inr (indexed.hasColumn_of_occurs ⟨row, found, member⟩))) _ _
  · exact within.addTermToRow symbolAllowed _ _

theorem Fits.refundError (fits : before.Fits bound) {symbol : Symbol} (known : symbol.Known bound)
    (coefficient : K) : (before.refundError coefficient symbol).Fits bound := by
  have within := fits.within.refundError fits.indexed known coefficient
  unfold Tableau.refundError at within ⊢
  split at within
  · rename_i row found
    exact ⟨fits.indexed.addScaledToRow (fun _ => fits.indexed.not_basic_of_mem found) _,
      (isBasic_addScaledToRow ..).trans fits.objective, within⟩
  · rename_i missing
    exact ⟨fits.indexed.addTermToRow ((before.not_isBasic_iff symbol).mpr missing) _,
      (isBasic_addTermToRow ..).trans fits.objective, within⟩

theorem foldl_refundError {symbols : List Symbol} (fits : before.Fits bound)
    (known : ∀ symbol ∈ symbols, symbol.Known bound) (coefficient : K) :
    before.Recosts (symbols.foldl (Tableau.refundError coefficient) before) ∧
      (symbols.foldl (Tableau.refundError coefficient) before).Fits bound := by
  induction symbols generalizing before with
  | nil => exact ⟨Recosts.refl before, fits⟩
  | cons symbol rest ih =>
    have first := fits.refundError (known symbol List.mem_cons_self) coefficient
    obtain ⟨recosts, fitsAfter⟩ :=
      ih first fun other member => known other (List.mem_cons_of_mem symbol member)
    exact ⟨(before.recosts_refundError coefficient symbol).trans recosts, fitsAfter⟩

theorem Within.refundErrors {allowed : Symbol → Prop} {symbols : List Symbol}
    (within : before.Within allowed) (fits : before.Fits bound)
    (known : ∀ symbol ∈ symbols, symbol.Known bound)
    (allAllowed : ∀ symbol ∈ symbols, allowed symbol) (coefficient : K) :
    (symbols.foldl (Tableau.refundError coefficient) before).Within allowed := by
  induction symbols generalizing before with
  | nil => exact within
  | cons symbol rest ih =>
    exact ih
      (within.refundError fits.indexed (allAllowed symbol List.mem_cons_self) coefficient)
      (fits.refundError (known symbol List.mem_cons_self) coefficient)
      (fun other member => known other (List.mem_cons_of_mem symbol member))
      fun other member => allAllowed other (List.mem_cons_of_mem symbol member)

end Costs

end Tableau

end SoftSimplex
