import SoftSimplex.Proofs.Artificial
import SoftSimplex.Proofs.Ledger

/-!
Which symbols a tableau knows. A tableau fits a bound on ids if its index is right, the main
objective has a row and all else is external or was made before the bound; the operations of a
solver keep this.
-/

namespace SoftSimplex

def Symbol.Known (bound : Nat) (symbol : Symbol) : Prop :=
  symbol = .mainObjective ∨ symbol.isExternal = true ∨
    (symbol.kind = .slack ∨ symbol.kind = .dummy) ∧ symbol.id < bound

theorem Symbol.Known.mono {bound later : Nat} {symbol : Symbol} (known : symbol.Known bound)
    (grows : bound ≤ later) : symbol.Known later :=
  known.imp_right (Or.imp_right fun made => ⟨made.1, Nat.lt_of_lt_of_le made.2 grows⟩)

namespace Tableau

variable {K : Type} {before after : Tableau K} {allowed : Symbol → Prop}

def Within (tableau : Tableau K) (allowed : Symbol → Prop) : Prop :=
  ∀ symbol, tableau.isBasic symbol = true ∨ tableau.hasColumn symbol = true → allowed symbol

theorem Within.imp {tableau : Tableau K} {wider : Symbol → Prop} (within : tableau.Within allowed)
    (weaker : ∀ symbol, allowed symbol → wider symbol) : tableau.Within wider :=
  fun symbol present => weaker symbol (within symbol present)

theorem Within.addRow (within : before.Within allowed) {basic : Symbol} {row : Expression K}
    (basicAllowed : allowed basic) (rowAllowed : ∀ symbol ∈ row.symbols, allowed symbol) :
    (before.addRow basic row).Within allowed := by
  intro symbol present
  rw [isBasic_addRow, hasColumn_addRow] at present
  rcases present with (rfl | isBasic) | member | column
  · exact basicAllowed
  · exact within symbol (Or.inl isBasic)
  · exact rowAllowed symbol member
  · exact within symbol (Or.inr column)

theorem Within.removeRow (within : before.Within allowed) (basic : Symbol) :
    (before.removeRow basic).Within allowed := by
  intro symbol present
  rw [isBasic_removeRow, hasColumn_removeRow] at present
  exact within symbol (present.imp_left And.right)

theorem Within.removeColumn (within : before.Within allowed) (indexed : before.Indexed)
    (symbol : Symbol) : (before.removeColumn symbol).Within allowed := by
  intro other present
  rw [isBasic_removeColumn indexed, hasColumn_removeColumn] at present
  exact within other (present.imp_right And.right)

theorem isBasic_of_row?_changed {basic : Symbol} {change : Expression K → Expression K}
    (changed : ∀ other, after.row? other =
      if basic = other then (before.row? basic).map change else before.row? other)
    (other : Symbol) : after.isBasic other = before.isBasic other := by
  rw [Bool.eq_iff_iff, isBasic_iff, isBasic_iff, changed]
  by_cases same : basic = other
  · subst same
    cases before.row? basic <;> simp
  · simp [same]

section Updates

variable [Scalar K]

theorem isBasic_setTermInRow (tableau : Tableau K) (basic symbol other : Symbol) (value : K) :
    (tableau.setTermInRow basic symbol value).isBasic other = tableau.isBasic other :=
  isBasic_of_row?_changed (fun other => tableau.row?_setTermInRow basic symbol other value) other

theorem isBasic_addTermToRow [Add K] (tableau : Tableau K) (basic symbol other : Symbol)
    (amount : K) :
    (tableau.addTermToRow basic symbol amount).isBasic other = tableau.isBasic other :=
  isBasic_of_row?_changed (fun other => tableau.row?_addTermToRow basic symbol other amount) other

theorem isBasic_addScaledToRow [Add K] [Mul K] (tableau : Tableau K) (basic other : Symbol)
    (expression : Expression K) (factor : K) :
    (tableau.addScaledToRow basic expression factor).isBasic other = tableau.isBasic other :=
  isBasic_of_row?_changed
    (fun other => tableau.row?_addScaledToRow basic other expression factor) other

theorem Within.setTermInRow (within : before.Within allowed) {symbol : Symbol}
    (symbolAllowed : allowed symbol) (basic : Symbol) (value : K) :
    (before.setTermInRow basic symbol value).Within allowed := by
  intro other present
  rw [isBasic_setTermInRow] at present
  rcases present with isBasic | column
  · exact within other (Or.inl isBasic)
  · unfold Tableau.setTermInRow at column
    split at column
    · exact within other (Or.inr column)
    · rcases (hasColumn_noteChange _ _ _ _ _).mp column with ⟨rfl, _⟩ | old
      · exact symbolAllowed
      · exact within other (Or.inr old)

theorem Within.addTermToRow [Add K] (within : before.Within allowed) {symbol : Symbol}
    (symbolAllowed : allowed symbol) (basic : Symbol) (amount : K) :
    (before.addTermToRow basic symbol amount).Within allowed := by
  intro other present
  rw [isBasic_addTermToRow] at present
  rcases present with isBasic | column
  · exact within other (Or.inl isBasic)
  · unfold Tableau.addTermToRow at column
    split at column
    · exact within other (Or.inr column)
    · rcases (hasColumn_noteChange _ _ _ _ _).mp column with ⟨rfl, _⟩ | old
      · exact symbolAllowed
      · exact within other (Or.inr old)

theorem Within.addScaledToRow [Add K] [Mul K] (within : before.Within allowed)
    {expression : Expression K} (allAllowed : ∀ symbol ∈ expression.symbols, allowed symbol)
    (basic : Symbol) (factor : K) :
    (before.addScaledToRow basic expression factor).Within allowed := by
  intro other present
  rw [isBasic_addScaledToRow] at present
  rcases present with isBasic | column
  · exact within other (Or.inl isBasic)
  · unfold Tableau.addScaledToRow at column
    split at column
    · exact within other (Or.inr column)
    · rcases hasColumn_of_noteReport _ _ column with reported | old
      · exact allAllowed other (mem_added_of_report reported)
      · exact within other (Or.inr old)

end Updates

section Exchanges

variable [Add K] [Mul K] [Scalar K]

theorem Defines.within {symbol : Symbol} {solved : Expression K}
    (defines : before.Defines symbol solved after) (within : before.Within allowed)
    (symbolAllowed : allowed symbol) (solvedAllowed : ∀ other ∈ solved.symbols, allowed other) :
    after.Within allowed := by
  intro other present
  rcases present with isBasic | column
  · rcases (defines.isBasic other).mp isBasic with rfl | old
    · exact symbolAllowed
    · exact within other (Or.inl old)
  · rcases defines.columns other column with member | ⟨_, old⟩
    · exact solvedAllowed other member
    · exact within other (Or.inr old)

variable [One K] [Neg K] [Div K]

theorem Pivots.within {entering leaving : Symbol} {row solved : Expression K}
    (pivots : before.Pivots entering leaving row solved after) (indexed : before.Indexed)
    (within : before.Within allowed) : after.Within allowed := by
  have rowAllowed : ∀ symbol ∈ row.symbols, allowed symbol := fun symbol member =>
    within symbol (Or.inr (indexed.hasColumn_of_occurs ⟨row, pivots.leaves, member⟩))
  have leavingAllowed := within leaving (Or.inl (isBasic_of_row? pivots.leaves))
  exact pivots.defines.within (within.removeRow leaving) (rowAllowed entering pivots.mem)
    (Expression.forall_symbols_exchange pivots.solves leavingAllowed rowAllowed)

theorem Introduces.within {subject : Symbol} {row solved : Expression K}
    (introduces : before.Introduces subject row solved after) (within : before.Within allowed)
    (subjectAllowed : allowed subject) (rowAllowed : ∀ symbol ∈ row.symbols, allowed symbol) :
    after.Within allowed := by
  obtain ⟨reciprocal, solves⟩ := introduces.solves
  refine introduces.defines.within within subjectAllowed ?_
  intro other member
  exact rowAllowed other ((Expression.mem_symbols_solveFor solves other).mp member).2

end Exchanges

/-- A tableau of a solver that has given out the ids below a bound. -/
structure Fits (tableau : Tableau K) (bound : Nat) : Prop where
  indexed : tableau.Indexed
  objective : tableau.isBasic .mainObjective = true
  within : tableau.Within (Symbol.Known bound)

namespace Fits

variable {tableau : Tableau K} {bound : Nat}

theorem mono (fits : tableau.Fits bound) {later : Nat} (grows : bound ≤ later) :
    tableau.Fits later :=
  { fits with within := fits.within.imp fun _ known => known.mono grows }

theorem mainObjective_noColumn (fits : tableau.Fits bound) :
    tableau.hasColumn .mainObjective = false :=
  fits.indexed.parametric _ fits.objective

theorem known_of_column (fits : tableau.Fits bound) {symbol : Symbol}
    (column : tableau.hasColumn symbol = true) :
    symbol.isExternal = true ∨ (symbol.kind = .slack ∨ symbol.kind = .dummy) ∧ symbol.id < bound := by
  refine (fits.within symbol (Or.inr column)).resolve_left ?_
  rintro rfl
  rw [fits.mainObjective_noColumn] at column
  cases column

theorem fresh (fits : tableau.Fits bound) {symbol : Symbol} (later : bound ≤ symbol.id)
    (notObjective : symbol ≠ .mainObjective) (isInternal : symbol.isExternal = false) :
    tableau.isBasic symbol = false ∧ tableau.hasColumn symbol = false := by
  have unknown : ¬ symbol.Known bound := by
    rintro (same | isExternal | ⟨_, earlier⟩)
    · exact notObjective same
    · rw [isInternal] at isExternal
      cases isExternal
    · omega
  constructor <;> rw [← Bool.not_eq_true] <;> intro present
  · exact unknown (fits.within symbol (Or.inl present))
  · exact unknown (fits.within symbol (Or.inr present))

theorem setTermInRow [Scalar K] (fits : tableau.Fits bound) {symbol : Symbol}
    (known : symbol.Known bound) (notBasic : tableau.isBasic symbol = false) (basic : Symbol)
    (value : K) : (tableau.setTermInRow basic symbol value).Fits bound where
  indexed := fits.indexed.setTermInRow notBasic value
  objective := (isBasic_setTermInRow ..).trans fits.objective
  within := fits.within.setTermInRow known basic value

theorem removeColumn (fits : tableau.Fits bound) {symbol : Symbol}
    (isInternal : symbol.isExternal = false) : (tableau.removeColumn symbol).Fits bound where
  indexed := fits.indexed.removeColumn isInternal
  objective := (isBasic_removeColumn fits.indexed ..).trans fits.objective
  within := fits.within.removeColumn fits.indexed symbol

theorem removeRow (fits : tableau.Fits bound) {symbol : Symbol}
    (different : symbol ≠ .mainObjective) : (tableau.removeRow symbol).Fits bound where
  indexed := fits.indexed.removeRow symbol
  objective := (isBasic_removeRow ..).mpr ⟨Ne.symm different, fits.objective⟩
  within := fits.within.removeRow symbol

section Exchanges

variable [Add K] [Mul K] [One K] [Neg K] [Div K] [Scalar K] {row solved : Expression K}

theorem pivot {entering leaving : Symbol} (fits : before.Fits bound)
    (pivots : before.Pivots entering leaving row solved after)
    (different : leaving ≠ .mainObjective) : after.Fits bound where
  indexed := pivots.indexed
  objective := (pivots.isBasic_after _).mpr (Or.inr ⟨Ne.symm different, fits.objective⟩)
  within := pivots.within fits.indexed fits.within

theorem introduce {subject : Symbol} (fits : before.Fits bound)
    (introduces : before.Introduces subject row solved after) (occurs : subject ∈ row.symbols)
    (known : ∀ symbol ∈ row.symbols, symbol.Known bound) : after.Fits bound where
  indexed := introduces.defines.indexed
  objective := (introduces.defines.isBasic _).mpr (Or.inr fits.objective)
  within := introduces.within fits.within (known subject occurs) known

end Exchanges

end Fits

section Carrying

variable {bound : Nat} {artificial objective : Symbol}

structure FitsBesides (tableau : Tableau K) (bound : Nat) (artificial objective : Symbol) : Prop where
  indexed : tableau.Indexed
  mainBasic : tableau.isBasic .mainObjective = true
  objectiveBasic : tableau.isBasic objective = true
  within : tableau.Within fun symbol =>
    symbol.Known bound ∨ symbol = artificial ∨ symbol = objective

theorem FitsBesides.removeRow (fitsBesides : before.FitsBesides bound artificial objective)
    (mainApart : .mainObjective ≠ artificial) (apart : objective ≠ artificial) :
    (before.removeRow artificial).FitsBesides bound artificial objective where
  indexed := fitsBesides.indexed.removeRow artificial
  mainBasic := (isBasic_removeRow ..).mpr ⟨mainApart, fitsBesides.mainBasic⟩
  objectiveBasic := (isBasic_removeRow ..).mpr ⟨apart, fitsBesides.objectiveBasic⟩
  within := fitsBesides.within.removeRow artificial

theorem FitsBesides.removeColumn (fitsBesides : before.FitsBesides bound artificial objective)
    (internal : artificial.isExternal = false) :
    (before.removeColumn artificial).FitsBesides bound artificial objective where
  indexed := fitsBesides.indexed.removeColumn internal
  mainBasic := (isBasic_removeColumn fitsBesides.indexed ..).trans fitsBesides.mainBasic
  objectiveBasic := (isBasic_removeColumn fitsBesides.indexed ..).trans fitsBesides.objectiveBasic
  within := fitsBesides.within.removeColumn fitsBesides.indexed artificial

theorem FitsBesides.fits (fitsBesides : before.FitsBesides bound artificial objective)
    (noRow : before.isBasic artificial = false) (noColumn : before.hasColumn artificial = false)
    (apart : objective ≠ .mainObjective) {later : Nat} (grows : bound ≤ later) :
    (before.removeRow objective).Fits later where
  indexed := fitsBesides.indexed.removeRow objective
  objective := (isBasic_removeRow ..).mpr ⟨Ne.symm apart, fitsBesides.mainBasic⟩
  within := by
    intro symbol present
    rw [isBasic_removeRow, hasColumn_removeRow] at present
    rcases fitsBesides.within symbol (present.imp_left And.right) with held | rfl | rfl
    · exact held.mono grows
    · rw [noRow, noColumn] at present
      simp at present
    · rw [fitsBesides.indexed.parametric symbol fitsBesides.objectiveBasic] at present
      simp at present

variable [One K] [Add K] [Neg K] [Mul K] [Div K] [Scalar K] {row solved : Expression K}

theorem FitsBesides.pivot {entering : Symbol} {middle : Tableau K}
    (fitsBesides : before.FitsBesides bound artificial objective)
    (pivots : before.Pivots entering artificial row solved middle)
    (mainApart : .mainObjective ≠ artificial) (apart : objective ≠ artificial) :
    middle.FitsBesides bound artificial objective where
  indexed := pivots.indexed
  mainBasic := (pivots.isBasic_after _).mpr (Or.inr ⟨mainApart, fitsBesides.mainBasic⟩)
  objectiveBasic := (pivots.isBasic_after _).mpr (Or.inr ⟨apart, fitsBesides.objectiveBasic⟩)
  within := pivots.within fitsBesides.indexed fitsBesides.within

theorem FitsBesides.fits_of_expels (fitsBesides : before.FitsBesides bound artificial objective)
    (isArtificial : artificial.kind = .artificial) (distinct : objective ≠ artificial)
    (apart : objective ≠ .mainObjective) {later : Nat} (grows : bound ≤ later)
    (expels : before.Expels artificial objective after) : after.Fits later := by
  have internal : artificial.isExternal = false := Symbol.internal_of_kind isArtificial rfl
  have mainApart : Symbol.mainObjective ≠ artificial := by
    rintro rfl
    cases isArtificial
  have columnGone : ∀ tableau : Tableau K,
      (tableau.removeColumn artificial).hasColumn artificial = false := by
    intro tableau
    rw [← Bool.not_eq_true, hasColumn_removeColumn]
    simp
  cases expels with
  | parametric missing =>
    refine (fitsBesides.removeColumn internal).fits ?_ (columnGone _) apart grows
    exact (isBasic_removeColumn fitsBesides.indexed ..).trans ((before.not_isBasic_iff _).mpr missing)
  | constant found isConstant =>
    refine (fitsBesides.removeRow mainApart distinct).fits ?_ ?_ apart grows
    · rw [← Bool.not_eq_true, isBasic_removeRow]
      simp
    · exact (hasColumn_removeRow ..).trans
        (fitsBesides.indexed.parametric _ (isBasic_of_row? found))
  | pivot enters pivots =>
    have middle := fitsBesides.pivot pivots mainApart distinct
    refine (middle.removeColumn internal).fits ?_ (columnGone _) apart grows
    refine (isBasic_removeColumn middle.indexed ..).trans ?_
    rw [← Bool.not_eq_true, pivots.isBasic_after]
    simp [Ne.symm (pivots.different fitsBesides.indexed)]

end Carrying

section Passing

variable [Zero K] [One K] [Add K] [Neg K] [Mul K] [Div K] [LT K] [DecidableLT K] [Scalar K]
  {bound : Nat}

theorem within_of_improvements {objective : Symbol} {allowed : Symbol → Prop}
    (improved : Relation.ReflTransGen (Improves objective) before after) (indexed : before.Indexed)
    (within : before.Within allowed) : after.Within allowed := by
  refine (improvements_keep (fun current => current.Indexed ∧ current.Within allowed)
    improved ?_ ⟨indexed, within⟩).2
  rintro earlier later ⟨_, _, _, _, _, _, _, _, pivots⟩ ⟨earlierIndexed, earlierWithin⟩
  exact ⟨pivots.indexed, pivots.within earlierIndexed earlierWithin⟩

variable {artificial objective : Symbol} {row : Expression K}

theorem Entry.fitsBesides (entry : before.Entry artificial objective row) (fits : before.Fits bound)
    (known : ∀ symbol ∈ row.symbols, symbol.Known bound) {reached : Tableau K}
    (improved : Relation.ReflTransGen (Improves objective)
      (before.withArtificial artificial objective row) reached) :
    reached.FitsBesides bound artificial objective where
  indexed := indexed_of_improvements improved entry.indexed_withArtificial
  objectiveBasic := entry.objective_stays improved
  mainBasic := by
    rw [isBasic_of_improvements improved rfl, withArtificial, isBasic_addRow, isBasic_addRow]
    exact Or.inr (Or.inr fits.objective)
  within := by
    refine within_of_improvements improved entry.indexed_withArtificial ?_
    have rowAllowed : ∀ symbol ∈ row.symbols,
        symbol.Known bound ∨ symbol = artificial ∨ symbol = objective :=
      fun symbol member => Or.inl (known symbol member)
    have oldWithin := fits.within.imp fun symbol held =>
      (Or.inl held : symbol.Known bound ∨ symbol = artificial ∨ symbol = objective)
    exact (oldWithin.addRow (Or.inr (Or.inr rfl)) rowAllowed).addRow (Or.inr (Or.inl rfl)) rowAllowed

theorem Entry.fits_of_passes (entry : before.Entry artificial objective row)
    (fits : before.Fits bound) (known : ∀ symbol ∈ row.symbols, symbol.Known bound)
    (apart : objective ≠ .mainObjective) {later : Nat} (grows : bound ≤ later)
    (passes : before.Passes artificial objective row after) : after.Fits later := by
  obtain ⟨least, reached, minimized, _, expels⟩ := passes
  exact (entry.fitsBesides fits known minimized.improved).fits_of_expels entry.isArtificial
    entry.distinct apart grows expels

end Passing

end Tableau

end SoftSimplex
