import Mathlib.Algebra.Order.Group.MinMax
import SoftSimplex.Proofs.Encoding

/-!
Assignments of the variables that meet all that is required. Over exact numbers they are those that
the tableau admits: they extend to a solution in which no slack is negative and every dummy is zero.
-/

namespace SoftSimplex

variable {K : Type} [Field K] [LinearOrder K] {valueOf : Variable → K} {assignment : Symbol → K}

/-- The variables as given, no slack negative, every dummy zero. -/
structure Extends (valueOf : Variable → K) (assignment : Symbol → K) : Prop where
  unknowns : ∀ unknown : Variable, assignment unknown.symbol = valueOf unknown
  slacks : ∀ symbol : Symbol, symbol.kind = .slack → 0 ≤ assignment symbol
  dummies : ∀ symbol : Symbol, symbol.kind = .dummy → assignment symbol = 0

/-! Shares -/

section Shares

variable {entry : Installed K}

def Installed.share (entry : Installed K) (value : K) (symbol : Symbol) : K :=
  if entry.constraint.isRequired then
    if entry.constraint.isInequality then value else -value
  else if symbol = entry.marker then max value 0 else max (-value) 0

variable [IsStrictOrderedRing K]

theorem Installed.balance_of_share {value : K}
    (shares : ∀ symbol ∈ entry.symbols, assignment symbol = entry.share value symbol) :
    entry.balance assignment = value := by
  have marker := shares entry.marker entry.marker_mem_symbols
  unfold balance
  split
  · rename_i required
    split
    · rename_i inequality
      simpa only [share, required, inequality, if_true] using marker
    · rename_i equality
      rw [marker]
      simp only [share, required, equality, if_true, if_false, Bool.false_eq_true, neg_neg]
  · rename_i soft
    have error := shares entry.error (Installed.error_mem_symbols (by simpa using soft))
    have different := entry.marker_ne_error
    rw [marker, error]
    simp only [share, soft, if_false, if_true, Bool.false_eq_true, Ne.symm different]
    exact max_zero_sub_max_neg_zero_eq_self value

end Shares

theorem Demand.isSatisfied_iff [IsStrictOrderedRing K] (demand : Demand K) :
    demand.isSatisfied valueOf 0 = true ↔
      if demand.isInequality then 0 ≤ demand.expression.evaluate valueOf
      else demand.expression.evaluate valueOf = 0 := by
  unfold isSatisfied
  dsimp only
  rw [neg_zero]
  split
  · exact decide_eq_true_iff
  · rw [decide_eq_true_iff]
    exact ⟨fun holds => le_antisymm holds.2 holds.1, fun zero => ⟨zero.ge, zero.le⟩⟩

theorem Extends.satisfied [IsStrictOrderedRing K] {entry : Installed K}
    (extending : Extends valueOf assignment) (external : entry.constraint.External)
    (required : entry.constraint.isRequired = true)
    (kind : entry.marker.kind = entry.constraint.markerKind)
    (balanced : entry.constraint.expression.valueAt assignment = entry.balance assignment) :
    entry.constraint.isSatisfied valueOf 0 = true := by
  rw [← Expression.evaluate_eq_valueAt external extending.unknowns, Installed.balance, required,
    if_pos rfl] at balanced
  rw [Demand.isSatisfied_iff, balanced]
  split
  · rename_i inequality
    refine extending.slacks entry.marker ?_
    simpa [Demand.markerKind, inequality] using kind
  · rename_i equality
    rw [extending.dummies entry.marker, neg_zero]
    simpa [Demand.markerKind, required, equality] using kind

namespace Solver

variable {solver : Solver K} {offsets : Nat → K}

/-- Every constraint that was required when it was added holds. -/
def RequirementsHold (solver : Solver K) (valueOf : Variable → K) : Prop :=
  ∀ key entry, solver.installed.get? key = some entry → entry.constraint.isRequired = true →
    entry.constraint.isSatisfied valueOf 0 = true

instance (solver : Solver K) (valueOf : Variable → K) :
    Decidable (solver.RequirementsHold valueOf) :=
  decidable_of_iff (∀ item ∈ solver.installed.entries, item.2.constraint.isRequired = true →
      item.2.constraint.isSatisfied valueOf 0 = true) <| by
    constructor
    · exact fun holds key entry found =>
        holds (key, entry) ((solver.installed.mem_entries_iff key entry).mpr found)
    · exact fun holds item member =>
        holds item.1 item.2 ((solver.installed.mem_entries_iff item.1 item.2).mp member)

def spread (solver : Solver K) (offsets : Nat → K) (valueOf : Variable → K) (symbol : Symbol) : K :=
  if symbol.isExternal then valueOf ⟨symbol.id⟩
  else
    match solver.installed.entries.find? fun item => decide (symbol ∈ item.2.symbols) with
    | some (key, entry) =>
      entry.share (entry.constraint.expression.evaluate valueOf + offsets key) symbol
    | none => 0

theorem spread_variable (unknown : Variable) :
    solver.spread offsets valueOf unknown.symbol = valueOf unknown := rfl

theorem spread_symbol (sound : solver.Sound) {key : Nat} {entry : Installed K}
    (found : solver.installed.get? key = some entry) {symbol : Symbol}
    (member : symbol ∈ entry.symbols) :
    solver.spread offsets valueOf symbol =
      entry.share (entry.constraint.expression.evaluate valueOf + offsets key) symbol := by
  have isInternal := ((sound.books.entries key entry found).symbol_known member).2.1
  unfold spread
  rw [isInternal, if_neg Bool.false_ne_true]
  cases search : solver.installed.entries.find? fun item => decide (symbol ∈ item.2.symbols) with
  | none =>
    have inEntries := (solver.installed.mem_entries_iff key entry).mpr found
    simpa [member] using List.find?_eq_none.mp search _ inEntries
  | some item =>
    obtain ⟨other, owner⟩ := item
    have owned := (solver.installed.mem_entries_iff other owner).mp (List.mem_of_find?_eq_some search)
    have ownerMember : symbol ∈ owner.symbols := by simpa using List.find?_some search
    have same := sound.books.apart key other entry owner found owned symbol member ownerMember
    subst same
    have sameEntry : owner = entry := Option.some.inj (owned.symm.trans found)
    subst sameEntry
    rfl

theorem spread_cases (solver : Solver K) (offsets : Nat → K) (valueOf : Variable → K)
    {symbol : Symbol} (isInternal : symbol.isExternal = false) :
    (∃ key entry, solver.installed.get? key = some entry ∧ symbol ∈ entry.symbols) ∨
      solver.spread offsets valueOf symbol = 0 := by
  cases search : solver.installed.entries.find? fun item => decide (symbol ∈ item.2.symbols) with
  | none =>
    refine Or.inr ?_
    unfold spread
    rw [isInternal, if_neg Bool.false_ne_true, search]
  | some item =>
    refine Or.inl ⟨item.1, item.2, ?_, by simpa using List.find?_some search⟩
    exact (solver.installed.mem_entries_iff _ _).mp (List.mem_of_find?_eq_some search)

theorem spread_artificial (sound : solver.Sound) (offsets : Nat → K) (valueOf : Variable → K)
    {symbol : Symbol} (isArtificial : symbol.kind = .artificial) :
    solver.spread offsets valueOf symbol = 0 := by
  have isInternal : symbol.isExternal = false := Symbol.internal_of_kind isArtificial rfl
  rcases solver.spread_cases offsets valueOf isInternal with ⟨key, entry, found, member⟩ | zero
  · have kind := (sound.books.entries key entry found).symbol_kind member
    simp [isArtificial] at kind
  · exact zero

variable [IsStrictOrderedRing K]

theorem balanced_spread (sound : solver.Sound) (offsets : Nat → K) (valueOf : Variable → K) :
    solver.Balanced offsets (solver.spread offsets valueOf) := by
  intro key entry found
  have external := (sound.books.entries key entry found).external
  rw [← Expression.evaluate_eq_valueAt external fun unknown => spread_variable unknown]
  refine (Installed.balance_of_share ?_).symm
  exact fun symbol member => spread_symbol sound found member

theorem spread_extends (sound : solver.Sound)
    (unmoved : ∀ key entry, solver.installed.get? key = some entry →
      entry.constraint.isRequired = true → offsets key = 0)
    (requirements : solver.RequirementsHold valueOf) :
    Extends valueOf (solver.spread offsets valueOf) := by
  refine ⟨spread_variable, ?_, ?_⟩
  · intro symbol isSlack
    have isInternal : symbol.isExternal = false := Symbol.internal_of_kind isSlack rfl
    rcases solver.spread_cases offsets valueOf isInternal with ⟨key, entry, found, member⟩ | zero
    · rw [spread_symbol sound found member]
      unfold Installed.share
      split
      · rename_i required
        have holds := (Demand.isSatisfied_iff _).mp (requirements key entry found required)
        rw [unmoved key entry found required, add_zero]
        split
        · rename_i inequality
          rwa [if_pos inequality] at holds
        · rename_i equality
          rw [if_neg equality] at holds
          rw [holds, neg_zero]
      · split <;> exact le_max_right _ _
    · exact zero.ge
  · intro symbol isDummy
    have isInternal : symbol.isExternal = false := Symbol.internal_of_kind isDummy rfl
    rcases solver.spread_cases offsets valueOf isInternal with ⟨key, entry, found, member⟩ | zero
    · obtain ⟨required, equality⟩ :=
        (sound.books.entries key entry found).required_of_dummy member isDummy
      have holds := (Demand.isSatisfied_iff _).mp (requirements key entry found required)
      rw [equality, if_neg Bool.false_ne_true] at holds
      rw [spread_symbol sound found member, Installed.share, required, equality, if_pos rfl,
        if_neg Bool.false_ne_true, unmoved key entry found required, holds, add_zero, neg_zero]
    · exact zero

omit [IsStrictOrderedRing K] in
theorem spread_nonneg (sound : solver.Sound)
    (extending : Extends valueOf (solver.spread offsets valueOf)) {symbol : Symbol}
    (pivotable : symbol.isPivotable = true) : 0 ≤ solver.spread offsets valueOf symbol := by
  cases kind : symbol.kind with
  | slack => exact extending.slacks symbol kind
  | artificial => exact (spread_artificial sound offsets valueOf kind).ge
  | _ => simp [Symbol.isPivotable, kind, SymbolKind.isPivotable] at pivotable

theorem requirementsHold_of_extends (sound : solver.Sound)
    (unmoved : ∀ key entry, solver.installed.get? key = some entry →
      entry.constraint.isRequired = true → offsets key = 0)
    (extending : Extends valueOf assignment) (balanced : solver.Balanced offsets assignment) :
    solver.RequirementsHold valueOf := by
  intro key entry found required
  have enters := sound.books.entries key entry found
  have holds := balanced key entry found
  rw [unmoved key entry found required, add_zero] at holds
  exact extending.satisfied enters.external required enters.marker holds

end Solver

namespace Session

variable [IsStrictOrderedRing K] {session : Session K}

omit [IsStrictOrderedRing K] in
theorem Reachable.encodes (reachable : session.Reachable) :
    session.Sound ∧ ∃ offsets, session.solver.Encodes offsets :=
  reachable.keeps (fun _ _ _ allowed => allowed) (fun solver => ∃ offsets, solver.Encodes offsets)
    (fun config => ⟨_, Solver.encodes_fresh config⟩)
    fun _ _ _ move sound => Solver.Encodes.move move sound

/-- The variables meet what is required exactly if the tableau admits them. -/
theorem requirementsHold_iff_extends (reachable : session.Reachable) (valueOf : Variable → K) :
    session.solver.RequirementsHold valueOf ↔
      ∃ assignment, Extends valueOf assignment ∧ session.solver.tableau.Solves assignment := by
  obtain ⟨sound, offsets, encodes⟩ := reachable.encodes
  constructor
  · intro requirements
    refine ⟨session.solver.spread offsets valueOf,
      Solver.spread_extends sound.solver encodes.required requirements, ?_⟩
    exact (encodes.solves _).mpr (Solver.balanced_spread sound.solver offsets valueOf)
  · rintro ⟨assignment, extending, solves⟩
    exact Solver.requirementsHold_of_extends sound.solver encodes.required extending
      ((encodes.solves assignment).mp solves)

/-- With a required lower bound of one, no solution has the variable at zero. -/
theorem requirementsHold_iff_extends_bounded :
    let session : Session ℚ := (start (.withConfig .standard) .log).replay 8
      [.newVariable none 0, .make (.atLeast (.ofVariable ⟨1⟩) (.ofConstant 1) .required), .add 0]
    session.Reachable ∧
      (∃ assignment, Extends (fun _ => 2) assignment ∧ session.solver.tableau.Solves assignment) ∧
      ¬ ∃ assignment, Extends (fun _ => 0) assignment ∧ session.solver.tableau.Solves assignment := by
  intro session
  have reachable : session.Reachable :=
    (Runs.fresh _ _).replay
      ⟨trivial, Demand.external_lowerBound ⟨1⟩ 1 .required, trivial, trivial⟩
  refine ⟨reachable, ?_, ?_⟩
  · rw [← requirementsHold_iff_extends reachable]
    decide +kernel
  · rw [← requirementsHold_iff_extends reachable]
    decide +kernel

end Session

end SoftSimplex
