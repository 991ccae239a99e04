import SoftSimplex.Proofs.Bases

/-!
Pivots there and back. A pivot on a term of a linked tableau that keeps no zero coefficients
succeeds, lets two symbols change places and restates the same equations. The pivot with the two
symbols the other way round takes it back, whatever terms have cancelled or come in on the way.
-/

namespace SoftSimplex

variable {K : Type}

instance [Field K] [LinearOrder K] (expression : Expression K) : Decidable expression.Pruned :=
  decidable_of_iff (∀ entry ∈ expression.terms.entries, entry.2 ≠ 0) (by
    simp only [Expression.Pruned, ← Table.mem_entries_iff, Prod.forall])

namespace Tableau

instance [Field K] [LinearOrder K] (tableau : Tableau K) : Decidable tableau.Pruned :=
  decidable_of_iff _ (tableau.forall_row?_iff fun _ row => row.Pruned).symm

/-! Pivots end -/

theorem pivot_ends [Zero K] [One K] [Add K] [Neg K] [Mul K] [Div K] [LT K] [DecidableLT K]
    [Scalar K] (entering leaving : Symbol) (limit : Nat) (before : Tableau K) :
    pivot entering leaving limit before ≠ .unfinished := by
  refine Action.bind_ends nofun fun _ _ => Action.bind_ends nofun fun tableau _ => ?_
  cases tableau.row? leaving with
  | none => nofun
  | some row =>
    refine Action.bind_ends nofun fun _ _ => ?_
    cases row.exchange? leaving entering <;> nofun

/-! There and back -/

variable [Field K] [LinearOrder K] {before after : Tableau K} {entering leaving : Symbol}
  {row solved : Expression K}

/-- What a pivot comes to: what was asked of the tableau still holds, the two symbols have changed
places, and all rows together say what they said before. -/
structure Exchanges (before : Tableau K) (entering leaving : Symbol) (after : Tableau K) :
    Prop where
  linked : after.Linked
  pruned : after.Pruned
  enters : after.isBasic entering = true
  leaves : after.isBasic leaving = false
  occurs : after.Occurs leaving entering
  others : ∀ symbol, symbol ≠ entering → symbol ≠ leaving →
    after.isBasic symbol = before.isBasic symbol
  solves : ∀ assignment, after.SolvesAll assignment ↔ before.SolvesAll assignment

theorem Pivots.leaving_mem (pivots : before.Pivots entering leaving row solved after)
    (indexed : before.Indexed) (nonzero : row.coefficient entering ≠ 0) :
    leaving ∈ solved.symbols := by
  by_contra missing
  have absent := pivots.leaving_not_mem indexed
  have atRest := Expression.valueAt_exchange (fun _ => 0) pivots.solves absent nonzero
  have raised := Expression.valueAt_exchange (Function.update (fun _ => 0) leaving 1) pivots.solves
    absent nonzero
  rw [valueAt_update_fresh missing, valueAt_update_fresh absent, Function.update_self,
    Function.update_of_ne (pivots.different indexed), atRest] at raised
  exact zero_ne_one (sub_left_injective raised)

/-- The step: a pivot on a term succeeds, and is an exchange. -/
theorem pivot_exchanges (linked : before.Linked) (pruned : before.Pruned)
    (occurs : before.Occurs entering leaving) (limit : Nat) :
    ∃ after events, pivot entering leaving limit before = .done () after events ∧
      before.Exchanges entering leaving after := by
  have meets : (pivot entering leaving limit before).Meets _ _ := linked.pivot_meets occurs
  obtain ⟨_, after, events, ran, twin, echo, row, solved, pivots⟩ :=
    meets.returns (pivot_ends entering leaving limit before)
  have indexed := linked.indexed_reindexed
  have nonzero := pivots.coefficient_ne_zero (show before.reindexed.Pruned from pruned)
  have rebases := (pivots.rebases indexed nonzero).of_alike linked.alike_reindexed echo
  refine ⟨after, events, ran, rebases.linked, ?_, ?_, ?_, ?_, ?_, rebases.solves⟩
  · intro basic next found
    rw [echo.row?] at found
    exact pivots.pruned_after (show before.reindexed.Pruned from pruned) basic next found
  · exact (rebases.basics entering).mpr (Or.inl rfl)
  · rw [← Bool.not_eq_true, rebases.basics]
    simp [rebases.different.symm]
  · refine (echo.occurs leaving entering).mpr ⟨solved, ?_, pivots.leaving_mem indexed nonzero⟩
    rw [pivots.row?_after, if_pos rfl]
  · intro symbol notEntering notLeaving
    rw [Bool.eq_iff_iff, rebases.basics]
    simp [notEntering, notLeaving]

omit [LinearOrder K] in
theorem Exchanges.coincides {back : Tableau K} (linked : before.Linked)
    (occurs : before.Occurs entering leaving) (there : before.Exchanges entering leaving after)
    (again : after.Exchanges leaving entering back) : back.Coincides before := by
  refine again.linked.coincides linked (fun symbol => ?_) fun assignment solves =>
    (there.solves assignment).mp ((again.solves assignment).mp solves)
  obtain ⟨row, found, member⟩ := occurs
  by_cases isLeaving : symbol = leaving
  · rw [isLeaving, again.enters, isBasic_of_row? found]
  · by_cases isEntering : symbol = entering
    · rw [isEntering, again.leaves, linked.not_basic_of_mem found member]
    · rw [again.others symbol isLeaving isEntering, there.others symbol isEntering isLeaving]

/-- A pivot on any term succeeds, exchanges the two symbols and restates all equations, and the
opposite pivot succeeds too and leads back to the rows of before. -/
theorem pivot_undone (linked : before.Linked) (pruned : before.Pruned)
    (occurs : before.Occurs entering leaving) (limit : Nat) :
    ∃ after events, pivot entering leaving limit before = .done () after events ∧
      before.Exchanges entering leaving after ∧
      ∃ back echoes, pivot leaving entering limit after = .done () back echoes ∧
        back.Coincides before := by
  obtain ⟨after, events, ran, there⟩ := pivot_exchanges linked pruned occurs limit
  obtain ⟨back, echoes, returned, again⟩ :=
    pivot_exchanges there.linked there.pruned there.occurs limit
  exact ⟨after, events, ran, there, back, echoes, returned, there.coincides linked occurs again⟩

/-- Two slacks that cancel on the way there come in again on the way back, in the other order. -/
theorem pivot_undone_cancelled :
    let slacks := (Expression.ofSymbol ⟨1, .slack⟩ (2 : ℚ)).setTerm ⟨2, .slack⟩ 3 |>.1
    let doubled := (Expression.ofSymbol ⟨1, .slack⟩ (4 : ℚ)).setTerm ⟨2, .slack⟩ 6 |>.1
    let start := ((addRow ∅ .mainObjective doubled).addRow ⟨3, .slack⟩
      (slacks.withConstant 5)).addRow ⟨4, .external⟩ (.ofSymbol ⟨2, .slack⟩ 1)
    let there := (pivot ⟨1, .slack⟩ ⟨3, .slack⟩ 0 start).state?
    let back := there.bind fun after => (pivot ⟨3, .slack⟩ ⟨1, .slack⟩ 0 after).state?
    (there.bind (·.row? .mainObjective)).map (·.symbols) = some [⟨3, .slack⟩] ∧
      (back.bind (·.row? .mainObjective)).map (·.symbols) = some [⟨2, .slack⟩, ⟨1, .slack⟩] ∧
      ∃ after events, pivot ⟨1, .slack⟩ ⟨3, .slack⟩ 0 start = .done () after events ∧
        start.Exchanges ⟨1, .slack⟩ ⟨3, .slack⟩ after ∧
        ∃ origin echoes, pivot ⟨3, .slack⟩ ⟨1, .slack⟩ 0 after = .done () origin echoes ∧
          origin.Coincides start := by
  intro slacks doubled start there back
  have linked : start.Linked := by decide +kernel
  have pruned : start.Pruned := by decide +kernel
  have occurs : start.Occurs ⟨1, .slack⟩ ⟨3, .slack⟩ := by decide +kernel
  exact ⟨by decide +kernel, by decide +kernel, pivot_undone linked pruned occurs 0⟩

end Tableau

end SoftSimplex
