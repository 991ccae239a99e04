import Mathlib.Data.Finset.Card
import Mathlib.Logic.Function.Iterate
import SoftSimplex.Proofs.Attainment
import SoftSimplex.Proofs.Exchanging

/-!
How minimization can fail to end. Each pivot lowers the objective by some rate for each unit that
the entering symbol grows, so a basis can come back only if nothing has grown in between; and there
are only so many bases. A run without pivots of ratio zero ends before it has gone through them all.
-/

namespace SoftSimplex

variable {K : Type}

/-! Rounds of a loop -/

namespace Action

variable {σ : Type} (step : Action K σ Bool) (limit : Nat)

def next? (state : σ) : Option σ :=
  match step limit state with
  | .done true reached _ => some reached
  | _ => none

def visit? (state : σ) (round : Nat) : Option σ :=
  (·.bind (step.next? limit))^[round] (some state)

variable {step limit} {state reached : σ}

theorem done_of_next? (next : step.next? limit state = some reached) :
    ∃ events, step limit state = .done true reached events := by
  unfold next? at next
  split at next
  · rename_i events ran
    cases next
    exact ⟨events, ran⟩
  · cases next

theorem visit?_succ (state : σ) (round : Nat) : step.visit? limit state (round + 1) =
    (step.visit? limit state round).bind (step.next? limit) :=
  Function.iterate_succ_apply' _ _ _

theorem visited_before {round : Nat}
    (visited : step.visit? limit state (round + 1) = some reached) :
    ∃ current, step.visit? limit state round = some current ∧
      step.next? limit current = some reached := by
  rw [visit?_succ] at visited
  exact Option.bind_eq_some_iff.mp visited

theorem visit?_of_next? (next : step.next? limit state = some reached) (round : Nat) :
    step.visit? limit state (round + 1) = step.visit? limit reached round := by
  rw [visit?, Function.iterate_succ_apply, Option.bind_some, next, visit?]

theorem visit?_of_last (last : step.next? limit state = none) (round : Nat) :
    step.visit? limit state (round + 1) = none := by
  rw [visit?, Function.iterate_succ_apply, Option.bind_some, last]
  exact Function.iterate_fixed rfl round

theorem visited_of_le {first last : Nat} (le : first ≤ last)
    (visited : (step.visit? limit state last).isSome = true) :
    (step.visit? limit state first).isSome = true := by
  induction le with
  | refl => exact visited
  | step _ ih =>
    rw [visit?_succ] at visited
    exact ih (Option.isSome_of_isSome_bind visited)

theorem rounds_unfinished_iff (ends : ∀ state, step limit state ≠ .unfinished) (count : Nat) :
    rounds step count limit state = .unfinished ↔
      (step.visit? limit state count).isSome = true := by
  induction count generalizing state with
  | zero => exact ⟨fun _ => rfl, fun _ => rfl⟩
  | succ count ih =>
    have stopped : ∀ {outcome : Outcome K σ Unit}, outcome ≠ .unfinished →
        step.next? limit state = none →
        (outcome = .unfinished ↔ (step.visit? limit state (count + 1)).isSome = true) := by
      intro outcome ended last
      rw [visit?_of_last last]
      exact ⟨fun same => absurd same ended, nofun⟩
    cases ran : step limit state with
    | done again reached events =>
      have continues : rounds step (count + 1) limit state =
          ((if again then rounds step count else pure ()) limit reached).after events :=
        bind_done ran
      rw [continues]
      cases again with
      | false => exact stopped nofun (by rw [next?, ran])
      | true =>
        rw [visit?_of_next? (by rw [next?, ran]), ← ih]
        exact Outcome.after_eq_unfinished_iff
    | failed fault reached events =>
      have failed : rounds step (count + 1) limit state = .failed fault reached events :=
        bind_failed ran
      rw [failed]
      exact stopped nofun (by rw [next?, ran])
    | unfinished => exact absurd ran (ends state)

end Action

namespace Tableau

variable [Field K] [LinearOrder K]

def nextRatio? (objective : Symbol) (tableau : Tableau K) : Option K :=
  (tableau.row? objective).bind fun costs => (enteringSymbol? costs).bind fun entering =>
    (least? Scalar.bounded (tableau.growthLimits entering)).map Prod.snd

def visit? (objective : Symbol) (limit : Nat) (before : Tableau K) (pivots : Nat) :
    Option (Tableau K) :=
  (improve objective).visit? limit before pivots

def basis? (objective : Symbol) (limit : Nat) (before : Tableau K) (pivots : Nat) :
    Option (Finset Symbol) :=
  (before.visit? objective limit pivots).map basis

def ratio? (objective : Symbol) (limit : Nat) (before : Tableau K) (pivots : Nat) : Option K :=
  (before.visit? objective limit pivots).bind (nextRatio? objective)

/-- What the pivots of a minimization come to. They can go on only by coming back to a basis, and
between two visits to a basis no symbol grows. -/
structure Progresses (objective : Symbol) (limit : Nat) (before : Tableau K) : Prop where
  stalls : ∀ first last shared, before.basis? objective limit first = some shared →
    before.basis? objective limit last = some shared →
    ∀ between, first ≤ between → between < last → before.ratio? objective limit between = some 0
  moves : ∀ count, (before.visit? objective limit count).isSome = true →
    ((Finset.range count).filter fun made => before.ratio? objective limit made ≠ some 0).card <
      before.bases.card
  recurs : before.bases.card ≤ limit → minimize objective limit before = .unfinished →
    ∃ first last shared, first < last ∧ last ≤ before.bases.card ∧
      before.basis? objective limit first = some shared ∧
      before.basis? objective limit last = some shared
  ends : before.bases.card ≤ limit →
    (∀ made, before.ratio? objective limit made ≠ some 0) →
    minimize objective limit before ≠ .unfinished

variable {before after twin left : Tableau K} {objective : Symbol} {limit : Nat} {ratio : K}

theorem improve_ends (objective : Symbol) (limit : Nat) (before : Tableau K) :
    improve objective limit before ≠ .unfinished := by
  refine Action.bind_ends nofun fun tableau current => ?_
  cases tableau.row? objective with
  | none => nofun
  | some costs =>
    dsimp only
    cases enteringSymbol? costs with
    | none => nofun
    | some entering =>
      dsimp only
      cases tableau.leavingSymbol? entering with
      | none => nofun
      | some leaving =>
        exact Action.bind_ends (pivot_ends entering leaving limit current) nofun

/-! One pivot -/

section Pivot

/-- What a pivot toward a least objective comes to, at the ratio by which it was chosen. -/
structure Advances (objective : Symbol) (before : Tableau K) (ratio : K) (after : Tableau K) :
    Prop where
  chosen : before.nextRatio? objective = some ratio
  forward : 0 ≤ ratio
  primal : after.PrimalFeasible
  rebases : ∃ entering leaving, before.Rebases entering leaving after
  lowers : ∃ rate < 0,
    after.basicSolution objective = before.basicSolution objective + rate * ratio

theorem Alike.nextRatio? (alike : before.Alike left) (objective : Symbol) :
    before.nextRatio? objective = left.nextRatio? objective := by
  unfold Tableau.nextRatio?
  rw [alike.row?]
  simp only [alike.growthLimits]

omit [LinearOrder K] in
theorem Alike.basicSolution (alike : before.Alike left) (symbol : Symbol) :
    before.basicSolution symbol = left.basicSolution symbol := by
  unfold Tableau.basicSolution completed
  rw [alike.row?]

theorem Advances.of_alike (advances : left.Advances objective ratio twin)
    (alike : before.Alike left) (echo : after.Alike twin) :
    before.Advances objective ratio after where
  chosen := (alike.nextRatio? objective).trans advances.chosen
  forward := advances.forward
  primal := echo.primal advances.primal
  rebases := by
    obtain ⟨entering, leaving, rebases⟩ := advances.rebases
    exact ⟨entering, leaving, rebases.of_alike alike echo⟩
  lowers := by
    rw [alike.basicSolution, echo.basicSolution]
    exact advances.lowers

variable [IsStrictOrderedRing K]

theorem Improves.advances (improves : before.Improves objective after) (indexed : before.Indexed)
    (primal : before.PrimalFeasible) (fixed : objective.isPivotable = false) :
    ∃ ratio, before.Advances objective ratio after := by
  have kept := primal.improves indexed improves
  obtain ⟨costs, entering, leaving, row, solved, found, enters, leaves, pivots⟩ := improves
  obtain ⟨ratio, least⟩ := leaving_cases leaves
  have shrinks := (leaving_limits indexed leaves pivots.leaves).1
  have grown := pivots.coefficient_mul_constant indexed shrinks.ne
  have isRatio : ratio = solved.constant := by
    obtain ⟨_, _, _, isRow, _, rfl⟩ := mem_growthLimits.mp (least?_mem least)
    rw [pivots.leaves] at isRow
    cases isRow
    rw [← grown, mul_div_cancel_left₀ _ shrinks.ne]
  have notEntering : entering ≠ objective := by
    rintro rfl
    rw [(entering_mem enters).2] at fixed
    cases fixed
  have notLeaving : leaving ≠ objective := by
    rintro rfl
    rw [(leaving_mem leaves).2] at fixed
    cases fixed
  have rewritten : after.row? objective = some (costs.substitute entering solved) := by
    rw [pivots.row?_after, if_neg notEntering, if_neg notLeaving, found]
    rfl
  refine ⟨ratio, ?_, ?_, kept, ⟨entering, leaving, pivots.rebases indexed shrinks.ne⟩,
    costs.coefficient entering, entering_negative enters, ?_⟩
  · simp only [nextRatio?, found, enters, least, Option.bind_some, Option.map_some]
  · rw [isRatio]
    exact step_forward grown (primal leaving row pivots.leaves (leaving_mem leaves).2) shrinks
  · rw [basicSolution_of_row rewritten, basicSolution_of_row found,
      Expression.constant_substitute, isRatio]

theorem advances_of_next? (linked : before.Linked) (primal : before.PrimalFeasible)
    (fixed : objective.isPivotable = false)
    (next : (improve objective).next? limit before = some after) :
    ∃ ratio, before.Advances objective ratio after := by
  obtain ⟨events, ran⟩ := Action.done_of_next? next
  have alike := linked.alike_reindexed
  have met : (improve objective limit before).Meets _ _ :=
    alike.improve.meets (improve_meets linked.indexed_reindexed)
  rw [ran] at met
  obtain ⟨twin, echo, improves⟩ := met
  obtain ⟨ratio, advances⟩ :=
    Improves.advances improves linked.indexed_reindexed primal fixed
  exact ⟨ratio, advances.of_alike alike echo⟩

end Pivot

/-! A run of pivots -/

section Run

structure KeptByPivots (before after : Tableau K) : Prop where
  linked : after.Linked
  primal : after.PrimalFeasible
  solves : ∀ assignment, after.SolvesAll assignment ↔ before.SolvesAll assignment
  symbols : after.symbols ⊆ before.symbols
  size : after.basis.card = before.basis.card

theorem Advances.keptByPivots {current : Tableau K} (advances : current.Advances objective ratio after)
    (keptByPivots : before.KeptByPivots current) : before.KeptByPivots after := by
  obtain ⟨entering, leaving, rebases⟩ := advances.rebases
  exact ⟨rebases.linked, advances.primal,
    fun assignment => (rebases.solves assignment).trans (keptByPivots.solves assignment),
    rebases.symbols.trans keptByPivots.symbols, rebases.card_basis.trans keptByPivots.size⟩

theorem KeptByPivots.coincides {earlier later : Tableau K} (first : before.KeptByPivots earlier)
    (last : before.KeptByPivots later) (same : earlier.basis = later.basis) :
    earlier.Coincides later :=
  first.linked.coincides last.linked (isBasic_eq_of_basis same) fun assignment solves =>
    (last.solves assignment).mpr ((first.solves assignment).mp solves)

variable [IsStrictOrderedRing K] (linked : before.Linked) (primal : before.PrimalFeasible)
  (fixed : objective.isPivotable = false)

include linked primal fixed

theorem keptByPivots_of_visit {count : Nat} {reached : Tableau K}
    (visited : before.visit? objective limit count = some reached) : before.KeptByPivots reached := by
  induction count generalizing reached with
  | zero =>
    cases visited
    exact ⟨linked, primal, fun _ => Iff.rfl, subset_rfl, rfl⟩
  | succ count ih =>
    obtain ⟨current, earlier, next⟩ := Action.visited_before visited
    have keptByPivots := ih earlier
    obtain ⟨ratio, advances⟩ := advances_of_next? keptByPivots.linked keptByPivots.primal fixed next
    exact advances.keptByPivots keptByPivots

theorem advances_of_visit {count : Nat} {reached : Tableau K}
    (visited : before.visit? objective limit (count + 1) = some reached) :
    ∃ current ratio, before.visit? objective limit count = some current ∧
      current.Advances objective ratio reached := by
  obtain ⟨current, earlier, next⟩ := Action.visited_before visited
  have keptByPivots := keptByPivots_of_visit linked primal fixed earlier
  obtain ⟨ratio, advances⟩ := advances_of_next? keptByPivots.linked keptByPivots.primal fixed next
  exact ⟨current, ratio, earlier, advances⟩

theorem basicSolution_le_of_visits {first last : Nat} {earlier later : Tableau K}
    (le : first ≤ last) (visitedFirst : before.visit? objective limit first = some earlier)
    (visitedLast : before.visit? objective limit last = some later) :
    later.basicSolution objective ≤ earlier.basicSolution objective := by
  induction le generalizing later with
  | refl =>
    rw [visitedFirst] at visitedLast
    cases visitedLast
    exact le_rfl
  | step _ ih =>
    obtain ⟨current, ratio, visited, advances⟩ := advances_of_visit linked primal fixed visitedLast
    obtain ⟨rate, negative, lowered⟩ := advances.lowers
    have falls := mul_nonpos_of_nonpos_of_nonneg negative.le advances.forward
    have reached := ih visited
    linarith

theorem ratio_eq_zero_of_basis {first last between : Nat} {shared : Finset Symbol}
    (basisFirst : before.basis? objective limit first = some shared)
    (basisLast : before.basis? objective limit last = some shared) (fromFirst : first ≤ between)
    (beforeLast : between < last) : before.ratio? objective limit between = some 0 := by
  obtain ⟨earlier, visitedFirst, sharedFirst⟩ := Option.map_eq_some_iff.mp basisFirst
  obtain ⟨later, visitedLast, sharedLast⟩ := Option.map_eq_some_iff.mp basisLast
  obtain ⟨reached, visited⟩ := Option.isSome_iff_exists.mp
    (Action.visited_of_le (Nat.succ_le_of_lt beforeLast) (Option.isSome_of_eq_some visitedLast))
  obtain ⟨current, ratio, visitedCurrent, advances⟩ := advances_of_visit linked primal fixed visited
  have same := (KeptByPivots.coincides (keptByPivots_of_visit linked primal fixed visitedFirst)
    (keptByPivots_of_visit linked primal fixed visitedLast)
    (sharedFirst.trans sharedLast.symm)).basicSolution objective
  have above := basicSolution_le_of_visits linked primal fixed fromFirst visitedFirst visitedCurrent
  have below := basicSolution_le_of_visits linked primal fixed (Nat.succ_le_of_lt beforeLast)
    visited visitedLast
  obtain ⟨rate, negative, lowered⟩ := advances.lowers
  have still : ratio = 0 := by
    by_contra moved
    have falls := mul_neg_of_neg_of_pos negative (advances.forward.lt_of_ne (Ne.symm moved))
    linarith
  rw [ratio?, visitedCurrent, Option.bind_some, advances.chosen, still]

theorem exists_basis_of_le {made count : Nat} (le : made ≤ count)
    (visited : (before.visit? objective limit count).isSome = true) :
    ∃ basis ∈ before.bases, before.basis? objective limit made = some basis := by
  obtain ⟨reached, isVisited⟩ := Option.isSome_iff_exists.mp (Action.visited_of_le le visited)
  have keptByPivots := keptByPivots_of_visit linked primal fixed isVisited
  exact ⟨reached.basis, mem_bases_of_subset keptByPivots.symbols keptByPivots.size,
    Option.map_eq_some_iff.mpr ⟨reached, isVisited, rfl⟩⟩

theorem card_le_of_apart {visits : Finset Nat} {count : Nat}
    (visited : (before.visit? objective limit count).isSome = true)
    (early : ∀ made ∈ visits, made ≤ count)
    (apart : ∀ first ∈ visits, ∀ last ∈ visits, first < last →
      before.basis? objective limit first ≠ before.basis? objective limit last) :
    visits.card ≤ before.bases.card := by
  have injective : Set.InjOn (before.basis? objective limit) visits := by
    intro first firstMember last lastMember same
    rcases lt_trichotomy first last with less | equal | greater
    · exact absurd same (apart first firstMember last lastMember less)
    · exact equal
    · exact absurd same.symm (apart last lastMember first firstMember greater)
  have within : ∀ made ∈ visits,
      before.basis? objective limit made ∈ before.bases.image some := by
    intro made member
    obtain ⟨basis, isBase, isBasis⟩ :=
      exists_basis_of_le linked primal fixed (early made member) visited
    exact isBasis ▸ Finset.mem_image_of_mem some isBase
  calc visits.card ≤ (before.bases.image some).card :=
        Finset.card_le_card_of_injOn _ within injective
    _ ≤ before.bases.card := Finset.card_image_le

theorem card_moves_lt {count : Nat}
    (visited : (before.visit? objective limit count).isSome = true) :
    ((Finset.range count).filter fun made => before.ratio? objective limit made ≠ some 0).card <
      before.bases.card := by
  set moves := (Finset.range count).filter fun made => before.ratio? objective limit made ≠ some 0
  have ofMoves : ∀ made ∈ moves, made < count ∧ before.ratio? objective limit made ≠ some 0 :=
    fun made member => ⟨Finset.mem_range.mp (Finset.mem_filter.mp member).1,
      (Finset.mem_filter.mp member).2⟩
  have early : ∀ made ∈ insert count moves, made ≤ count :=
    (Finset.forall_mem_insert _ _ _).mpr ⟨le_rfl, fun made member => (ofMoves made member).1.le⟩
  have counted : (insert count moves).card = moves.card + 1 :=
    Finset.card_insert_of_notMem fun member => lt_irrefl count (ofMoves count member).1
  rw [← Nat.add_one_le_iff, ← counted]
  refine card_le_of_apart linked primal fixed visited early ?_
  intro first firstMember last lastMember less same
  have notLast : first ≠ count := fun isLast =>
    absurd (early last lastMember) (not_le.mpr (isLast ▸ less))
  obtain ⟨shared, _, basisLast⟩ :=
    exists_basis_of_le linked primal fixed (early last lastMember) visited
  refine (ofMoves first ((Finset.mem_insert.mp firstMember).resolve_left notLast)).2 ?_
  exact ratio_eq_zero_of_basis linked primal fixed (same.trans basisLast) basisLast le_rfl less

theorem exists_basis_twice
    (visited : (before.visit? objective limit before.bases.card).isSome = true) :
    ∃ first last shared, first < last ∧ last ≤ before.bases.card ∧
      before.basis? objective limit first = some shared ∧
      before.basis? objective limit last = some shared := by
  by_contra noneTwice
  have early : ∀ made ∈ Finset.range (before.bases.card + 1), made ≤ before.bases.card :=
    fun made member => Nat.lt_succ_iff.mp (Finset.mem_range.mp member)
  have fewer := card_le_of_apart linked primal fixed visited early ?_
  · rw [Finset.card_range] at fewer
    omega
  · intro first _ last lastMember less same
    obtain ⟨shared, _, basisLast⟩ :=
      exists_basis_of_le linked primal fixed (early last lastMember) visited
    exact noneTwice
      ⟨first, last, shared, less, early last lastMember, same.trans basisLast, basisLast⟩

end Run

/-! Whole minimizations -/

section Minimizing

theorem visited_of_unfinished (unfinished : minimize objective limit before = .unfinished) :
    (before.visit? objective limit limit).isSome = true :=
  (Action.rounds_unfinished_iff (improve_ends objective limit) limit).mp unfinished

variable [IsStrictOrderedRing K]

/-- From any linked tableau that is not below zero, minimization can go on for ever only through
pivots at which nothing grows, back to a basis where it was; otherwise it ends within as many pivots
as there are bases. -/
theorem minimize_ends_unless_degenerate (linked : before.Linked) (primal : before.PrimalFeasible)
    (isObjective : objective.kind = .objective) (limit : Nat) :
    before.Progresses objective limit := by
  have fixed : objective.isPivotable = false := by
    rw [Symbol.isPivotable, isObjective]
    rfl
  refine ⟨?_, fun count => card_moves_lt linked primal fixed, ?_, ?_⟩
  · intro first last shared basisFirst basisLast between
    exact ratio_eq_zero_of_basis linked primal fixed basisFirst basisLast
  · intro enough unfinished
    exact exists_basis_twice linked primal fixed
      (Action.visited_of_le enough (visited_of_unfinished unfinished))
  · intro enough moving unfinished
    have fewer := card_moves_lt linked primal fixed (visited_of_unfinished unfinished)
    rw [Finset.filter_true_of_mem fun made _ => moving made, Finset.card_range] at fewer
    omega

/-- Two rows rest at zero, and six pivots lead around and back to the first basis: with as many
rounds as there are bases minimization has not ended. -/
theorem minimize_ends_unless_degenerate_cycle :
    let row := fun terms : List (Nat × ℚ) => terms.foldl
      (fun row term => (row.setTerm ⟨term.1, .slack⟩ term.2).1) (Expression.ofConstant 0)
    let start := (((addRow ∅ .mainObjective (row [(1, -10), (2, 57), (3, 9), (4, 24)])).addRow
      ⟨5, .slack⟩ (row [(1, -1 / 2), (2, 11 / 2), (3, 5 / 2), (4, -9)])).addRow
      ⟨6, .slack⟩ (row [(1, -1 / 2), (2, 3 / 2), (3, 1 / 2), (4, -1)])).addRow
      ⟨7, .slack⟩ ((row [(1, -1)]).withConstant 1)
    start.bases.card = 70 ∧ (minimize .mainObjective 70 start).state?.isNone = true ∧
      start.basis? .mainObjective 70 0 = start.basis? .mainObjective 70 6 ∧
      start.Progresses .mainObjective 70 := by
  intro row start
  have linked : start.Linked := by decide +kernel
  have primal : start.PrimalFeasible := by decide +kernel
  have counted : start.bases.card = 70 := by
    rw [bases, Finset.card_powersetCard]
    decide +kernel
  exact ⟨counted, by decide +kernel, by decide +kernel,
    minimize_ends_unless_degenerate linked primal rfl 70⟩

end Minimizing

end Tableau

end SoftSimplex
