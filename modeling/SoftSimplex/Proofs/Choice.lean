import Mathlib.Order.Lattice
import SoftSimplex.Proofs.Symbols
import SoftSimplex.Solver.Remove

/-!
Which symbols a pivot may exchange. A choice by least value is one of its candidates and no
candidate lies below it; the candidates for each kind of pivot are listed with all they must meet.
-/

namespace SoftSimplex

section Least

variable {K α : Type} {accept : K → Bool} {candidates : List (α × K)} {best : α × K}

section Members

variable [LT K] [DecidableLT K]

theorem mem_of_foldl_keepLeast {held : Option (α × K)}
    (found : candidates.foldl (keepLeast accept) held = some best) :
    held = some best ∨ best ∈ candidates := by
  induction candidates generalizing held with
  | nil => exact Or.inl found
  | cons candidate rest ih =>
    rcases ih found with kept | later
    · unfold keepLeast at kept
      split at kept
      · split at kept
        · cases kept
          exact Or.inr List.mem_cons_self
        · cases kept
      · split at kept
        · cases kept
          exact Or.inr List.mem_cons_self
        · exact Or.inl kept
    · exact Or.inr (List.mem_cons_of_mem candidate later)

theorem least?_mem (found : least? accept candidates = some best) : best ∈ candidates :=
  (mem_of_foldl_keepLeast found).resolve_left nofun

theorem foldl_keepLeast_isSome (accept : K → Bool) (candidates : List (α × K)) (held : α × K) :
    (candidates.foldl (keepLeast accept) (some held)).isSome = true := by
  induction candidates generalizing held with
  | nil => rfl
  | cons candidate rest ih =>
    rw [List.foldl_cons, keepLeast]
    split <;> exact ih _

theorem rejected_of_least?_eq_none (nothing : least? accept candidates = none)
    {candidate : α × K} (member : candidate ∈ candidates) : accept candidate.2 = false := by
  induction candidates with
  | nil => cases member
  | cons first rest ih =>
    unfold least? at nothing
    rw [List.foldl_cons, keepLeast] at nothing
    split at nothing
    · have some := foldl_keepLeast_isSome accept rest first
      rw [nothing] at some
      cases some
    · rename_i refused
      rcases List.mem_cons.mp member with same | later
      · subst same
        simpa using refused
      · exact ih nothing later

end Members

section Order

variable [LinearOrder K]

theorem le_of_foldl_keepLeast {held : α × K}
    (found : candidates.foldl (keepLeast accept) (some held) = some best) :
    best.2 ≤ held.2 ∧ ∀ candidate ∈ candidates, best.2 ≤ candidate.2 := by
  induction candidates generalizing held with
  | nil =>
    cases found
    exact ⟨le_rfl, nofun⟩
  | cons candidate rest ih =>
    rw [List.foldl_cons, keepLeast] at found
    split at found
    · rename_i below
      obtain ⟨first, others⟩ := ih found
      exact ⟨le_trans first (le_of_lt below), List.forall_mem_cons.mpr ⟨first, others⟩⟩
    · rename_i notBelow
      obtain ⟨first, others⟩ := ih found
      exact ⟨first, List.forall_mem_cons.mpr ⟨le_trans first (not_lt.mp notBelow), others⟩⟩

theorem least?_le (found : least? accept candidates = some best) {candidate : α × K}
    (member : candidate ∈ candidates) (accepted : accept candidate.2 = true) :
    best.2 ≤ candidate.2 := by
  induction candidates with
  | nil => cases member
  | cons first rest ih =>
    unfold least? at found
    rw [List.foldl_cons, keepLeast] at found
    split at found
    · obtain ⟨least, others⟩ := le_of_foldl_keepLeast found
      rcases List.mem_cons.mp member with same | later
      · exact same ▸ least
      · exact others candidate later
    · rename_i refused
      rcases List.mem_cons.mp member with same | later
      · subst same
        exact absurd accepted refused
      · exact ih found later

end Order

end Least

namespace Tableau

variable {K : Type} [Zero K] [Neg K] [Div K] [LT K] [DecidableLT K] {tableau : Tableau K}
  {entering leaving : Symbol}

omit [Neg K] [Div K] [LT K] [DecidableLT K] in
theorem mem_restrictedUses {marker basic : Symbol} {value constant : K} :
    (basic, value, constant) ∈ tableau.restrictedUses marker ↔
      basic ∈ tableau.column marker ∧ basic.isRestricted = true ∧
        ∃ row, tableau.row? basic = some row ∧ value = row.coefficient marker ∧
          constant = row.constant := by
  simp only [restrictedUses, List.mem_filterMap]
  constructor
  · rintro ⟨user, member, chosen⟩
    split at chosen
    · rename_i restricted
      obtain ⟨row, found, same⟩ := Option.map_eq_some_iff.mp chosen
      cases same
      exact ⟨member, restricted, row, found, rfl, rfl⟩
    · cases chosen
  · rintro ⟨member, restricted, row, found, rfl, rfl⟩
    exact ⟨basic, member, by simp [restricted, found]⟩

theorem exit_cases {marker : Symbol} (chosen : tableau.exitFor? marker = some leaving) :
    (∃ row, leaving ∈ tableau.column marker ∧ leaving.isRestricted = true ∧
      tableau.row? leaving = some row) ∨
    leaving ∈ tableau.column marker ∧ leaving.kind ≠ .objective := by
  unfold exitFor? at chosen
  simp only at chosen
  split at chosen
  · rename_i basic ratio found
    cases chosen
    obtain ⟨⟨user, value, constant⟩, member, taken⟩ := List.mem_filterMap.mp (least?_mem found)
    split at taken
    · cases taken
      obtain ⟨used, restricted, row, isRow, _⟩ := mem_restrictedUses.mp member
      exact Or.inl ⟨row, used, restricted, isRow⟩
    · cases taken
  · split at chosen
    · rename_i basic ratio found
      cases chosen
      obtain ⟨⟨user, value, constant⟩, member, taken⟩ := List.mem_map.mp (least?_mem found)
      cases taken
      obtain ⟨used, restricted, row, isRow, _⟩ := mem_restrictedUses.mp member
      exact Or.inl ⟨row, used, restricted, isRow⟩
    · exact Or.inr ⟨List.mem_of_find?_eq_some chosen, by simpa using List.find?_some chosen⟩

theorem exit_mem_column {marker : Symbol} (chosen : tableau.exitFor? marker = some leaving) :
    leaving ∈ tableau.column marker := by
  rcases exit_cases chosen with ⟨_, member, _⟩ | ⟨member, _⟩ <;> exact member

theorem exit_not_objective {marker : Symbol} (chosen : tableau.exitFor? marker = some leaving) :
    leaving.kind ≠ .objective := by
  rcases exit_cases chosen with ⟨_, _, restricted, _⟩ | ⟨_, different⟩
  · intro same
    simp [Symbol.isRestricted, same, SymbolKind.isRestricted] at restricted
  · exact different

theorem objective_of_no_exit {marker basic : Symbol} (noExit : tableau.exitFor? marker = none)
    (member : basic ∈ tableau.column marker) : basic.kind = .objective := by
  unfold exitFor? at noExit
  simp only at noExit
  split at noExit
  · cases noExit
  · split at noExit
    · cases noExit
    · simpa using List.find?_eq_none.mp noExit basic member

variable [Scalar K]

omit [Neg K] [Div K] in
theorem entering_mem {objective : Expression K} (chosen : enteringSymbol? objective = some entering) :
    entering ∈ objective.symbols ∧ entering.isPivotable = true := by
  unfold enteringSymbol? at chosen
  simp only at chosen
  split at chosen
  · cases chosen
  · rename_i symbol value found
    split at chosen
    · cases chosen
      obtain ⟨member, pivotable⟩ := List.mem_filter.mp (least?_mem found)
      exact ⟨Expression.mem_symbols_of_mem_entries member, pivotable⟩
    · cases chosen

omit [Scalar K] in
theorem mem_growthLimits {basic : Symbol} {limit : K} :
    (basic, limit) ∈ tableau.growthLimits entering ↔
      basic ∈ tableau.column entering ∧ basic.isPivotable = true ∧
        ∃ row, tableau.row? basic = some row ∧ row.coefficient entering < 0 ∧
          limit = -row.constant / row.coefficient entering := by
  simp only [growthLimits, List.mem_filterMap]
  constructor
  · rintro ⟨user, member, chosen⟩
    split at chosen
    · rename_i pivotable
      split at chosen
      · cases chosen
      · rename_i row found
        split at chosen
        · rename_i shrinks
          cases chosen
          exact ⟨member, pivotable, row, found, shrinks, rfl⟩
        · cases chosen
    · cases chosen
  · rintro ⟨member, pivotable, row, found, shrinks, rfl⟩
    exact ⟨basic, member, by simp [pivotable, found, shrinks]⟩

theorem leaving_cases (chosen : tableau.leavingSymbol? entering = some leaving) :
    ∃ limit, least? Scalar.bounded (tableau.growthLimits entering) = some (leaving, limit) := by
  obtain ⟨⟨basic, limit⟩, found, same⟩ := Option.map_eq_some_iff.mp chosen
  cases same
  exact ⟨limit, found⟩

theorem leaving_mem (chosen : tableau.leavingSymbol? entering = some leaving) :
    leaving ∈ tableau.column entering ∧ leaving.isPivotable = true := by
  obtain ⟨limit, found⟩ := leaving_cases chosen
  obtain ⟨member, pivotable, _⟩ := mem_growthLimits.mp (least?_mem found)
  exact ⟨member, pivotable⟩

omit [Neg K] in
theorem repairing_mem {objective row : Expression K}
    (chosen : repairingSymbol? objective row = some entering) :
    entering ∈ row.symbols ∧ entering.isPivotable = true := by
  obtain ⟨⟨symbol, cost⟩, found, same⟩ := Option.map_eq_some_iff.mp chosen
  cases same
  obtain ⟨entry, member, taken⟩ := List.mem_filterMap.mp (least?_mem found)
  split at taken
  · rename_i raises
    cases taken
    have named : entry.1 ∈ row.symbols := Expression.mem_symbols_of_mem_entries member
    exact ⟨named, raises.2⟩
  · cases taken

end Tableau

end SoftSimplex
