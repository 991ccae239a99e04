import SoftSimplex.Expression
import SoftSimplex.Table.Lookup

/-!
Which symbols occur in an expression after each operation, whatever the numbers are. A reported
change says exactly what became of the symbol that it names.
-/

namespace SoftSimplex

def TermChange.after (change : TermChange) (before : Prop) : Prop :=
  match change with
  | inserted => True
  | removed => False
  | updated | unchanged => before

namespace Symbol

variable {symbol other : Symbol} {kind : SymbolKind}

theorem internal_of_kind (isKind : symbol.kind = kind) (internal : kind.isExternal = false) :
    symbol.isExternal = false := by
  rwa [isExternal, isKind]

theorem kind_ne_of_external (external : symbol.isExternal = true)
    (internal : kind.isExternal = false) : symbol.kind ≠ kind := by
  intro isKind
  rw [internal_of_kind isKind internal] at external
  cases external

theorem ne_of_external (external : symbol.isExternal = true)
    (internal : other.isExternal = false) : symbol ≠ other := by
  rintro rfl
  rw [internal] at external
  cases external

end Symbol

namespace Expression

variable {K : Type}

theorem mem_symbols_iff (expression : Expression K) (symbol : Symbol) :
    symbol ∈ expression.symbols ↔ ∃ value, expression.terms.get? symbol = some value :=
  expression.terms.mem_keys_iff symbol

theorem not_mem_symbols_iff (expression : Expression K) (symbol : Symbol) :
    symbol ∉ expression.symbols ↔ expression.terms.get? symbol = none :=
  expression.terms.not_mem_keys_iff symbol

theorem contains_iff (expression : Expression K) (symbol : Symbol) :
    expression.contains symbol = true ↔ symbol ∈ expression.symbols :=
  expression.terms.contains_iff symbol

theorem mem_symbols_of_mem_entries {expression : Expression K} {entry : Symbol × K}
    (member : entry ∈ expression.terms.entries) : entry.1 ∈ expression.symbols :=
  List.mem_map_of_mem member

theorem symbols_withConstant (expression : Expression K) (value : K) :
    (expression.withConstant value).symbols = expression.symbols := rfl

theorem symbols_times [Mul K] (expression : Expression K) (factor : K) :
    (expression.times factor).symbols = expression.symbols :=
  expression.terms.keys_mapValues _

theorem mem_symbols_removeTerm (expression : Expression K) (symbol other : Symbol) :
    other ∈ (expression.removeTerm symbol).symbols ↔ other ≠ symbol ∧ other ∈ expression.symbols :=
  expression.terms.mem_keys_swapErase symbol other

theorem removeTerm_of_not_mem {expression : Expression K} {symbol : Symbol}
    (missing : symbol ∉ expression.symbols) : expression.removeTerm symbol = expression := by
  simp only [removeTerm, Table.swapErase_of_not_mem missing]

/-! A symbol that is changed, and the others -/

section Changes

variable (expression : Expression K) (symbol other : Symbol)

theorem mem_symbols_removed :
    other ∈ (expression.removeTerm symbol).symbols ↔
      if other = symbol then TermChange.removed.after (symbol ∈ expression.symbols)
      else other ∈ expression.symbols := by
  rw [mem_symbols_removeTerm]
  by_cases same : other = symbol <;> simp [same, TermChange.after]

theorem mem_symbols_unchanged :
    other ∈ expression.symbols ↔
      if other = symbol then TermChange.unchanged.after (symbol ∈ expression.symbols)
      else other ∈ expression.symbols := by
  by_cases same : other = symbol <;> simp [same, TermChange.after]

theorem mem_symbols_placed (value : K) {change : TermChange}
    (occurs : change.after (symbol ∈ expression.symbols)) :
    other ∈ ({ expression with terms := expression.terms.insert symbol value } :
        Expression K).symbols ↔
      if other = symbol then change.after (symbol ∈ expression.symbols)
      else other ∈ expression.symbols := by
  refine (expression.terms.mem_keys_insert symbol other value).trans ?_
  by_cases same : other = symbol
  · simp [same, occurs]
  · simp [same, symbols]

end Changes

section Terms

variable [Scalar K]

theorem mem_symbols_addTerm [Add K] (expression : Expression K) (symbol other : Symbol)
    (amount : K) :
    other ∈ (expression.addTerm symbol amount).1.symbols ↔
      if other = symbol then (expression.addTerm symbol amount).2.after (symbol ∈ expression.symbols)
      else other ∈ expression.symbols := by
  unfold addTerm
  split
  · rename_i present found
    have occurs : symbol ∈ expression.symbols := Table.mem_keys_of_get? found
    split
    · exact expression.mem_symbols_removed symbol other
    · exact expression.mem_symbols_placed symbol other _ occurs
  · split
    · exact expression.mem_symbols_unchanged symbol other
    · exact expression.mem_symbols_placed symbol other _ trivial

theorem mem_symbols_setTerm (expression : Expression K) (symbol other : Symbol) (value : K) :
    other ∈ (expression.setTerm symbol value).1.symbols ↔
      if other = symbol then (expression.setTerm symbol value).2.after (symbol ∈ expression.symbols)
      else other ∈ expression.symbols := by
  unfold setTerm
  split
  · split
    · exact expression.mem_symbols_removed symbol other
    · exact expression.mem_symbols_unchanged symbol other
  · refine expression.mem_symbols_placed symbol other value ?_
    split
    · rename_i contained
      exact (expression.contains_iff symbol).mp contained
    · trivial

theorem mem_symbols_of_addTerm [Add K] {expression : Expression K} {symbol other : Symbol}
    {amount : K} (member : other ∈ (expression.addTerm symbol amount).1.symbols) :
    other = symbol ∨ other ∈ expression.symbols := by
  rw [mem_symbols_addTerm] at member
  split at member
  · rename_i same
    exact Or.inl same
  · exact Or.inr member

theorem mem_symbols_of_setTerm {expression : Expression K} {symbol other : Symbol} {value : K}
    (member : other ∈ (expression.setTerm symbol value).1.symbols) :
    other = symbol ∨ other ∈ expression.symbols := by
  rw [mem_symbols_setTerm] at member
  split at member
  · rename_i same
    exact Or.inl same
  · exact Or.inr member

theorem mem_symbols_of_addTerms [Add K] [Mul K] {factor : K} {added : List (Symbol × K)}
    {expression : Expression K} {other : Symbol}
    (member : other ∈ (addTerms factor added expression).1.symbols) :
    other ∈ expression.symbols ∨ other ∈ added.map Prod.fst := by
  induction added generalizing expression with
  | nil => exact Or.inl member
  | cons entry rest ih =>
    rcases ih member with earlier | later
    · rcases mem_symbols_of_addTerm earlier with same | before
      · exact Or.inr (by simp [same])
      · exact Or.inl before
    · exact Or.inr (List.mem_cons_of_mem _ later)

theorem mem_symbols_of_addScaledReporting [Add K] [Mul K] {expression added : Expression K}
    {factor : K} {other : Symbol}
    (member : other ∈ (expression.addScaledReporting added factor).1.symbols) :
    other ∈ expression.symbols ∨ other ∈ added.symbols :=
  (mem_symbols_of_addTerms member).imp (fun earlier => earlier) fun later => later

theorem substitute_of_not_mem [Add K] [Mul K] {expression : Expression K} {symbol : Symbol}
    (missing : symbol ∉ expression.symbols) (replacement : Expression K) :
    expression.substitute symbol replacement = expression := by
  have absent := (expression.not_mem_symbols_iff symbol).mp missing
  simp [substitute, substituteReporting?, absent]

theorem mem_symbols_of_substitute [Add K] [Mul K] {expression replacement : Expression K}
    {symbol other : Symbol} (member : other ∈ (expression.substitute symbol replacement).symbols) :
    other ≠ symbol ∧ other ∈ expression.symbols ∨ other ∈ replacement.symbols := by
  by_cases occurs : symbol ∈ expression.symbols
  · obtain ⟨value, found⟩ := (expression.mem_symbols_iff symbol).mp occurs
    simp only [substitute, substituteReporting?, found, Option.map_some, Option.getD_some] at member
    rcases mem_symbols_of_addScaledReporting member with kept | added
    · exact Or.inl ((expression.mem_symbols_removeTerm symbol other).mp kept)
    · exact Or.inr added
  · rw [substitute_of_not_mem occurs] at member
    exact Or.inl ⟨fun same => occurs (same ▸ member), member⟩

theorem forall_symbols_substitute [Add K] [Mul K] {expression replacement : Expression K}
    {holds : Symbol → Prop} (symbol : Symbol) (old : ∀ other ∈ expression.symbols, holds other)
    (new : ∀ other ∈ replacement.symbols, holds other) :
    ∀ other ∈ (expression.substitute symbol replacement).symbols, holds other := by
  intro other member
  rcases mem_symbols_of_substitute member with ⟨_, earlier⟩ | added
  · exact old other earlier
  · exact new other added

end Terms

section Solving

variable [One K] [Neg K] [Mul K] [Div K]

theorem solveFor?_eq_some_of_mem {expression : Expression K} {subject : Symbol}
    (occurs : subject ∈ expression.symbols) :
    ∃ reciprocal solved, expression.solveFor? subject = some (reciprocal, solved) := by
  obtain ⟨value, found⟩ := (expression.mem_symbols_iff subject).mp occurs
  exact ⟨1 / value, (expression.removeTerm subject).times (-(1 / value)), by simp [solveFor?, found]⟩

theorem mem_symbols_solveFor {expression solved : Expression K} {subject : Symbol}
    {reciprocal : K} (solves : expression.solveFor? subject = some (reciprocal, solved))
    (other : Symbol) : other ∈ solved.symbols ↔ other ≠ subject ∧ other ∈ expression.symbols := by
  obtain ⟨value, found, same⟩ := Option.map_eq_some_iff.mp solves
  cases same
  rw [symbols_times, mem_symbols_removeTerm]

theorem exchange?_eq_some_of_mem [Scalar K] {expression : Expression K} (leaving : Symbol)
    {entering : Symbol} (occurs : entering ∈ expression.symbols) :
    ∃ solved, expression.exchange? leaving entering = some solved := by
  obtain ⟨reciprocal, solved, solves⟩ := solveFor?_eq_some_of_mem occurs
  exact ⟨(solved.setTerm leaving reciprocal).1, by simp [exchange?, solves]⟩

theorem mem_symbols_of_exchange [Scalar K] {expression solved : Expression K}
    {leaving entering other : Symbol} (solves : expression.exchange? leaving entering = some solved)
    (member : other ∈ solved.symbols) :
    other = leaving ∨ other ≠ entering ∧ other ∈ expression.symbols := by
  obtain ⟨⟨reciprocal, before⟩, solvesFor, same⟩ := Option.map_eq_some_iff.mp solves
  cases same
  rcases mem_symbols_of_setTerm member with isLeaving | earlier
  · exact Or.inl isLeaving
  · exact Or.inr ((mem_symbols_solveFor solvesFor other).mp earlier)

theorem forall_symbols_exchange [Scalar K] {expression solved : Expression K}
    {leaving entering : Symbol} {holds : Symbol → Prop}
    (solves : expression.exchange? leaving entering = some solved) (left : holds leaving)
    (old : ∀ other ∈ expression.symbols, holds other) : ∀ other ∈ solved.symbols, holds other := by
  intro other member
  rcases mem_symbols_of_exchange solves member with rfl | ⟨_, earlier⟩
  · exact left
  · exact old other earlier

end Solving

end Expression

end SoftSimplex
