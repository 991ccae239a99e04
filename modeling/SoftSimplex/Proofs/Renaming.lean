import Mathlib.Data.List.Nodup
import Mathlib.Logic.Embedding.Basic
import SoftSimplex.Session
import SoftSimplex.Table.Lookup

/-!
Renaming the ids in what a solver holds. Only ids change: kinds, numbers, keys and the order of every
table stay. Since no two ids are given one name, whatever is looked up, replaced or erased under a
new name is the renamed result of doing so under the old one.
-/

namespace SoftSimplex

theorem filterMap_map_alike {α β γ δ : Type} {onItem : α → β} {onFound : γ → δ}
    {pick : α → Option γ} {mirror : β → Option δ}
    (alike : ∀ item, mirror (onItem item) = (pick item).map onFound) (items : List α) :
    (items.map onItem).filterMap mirror = (items.filterMap pick).map onFound := by
  rw [List.filterMap_map, List.map_filterMap]
  exact List.filterMap_congr fun item _ => alike item

theorem foldl_map_alike {α β σ τ : Type} {onItem : α → β} (onState : σ → τ) {step : σ → α → σ}
    {mirror : τ → β → τ}
    (alike : ∀ state item, mirror (onState state) (onItem item) = onState (step state item))
    (items : List α) (start : σ) :
    (items.map onItem).foldl mirror (onState start) = onState (items.foldl step start) := by
  rw [List.foldl_map]
  exact List.foldl_hom onState alike

namespace Entries

variable {α β γ δ : Type} [DecidableEq α] [DecidableEq β] (onKey : α ↪ β)

theorem get?_map (onValue : γ → δ) (key : α) (entries : List (α × γ)) :
    get? (onKey key) (entries.map (Prod.map onKey onValue)) = (get? key entries).map onValue := by
  induction entries with
  | nil => rfl
  | cons entry rest ih =>
    simp only [List.map_cons, get?, Prod.map_fst, Prod.map_snd, onKey.apply_eq_iff_eq, ih]
    split <;> rfl

theorem insert_map (onValue : γ → δ) (key : α) (value : γ) (entries : List (α × γ)) :
    insert (onKey key) (onValue value) (entries.map (Prod.map onKey onValue)) =
      (insert key value entries).map (Prod.map onKey onValue) := by
  induction entries with
  | nil => rfl
  | cons entry rest ih =>
    simp only [List.map_cons, insert, Prod.map_fst, onKey.apply_eq_iff_eq, ih]
    split <;> rfl

theorem modify_map {onValue : γ → δ} {change : γ → γ} {image : δ → δ}
    (alike : ∀ value, image (onValue value) = onValue (change value)) (key : α)
    (entries : List (α × γ)) :
    modify (onKey key) image (entries.map (Prod.map onKey onValue)) =
      (modify key change entries).map (Prod.map onKey onValue) := by
  induction entries with
  | nil => rfl
  | cons entry rest ih =>
    simp only [List.map_cons, modify, Prod.map_fst, Prod.map_snd, onKey.apply_eq_iff_eq, alike, ih]
    split <;> rfl

theorem erase_map (onValue : γ → δ) (key : α) (entries : List (α × γ)) :
    erase (onKey key) (entries.map (Prod.map onKey onValue)) =
      (erase key entries).map (Prod.map onKey onValue) := by
  induction entries with
  | nil => rfl
  | cons entry rest ih =>
    simp only [List.map_cons, erase, Prod.map_fst, onKey.apply_eq_iff_eq, ih]
    split <;> rfl

theorem swapErase_map (onValue : γ → δ) (key : α) (entries : List (α × γ)) :
    swapErase (onKey key) (entries.map (Prod.map onKey onValue)) =
      (swapErase key entries).map (Prod.map onKey onValue) := by
  induction entries with
  | nil => rfl
  | cons entry rest ih =>
    simp only [List.map_cons, swapErase, Prod.map_fst, onKey.apply_eq_iff_eq, ih, List.getLast?_map]
    split
    · cases rest.getLast? <;> simp
    · rfl

end Entries

namespace Table

variable {α β γ δ : Type}

def relabel (onKey : α ↪ β) (onValue : γ → δ) (table : Table α γ) : Table β δ where
  entries := table.entries.map (Prod.map onKey onValue)
  distinct := by
    have distinct := table.distinct.map onKey.injective
    simpa [Function.comp_def] using distinct

variable {onKey : α ↪ β} {onValue : γ → δ}

@[simp]
theorem entries_relabel (table : Table α γ) :
    (table.relabel onKey onValue).entries = table.entries.map (Prod.map onKey onValue) := rfl

@[simp]
theorem keys_relabel (table : Table α γ) :
    (table.relabel onKey onValue).keys = table.keys.map onKey := by
  simp [keys]

@[simp]
theorem size_relabel (table : Table α γ) : (table.relabel onKey onValue).size = table.size := by
  simp [size]

@[simp]
theorem isEmpty_relabel (table : Table α γ) :
    (table.relabel onKey onValue).isEmpty = table.isEmpty := by
  simp [isEmpty]

@[simp]
theorem lastKey?_relabel (table : Table α γ) :
    (table.relabel onKey onValue).lastKey? = table.lastKey?.map onKey := by
  simp [lastKey?, Function.comp_def]

@[simp]
theorem relabel_dropLast (table : Table α γ) :
    table.dropLast.relabel onKey onValue = (table.relabel onKey onValue).dropLast :=
  eq_of_entries List.map_dropLast

theorem relabel_eq_self {onKey : α ↪ α} {table : Table α γ}
    (fixed : ∀ key ∈ table.keys, onKey key = key) : table.relabel onKey id = table := by
  refine eq_of_entries ((List.map_congr_left fun entry member => ?_).trans (List.map_id _))
  exact Prod.ext (fixed entry.1 (List.mem_map_of_mem member)) rfl

variable [DecidableEq α] [DecidableEq β]

@[simp]
theorem get?_relabel (table : Table α γ) (key : α) :
    (table.relabel onKey onValue).get? (onKey key) = (table.get? key).map onValue :=
  Entries.get?_map onKey onValue key table.entries

@[simp]
theorem contains_relabel (table : Table α γ) (key : α) :
    (table.relabel onKey onValue).contains (onKey key) = table.contains key := by
  simp [contains]

@[simp]
theorem relabel_insert (table : Table α γ) (key : α) (value : γ) :
    (table.insert key value).relabel onKey onValue =
      (table.relabel onKey onValue).insert (onKey key) (onValue value) :=
  eq_of_entries (Entries.insert_map onKey onValue key value table.entries).symm

theorem relabel_modify {change : γ → γ} {image : δ → δ}
    (alike : ∀ value, image (onValue value) = onValue (change value)) (table : Table α γ) (key : α) :
    (table.modify key change).relabel onKey onValue =
      (table.relabel onKey onValue).modify (onKey key) image :=
  eq_of_entries (Entries.modify_map onKey alike key table.entries).symm

@[simp]
theorem relabel_erase (table : Table α γ) (key : α) :
    (table.erase key).relabel onKey onValue = (table.relabel onKey onValue).erase (onKey key) :=
  eq_of_entries (Entries.erase_map onKey onValue key table.entries).symm

@[simp]
theorem relabel_swapErase (table : Table α γ) (key : α) :
    (table.swapErase key).relabel onKey onValue =
      (table.relabel onKey onValue).swapErase (onKey key) :=
  eq_of_entries (Entries.swapErase_map onKey onValue key table.entries).symm

theorem relabel_upsert {change : γ → γ} {image : δ → δ}
    (alike : ∀ value, image (onValue value) = onValue (change value)) (table : Table α γ) (key : α)
    (start : γ) : (table.upsert key start change).relabel onKey onValue =
      (table.relabel onKey onValue).upsert (onKey key) (onValue start) image := by
  simp [upsert, ← alike, Option.getD_map]

omit [DecidableEq α] in
theorem relabel_refl (table : Table α γ) (change : γ → δ) :
    table.relabel (.refl α) change = table.mapValues change := rfl

@[simp]
theorem mapValues_insert (table : Table α γ) (change : γ → δ) (key : α) (value : γ) :
    (table.insert key value).mapValues change =
      (table.mapValues change).insert key (change value) := by
  simp [← relabel_refl]

@[simp]
theorem mapValues_erase (table : Table α γ) (change : γ → δ) (key : α) :
    (table.erase key).mapValues change = (table.mapValues change).erase key := by
  simp [← relabel_refl]

end Table

/-- A choice of new ids. The main objective keeps its own. -/
structure Renaming where
  onId : Nat ↪ Nat
  origin : onId 0 = 0
  /-- By how much the next id to be given out moves. -/
  shift : Nat

namespace Renaming

variable {K : Type} (names : Renaming)

def symbol : Symbol ↪ Symbol where
  toFun symbol := ⟨names.onId symbol.id, symbol.kind⟩
  inj' := by
    rintro ⟨left, kind⟩ ⟨right, other⟩ same
    simpa using same

def unknown : Variable ↪ Variable where
  toFun unknown := ⟨names.onId unknown.id⟩
  inj' := by
    rintro ⟨left⟩ ⟨right⟩ same
    simpa using same

def set : SymbolSet → SymbolSet := Table.relabel names.symbol id

def expression (expression : Expression K) : Expression K where
  constant := expression.constant
  terms := expression.terms.relabel names.symbol id

def report : TermChange.Report → TermChange.Report := List.map (Prod.map names.symbol id)

/-! Symbols -/

@[simp]
theorem symbol_unknown (unknown : Variable) :
    (names.unknown unknown).symbol = names.symbol unknown.symbol := rfl

@[simp]
theorem symbol_mainObjective : names.symbol .mainObjective = .mainObjective :=
  congrArg (Symbol.mk · .objective) names.origin

@[simp]
theorem symbol_eq_mainObjective_iff (symbol : Symbol) :
    names.symbol symbol = .mainObjective ↔ symbol = .mainObjective := by
  conv_lhs => rw [← names.symbol_mainObjective, names.symbol.apply_eq_iff_eq]

@[simp]
theorem kind_symbol (symbol : Symbol) : (names.symbol symbol).kind = symbol.kind := rfl

@[simp]
theorem isExternal_symbol (symbol : Symbol) :
    (names.symbol symbol).isExternal = symbol.isExternal := rfl

@[simp]
theorem isPivotable_symbol (symbol : Symbol) :
    (names.symbol symbol).isPivotable = symbol.isPivotable := rfl

@[simp]
theorem isRestricted_symbol (symbol : Symbol) :
    (names.symbol symbol).isRestricted = symbol.isRestricted := rfl

@[simp]
theorem isDummy_symbol (symbol : Symbol) : (names.symbol symbol).isDummy = symbol.isDummy := rfl

@[simp]
theorem unknown?_symbol (symbol : Symbol) :
    (names.symbol symbol).unknown? = symbol.unknown?.map names.unknown := by
  unfold Symbol.unknown?
  rw [isExternal_symbol]
  split <;> rfl

@[simp]
theorem unknowns_map_symbol (symbols : List Symbol) :
    (symbols.map names.symbol).filterMap (·.unknown?) =
      (symbols.filterMap (·.unknown?)).map names.unknown :=
  filterMap_map_alike names.unknown?_symbol symbols

/-! Expressions -/

section Expressions

variable (expression other : Expression K) (symbol : Symbol) (value factor : K)

@[simp]
theorem constant_expression : (names.expression expression).constant = expression.constant := rfl

@[simp]
theorem terms_expression :
    (names.expression expression).terms = expression.terms.relabel names.symbol id := rfl

@[simp]
theorem symbols_expression :
    (names.expression expression).symbols = expression.symbols.map names.symbol := by
  simp [Expression.symbols]

@[simp]
theorem isConstant_expression :
    (names.expression expression).isConstant = expression.isConstant := by
  simp [Expression.isConstant]

@[simp]
theorem contains_expression :
    (names.expression expression).contains (names.symbol symbol) = expression.contains symbol := by
  simp [Expression.contains]

@[simp]
theorem coefficient_expression [Zero K] :
    (names.expression expression).coefficient (names.symbol symbol) =
      expression.coefficient symbol := by
  simp [Expression.coefficient]

@[simp]
theorem firstPivotable?_expression :
    (names.expression expression).firstPivotable? = expression.firstPivotable?.map names.symbol := by
  simp [Expression.firstPivotable?, List.find?_map, Function.comp_def]

@[simp]
theorem ofConstant_expression :
    names.expression (.ofConstant value) = .ofConstant value := rfl

@[simp]
theorem withConstant_expression :
    (names.expression expression).withConstant value =
      names.expression (expression.withConstant value) := rfl

@[simp]
theorem increaseConstant_expression [Add K] :
    (names.expression expression).increaseConstant value =
      names.expression (expression.increaseConstant value) := rfl

@[simp]
theorem removeTerm_expression :
    (names.expression expression).removeTerm (names.symbol symbol) =
      names.expression (expression.removeTerm symbol) := by
  simp [Expression.removeTerm, Renaming.expression]

@[simp]
theorem times_expression [Mul K] :
    (names.expression expression).times factor = names.expression (expression.times factor) := by
  simp only [Expression.times, Renaming.expression, Expression.mk.injEq, true_and]
  exact Table.eq_of_entries (by simp [Table.mapValues])

section Terms

variable [Scalar K]

@[simp]
theorem addTerm_expression [Add K] :
    (names.expression expression).addTerm (names.symbol symbol) value =
      (expression.addTerm symbol value).map names.expression id := by
  unfold Expression.addTerm
  simp only [terms_expression, Table.get?_relabel, Option.map_id]
  cases expression.terms.get? symbol with
  | none =>
    dsimp only [id_eq]
    split <;> simp [Renaming.expression]
  | some present =>
    dsimp only [id_eq]
    split <;> simp [Renaming.expression]

@[simp]
theorem setTerm_expression :
    (names.expression expression).setTerm (names.symbol symbol) value =
      (expression.setTerm symbol value).map names.expression id := by
  unfold Expression.setTerm
  rw [contains_expression]
  split
  · split <;> simp [Renaming.expression]
  · simp [Renaming.expression]

variable [Add K] [Mul K]

theorem addTerms_expression (terms : List (Symbol × K)) :
    Expression.addTerms factor (terms.map (Prod.map names.symbol id)) (names.expression expression) =
      (Expression.addTerms factor terms expression).map names.expression names.report := by
  induction terms generalizing expression with
  | nil => rfl
  | cons entry rest ih =>
    simp only [List.map_cons, Expression.addTerms, Prod.map, id_eq, addTerm_expression, ih]
    split <;> rfl

@[simp]
theorem addScaledReporting_expression :
    (names.expression expression).addScaledReporting (names.expression other) factor =
      (expression.addScaledReporting other factor).map names.expression names.report := by
  simp [Expression.addScaledReporting, addTerms_expression]

@[simp]
theorem addScaled_expression :
    (names.expression expression).addScaled (names.expression other) factor =
      names.expression (expression.addScaled other factor) := by
  simp [Expression.addScaled]

@[simp]
theorem substituteReporting?_expression :
    (names.expression expression).substituteReporting? (names.symbol symbol)
        (names.expression other) =
      (expression.substituteReporting? symbol other).map (Prod.map names.expression names.report) := by
  simp [Expression.substituteReporting?, Function.comp_def]

end Terms

@[simp]
theorem solveFor?_expression [One K] [Neg K] [Mul K] [Div K] :
    (names.expression expression).solveFor? (names.symbol symbol) =
      (expression.solveFor? symbol).map (Prod.map id names.expression) := by
  simp [Expression.solveFor?, Function.comp_def]

@[simp]
theorem exchange?_expression [One K] [Neg K] [Mul K] [Div K] [Scalar K] (leaving : Symbol) :
    (names.expression expression).exchange? (names.symbol leaving) (names.symbol symbol) =
      (expression.exchange? leaving symbol).map names.expression := by
  simp [Expression.exchange?, Function.comp_def]

@[simp]
theorem ofVariable_expression [Zero K] [One K] [Scalar K] (unknown : Variable) :
    names.expression (.ofVariable unknown : Expression K) = .ofVariable (names.unknown unknown) := by
  have set := names.setTerm_expression (.ofConstant (0 : K)) unknown.symbol 1
  exact (congrArg Prod.fst set).symm

@[simp]
theorem sub_expression [One K] [Add K] [Neg K] [Mul K] [Scalar K] :
    names.expression (expression - other) =
      names.expression expression - names.expression other :=
  (names.addScaled_expression expression other (-1)).symm

end Expressions

end Renaming

end SoftSimplex
