import SoftSimplex.Proofs.Rows
import SoftSimplex.Solver.Edit
import SoftSimplex.Solver.Stay

/-!
The books of a solver: which constraints are in its tableau, with the symbols made for each. Every
symbol has one constraint, and what stays, edits and charges name belongs to a constraint that is
there. Adding and removing a constraint keep the books in order.
-/

namespace SoftSimplex

def Demand.External {K : Type} (demand : Demand K) : Prop :=
  ∀ symbol ∈ demand.expression.symbols, symbol.isExternal = true

instance {K : Type} (demand : Demand K) : Decidable demand.External :=
  inferInstanceAs (Decidable (∀ symbol ∈ demand.expression.symbols, symbol.isExternal = true))

def Demand.markerKind {K : Type} (demand : Demand K) : SymbolKind :=
  if demand.isRequired = true ∧ demand.isInequality = false then .dummy else .slack

namespace Installed

variable {K : Type}

def error (entry : Installed K) : Symbol := ⟨entry.marker.id + 1, .slack⟩

def symbols (entry : Installed K) : List Symbol :=
  if entry.constraint.isRequired then [entry.marker] else [entry.marker, entry.error]

theorem marker_ne_error (entry : Installed K) : entry.marker ≠ entry.error := by
  intro same
  have ids := congrArg Symbol.id same
  simp [Installed.error] at ids

theorem mem_symbols_iff {entry : Installed K} {symbol : Symbol} :
    symbol ∈ entry.symbols ↔
      symbol = entry.marker ∨ entry.constraint.isRequired = false ∧ symbol = entry.error := by
  unfold symbols
  split <;> simp_all

theorem marker_mem_symbols (entry : Installed K) : entry.marker ∈ entry.symbols :=
  mem_symbols_iff.mpr (.inl rfl)

theorem error_mem_symbols {entry : Installed K} (soft : entry.constraint.isRequired = false) :
    entry.error ∈ entry.symbols :=
  mem_symbols_iff.mpr (.inr ⟨soft, rfl⟩)

end Installed

structure Ledger (K : Type) where
  installed : Table Nat (Installed K)
  charges : Table Nat (Charge K)
  stays : List (Symbol × Symbol)
  edits : Table Variable (EditInfo K)
  nextId : Nat
  nextKey : Nat

def Solver.ledger {K : Type} (solver : Solver K) : Ledger K :=
  ⟨solver.installed, solver.charges, solver.stays, solver.edits, solver.nextId, solver.nextKey⟩

section Charges

variable {K : Type} [Zero K] [One K] [Add K] [Mul K] [Scalar K]

def Demand.chargeAt (demand : Demand K) (start : Nat) : Option (Charge K) :=
  if demand.isRequired then none
  else some ⟨if demand.isInequality then [⟨start + 1, .slack⟩]
    else [⟨start + 1, .slack⟩, ⟨start, .slack⟩], demand.strength.unitCost demand.weight⟩

theorem Demand.chargeAt_eq_none_iff (demand : Demand K) (start : Nat) :
    demand.chargeAt start = none ↔ demand.isRequired = true := by
  unfold chargeAt
  split <;> simp_all

namespace Ledger

/-- What a constraint in the tableau has in the books. -/
structure Enters (ledger : Ledger K) (key : Nat) (entry : Installed K) : Prop where
  sameKey : entry.constraint.key = key
  older : key < ledger.nextKey
  external : entry.constraint.External
  marker : entry.marker.kind = entry.constraint.markerKind
  bound : ∀ symbol ∈ entry.symbols, symbol.id < ledger.nextId
  charge : ledger.charges.get? key = entry.constraint.chargeAt entry.marker.id

def Pairs (ledger : Ledger K) (key : Nat) (kind : ConstraintKind) (pair : Symbol × Symbol) : Prop :=
  ∃ entry, ledger.installed.get? key = some entry ∧ entry.constraint.kind = kind ∧
    entry.constraint.isRequired = false ∧ pair = (entry.marker, entry.error)

structure Sound (ledger : Ledger K) : Prop where
  entries : ∀ key entry, ledger.installed.get? key = some entry → ledger.Enters key entry
  apart : ∀ left right leftEntry rightEntry, ledger.installed.get? left = some leftEntry →
    ledger.installed.get? right = some rightEntry →
    ∀ symbol, symbol ∈ leftEntry.symbols → symbol ∈ rightEntry.symbols → left = right
  uncharged : ∀ key, ledger.installed.get? key = none → ledger.charges.get? key = none
  stays : ∀ pair ∈ ledger.stays, ∃ key unknown, ledger.Pairs key (.stay unknown) pair
  edits : ∀ unknown info, ledger.edits.get? unknown = some info →
    info.constraint.kind = .edit unknown ∧
      ledger.Pairs info.constraint.key (.edit unknown) (info.plus, info.minus)

variable {ledger : Ledger K} {key : Nat} {entry : Installed K}

theorem Enters.soft_charge (enters : ledger.Enters key entry)
    (soft : entry.constraint.isRequired = false) :
    ledger.charges.get? key = some ⟨if entry.constraint.isInequality then [entry.error]
      else [entry.error, ⟨entry.marker.id, .slack⟩],
      entry.constraint.strength.unitCost entry.constraint.weight⟩ := by
  rw [enters.charge, Demand.chargeAt, soft]
  rfl

theorem Enters.marker_of_soft (enters : ledger.Enters key entry)
    (soft : entry.constraint.isRequired = false) :
    entry.marker = ⟨entry.marker.id, .slack⟩ := by
  have kind := enters.marker
  rw [Demand.markerKind, soft] at kind
  rcases marker : entry.marker with ⟨id, kindOf⟩
  rw [marker] at kind
  simpa using kind

theorem Enters.required_of_dummy (enters : ledger.Enters key entry) {symbol : Symbol}
    (member : symbol ∈ entry.symbols) (isDummy : symbol.kind = .dummy) :
    entry.constraint.isRequired = true ∧ entry.constraint.isInequality = false := by
  have kind := enters.marker
  have isMarker : symbol = entry.marker := by
    unfold Installed.symbols at member
    split at member
    · exact List.mem_singleton.mp member
    · simp only [List.mem_cons, List.not_mem_nil, or_false] at member
      refine member.resolve_right ?_
      rintro rfl
      cases isDummy
  rw [← isMarker, isDummy, Demand.markerKind] at kind
  split at kind
  · assumption
  · cases kind

theorem Sound.advance (sound : ledger.Sound) {nextId nextKey : Nat} (ids : ledger.nextId ≤ nextId)
    (keys : ledger.nextKey ≤ nextKey) :
    ({ ledger with nextId, nextKey } : Ledger K).Sound :=
  { sound with
    entries := by
      intro key entry found
      have enters := sound.entries key entry found
      exact { enters with
        older := Nat.lt_of_lt_of_le enters.older keys
        bound := fun symbol member => Nat.lt_of_lt_of_le (enters.bound symbol member) ids } }

end Ledger

end Charges

/-! Adding -/

section Equations

variable {K : Type} [Zero K] [One K] [Add K] [Mul K] [Scalar K]

/-- How many symbols a demand needs. -/
def Demand.width (demand : Demand K) : Nat := if demand.isRequired then 1 else 2

structure Equation.MadeFor (equation : Equation K) (demand : Demand K) (start : Nat) : Prop where
  marker : equation.marker = ⟨start, demand.markerKind⟩
  charge : equation.charge = demand.chargeAt start
  pair : equation.pair =
    if demand.isRequired = false ∧ demand.isInequality = false ∧
      (demand.isEdit = true ∨ demand.isStay = true)
    then some (⟨start, .slack⟩, ⟨start + 1, .slack⟩) else none
  nextId : equation.nextId = start + demand.width

variable [Neg K] [LT K] [DecidableLT K]

omit [LT K] [DecidableLT K] in
theorem madeFor_rawEquation (tableau : Tableau K) (start : Nat) (demand : Demand K) :
    (tableau.rawEquation start demand).MadeFor demand start := by
  unfold Tableau.rawEquation
  cases inequality : demand.isInequality <;> cases required : demand.isRequired <;>
    constructor <;>
    simp [Demand.markerKind, Demand.chargeAt, Demand.width, inequality, required]

theorem madeFor_equationOf (tableau : Tableau K) (start : Nat) (demand : Demand K) :
    (tableau.equationOf start demand).MadeFor demand start := by
  have made := madeFor_rawEquation tableau start demand
  unfold Tableau.equationOf
  dsimp only
  split
  · exact ⟨made.marker, made.charge, made.pair, made.nextId⟩
  · exact made

end Equations

namespace Solver

variable {K : Type} (solver : Solver K) (constraint : Constraint K) (equation : Equation K)

theorem installed_record : (solver.record constraint equation).installed =
    solver.installed.insert constraint.key ⟨constraint, equation.marker⟩ := by
  unfold record
  dsimp only
  split <;> rfl

theorem get?_installed_record (key : Nat) :
    (solver.record constraint equation).installed.get? key =
      if constraint.key = key then some ⟨constraint, equation.marker⟩
      else solver.installed.get? key := by
  rw [installed_record, Table.get?_insert]

theorem charges_record : (solver.record constraint equation).charges =
    match equation.charge with
    | none => solver.charges
    | some charge => solver.charges.insert constraint.key charge := by
  unfold record
  dsimp only
  split <;> rfl

theorem record_writes : ∃ installed charges stays edits, solver.record constraint equation =
    { solver with installed, charges, stays, edits, needsSolving := true } := by
  unfold record
  dsimp only
  split <;> exact ⟨_, _, _, _, rfl⟩

theorem tableau_record : (solver.record constraint equation).tableau = solver.tableau := by
  obtain ⟨_, _, _, _, writes⟩ := solver.record_writes constraint equation
  rw [writes]

theorem needsSolving_record : (solver.record constraint equation).needsSolving = true := by
  obtain ⟨_, _, _, _, writes⟩ := solver.record_writes constraint equation
  rw [writes]

theorem ids_record : (solver.record constraint equation).nextId = solver.nextId ∧
    (solver.record constraint equation).nextKey = solver.nextKey := by
  obtain ⟨_, _, _, _, writes⟩ := solver.record_writes constraint equation
  rw [writes]
  exact ⟨rfl, rfl⟩

theorem depths_record : (solver.record constraint equation).depths = solver.depths := by
  obtain ⟨_, _, _, _, writes⟩ := solver.record_writes constraint equation
  rw [writes]

theorem config_record : (solver.record constraint equation).config = solver.config := by
  obtain ⟨_, _, _, _, writes⟩ := solver.record_writes constraint equation
  rw [writes]

theorem get?_charges_record (key : Nat) : (solver.record constraint equation).charges.get? key =
    if constraint.key = key then equation.charge.or (solver.charges.get? key)
    else solver.charges.get? key := by
  rw [charges_record]
  cases equation.charge with
  | none => simp
  | some charge => simp [Table.get?_insert]

theorem mem_stays_record {pair : Symbol × Symbol}
    (member : pair ∈ (solver.record constraint equation).stays) :
    pair ∈ solver.stays ∨
      ∃ unknown, constraint.kind = .stay unknown ∧ equation.pair = some pair := by
  unfold record at member
  dsimp only at member
  split at member
  · rename_i unknown made kind paired
    rcases List.mem_append.mp member with old | new
    · exact Or.inl old
    · exact Or.inr ⟨unknown, kind, by rw [paired, List.mem_singleton.mp new]⟩
  · exact Or.inl member
  · exact Or.inl member

theorem mem_edits_record {unknown : Variable} {info : EditInfo K}
    (found : (solver.record constraint equation).edits.get? unknown = some info) :
    solver.edits.get? unknown = some info ∨
      constraint.kind = .edit unknown ∧ info.constraint = constraint ∧
        equation.pair = some (info.plus, info.minus) := by
  unfold record at found
  dsimp only at found
  split at found
  · exact Or.inl found
  · rename_i edited plus minus kind paired
    rw [Table.get?_insert] at found
    split at found
    · rename_i same
      subst same
      cases found
      exact Or.inr ⟨kind, rfl, paired⟩
    · exact Or.inl found
  · exact Or.inl found

end Solver

namespace Ledger

variable {K : Type} [Zero K] [One K] [Add K] [Mul K] [Scalar K] {solver : Solver K}
  {constraint : Constraint K} {equation : Equation K} {start : Nat}

omit [Zero K] [One K] [Add K] [Mul K] [Scalar K] in
theorem Pairs.of_installed {before after : Ledger K} {key : Nat} {kind : ConstraintKind}
    {pair : Symbol × Symbol} (pairs : before.Pairs key kind pair)
    (kept : ∀ entry, before.installed.get? key = some entry →
      after.installed.get? key = some entry) : after.Pairs key kind pair := by
  obtain ⟨entry, found, sameKind, soft, same⟩ := pairs
  exact ⟨entry, kept entry found, sameKind, soft, same⟩

theorem pairs_of_madeFor (made : equation.MadeFor constraint.toDemand start)
    {pair : Symbol × Symbol} (paired : equation.pair = some pair) :
    constraint.isRequired = false ∧
      pair = ((⟨constraint, equation.marker⟩ : Installed K).marker,
        (⟨constraint, equation.marker⟩ : Installed K).error) := by
  rw [made.pair] at paired
  split at paired
  · rename_i soft
    refine ⟨soft.1, ?_⟩
    have kind : constraint.markerKind = .slack := by simp [Demand.markerKind, soft.1]
    cases paired
    simp [Installed.error, made.marker, kind]
  · cases paired

theorem ids_of_madeFor (made : equation.MadeFor constraint.toDemand start) {symbol : Symbol}
    (member : symbol ∈ (⟨constraint, equation.marker⟩ : Installed K).symbols) :
    start ≤ symbol.id ∧ symbol.id < equation.nextId := by
  have width := made.nextId
  unfold Installed.symbols at member
  split at member
  · rename_i required
    rw [List.mem_singleton.mp member, made.marker]
    simp only [Demand.width, required, if_true] at width
    simp only
    omega
  · rename_i soft
    simp only [Demand.width, soft] at width
    simp only [List.mem_cons, List.not_mem_nil, or_false] at member
    rcases member with same | same
    · rw [same, made.marker]
      simp at width ⊢
      omega
    · rw [same, Installed.error, made.marker]
      simp at width ⊢
      omega

theorem Sound.enters_record (sound : ({ solver.ledger with nextId := start } : Ledger K).Sound)
    (made : equation.MadeFor constraint.toDemand start) (ids : equation.nextId ≤ solver.nextId)
    (older : constraint.key < solver.nextKey) (external : constraint.External)
    (fresh : solver.installed.get? constraint.key = none) {key : Nat} {entry : Installed K}
    (found : (solver.record constraint equation).installed.get? key = some entry) :
    (solver.record constraint equation).ledger.Enters key entry := by
  obtain ⟨sameId, sameKeys⟩ := solver.ids_record constraint equation
  rw [solver.get?_installed_record] at found
  split at found
  · rename_i same
    subst same
    cases found
    refine ⟨rfl, ?_, external, ?_, ?_, ?_⟩
    · exact Nat.lt_of_lt_of_eq older sameKeys.symm
    · rw [made.marker]
    · intro symbol member
      exact Nat.lt_of_lt_of_eq (Nat.lt_of_lt_of_le (ids_of_madeFor made member).2 ids) sameId.symm
    · have none := sound.uncharged constraint.key fresh
      refine (solver.get?_charges_record constraint equation constraint.key).trans ?_
      rw [if_pos rfl, show solver.charges.get? constraint.key = _ from none, Option.or_none,
        made.charge, made.marker]
  · rename_i other
    have enters := sound.entries key entry found
    refine ⟨enters.sameKey, ?_, enters.external, enters.marker, ?_, ?_⟩
    · exact Nat.lt_of_lt_of_eq enters.older sameKeys.symm
    · intro symbol member
      have old : symbol.id < start := enters.bound symbol member
      have width := made.nextId
      exact Nat.lt_of_lt_of_eq (by omega) sameId.symm
    · refine (solver.get?_charges_record constraint equation key).trans ?_
      rw [if_neg other]
      exact enters.charge

theorem Sound.apart_record (sound : ({ solver.ledger with nextId := start } : Ledger K).Sound)
    (made : equation.MadeFor constraint.toDemand start) {left right : Nat}
    {leftEntry rightEntry : Installed K}
    (leftFound : (solver.record constraint equation).installed.get? left = some leftEntry)
    (rightFound : (solver.record constraint equation).installed.get? right = some rightEntry)
    {symbol : Symbol} (inLeft : symbol ∈ leftEntry.symbols) (inRight : symbol ∈ rightEntry.symbols) :
    left = right := by
  rw [solver.get?_installed_record] at leftFound rightFound
  split at leftFound
  · rename_i leftNew
    cases leftFound
    split at rightFound
    · rename_i rightNew
      exact leftNew.symm.trans rightNew
    · have old : symbol.id < start := (sound.entries right rightEntry rightFound).bound symbol inRight
      have new := (ids_of_madeFor made inLeft).1
      omega
  · split at rightFound
    · cases rightFound
      have old : symbol.id < start := (sound.entries left leftEntry leftFound).bound symbol inLeft
      have new := (ids_of_madeFor made inRight).1
      omega
    · exact sound.apart left right leftEntry rightEntry leftFound rightFound symbol inLeft inRight

theorem Sound.record (sound : ({ solver.ledger with nextId := start } : Ledger K).Sound)
    (made : equation.MadeFor constraint.toDemand start) (ids : equation.nextId ≤ solver.nextId)
    (older : constraint.key < solver.nextKey) (external : constraint.External)
    (fresh : solver.installed.get? constraint.key = none) :
    (solver.record constraint equation).ledger.Sound := by
  have new : (solver.record constraint equation).ledger.installed.get? constraint.key =
      some ⟨constraint, equation.marker⟩ :=
    (solver.get?_installed_record constraint equation constraint.key).trans (if_pos rfl)
  have kept : ∀ key entry, solver.installed.get? key = some entry →
      (solver.record constraint equation).ledger.installed.get? key = some entry := by
    intro key entry found
    refine (solver.get?_installed_record constraint equation key).trans ?_
    rw [if_neg, found]
    rintro rfl
    rw [fresh] at found
    cases found
  constructor
  · intro key entry found
    exact sound.enters_record made ids older external fresh found
  · intro left right leftEntry rightEntry leftFound rightFound symbol inLeft inRight
    exact sound.apart_record made leftFound rightFound inLeft inRight
  · intro key missing
    replace missing := (solver.get?_installed_record constraint equation key).symm.trans missing
    split at missing
    · cases missing
    · rename_i other
      refine (solver.get?_charges_record constraint equation key).trans ?_
      rw [if_neg other]
      exact sound.uncharged key missing
  · intro pair member
    rcases solver.mem_stays_record constraint equation member with old | ⟨unknown, kind, paired⟩
    · obtain ⟨key, unknown, pairs⟩ := sound.stays pair old
      exact ⟨key, unknown, pairs.of_installed (kept key)⟩
    · obtain ⟨soft, same⟩ := pairs_of_madeFor made paired
      exact ⟨constraint.key, unknown, _, new, kind, soft, same⟩
  · intro unknown info found
    rcases solver.mem_edits_record constraint equation found with old | ⟨kind, same, paired⟩
    · obtain ⟨sameKind, pairs⟩ := sound.edits unknown info old
      exact ⟨sameKind, pairs.of_installed (kept info.constraint.key)⟩
    · obtain ⟨soft, samePair⟩ := pairs_of_madeFor made paired
      rw [same]
      exact ⟨kind, _, new, kind, soft, samePair⟩

end Ledger

/-! Removing -/

section Removing

variable {K : Type}

def Ledger.editsWithout (ledger : Ledger K) (constraint : Constraint K) (unknown : Variable) :
    Table Variable (EditInfo K) :=
  match ledger.edits.get? unknown with
  | none => ledger.edits
  | some info => if info.constraint == constraint then ledger.edits.erase unknown else ledger.edits

def Ledger.cleared (ledger : Ledger K) (constraint : Constraint K) (charge : Option (Charge K)) :
    Ledger K :=
  match constraint.kind, charge with
  | .stay _, some cost => { ledger with
      stays := ledger.stays.filter fun pair =>
        !cost.symbols.contains pair.1 && !cost.symbols.contains pair.2 }
  | .edit unknown, _ => { ledger with edits := ledger.editsWithout constraint unknown }
  | _, _ => ledger

theorem ledger_dropEdit (solver : Solver K) (constraint : Constraint K) (unknown : Variable) :
    (solver.dropEdit constraint unknown).ledger =
      { solver.ledger with edits := solver.ledger.editsWithout constraint unknown } := by
  have sameEdits : solver.ledger.edits = solver.edits := rfl
  unfold Solver.dropEdit Ledger.editsWithout
  rw [sameEdits]
  cases solver.edits.get? unknown with
  | none => rfl
  | some info =>
    dsimp only
    split <;> rfl

theorem Solver.clearAway_writes (solver : Solver K) (constraint : Constraint K) (marker : Symbol)
    (charge : Option (Charge K)) : ∃ tableau stays edits,
      solver.clearAway constraint marker charge = { solver with tableau, stays, edits } := by
  have dropped : ∀ (current : Solver K) unknown, ∃ tableau edits,
      current.dropEdit constraint unknown = { current with tableau, edits } := by
    intro current unknown
    unfold dropEdit
    split
    · exact ⟨_, _, rfl⟩
    · split <;> exact ⟨_, _, rfl⟩
  unfold clearAway
  cases charge with
  | none =>
    cases constraint.kind with
    | edit unknown =>
      obtain ⟨tableau, edits, writes⟩ := dropped solver unknown
      exact ⟨tableau, solver.stays, edits, writes⟩
    | _ => exact ⟨_, _, _, rfl⟩
  | some cost =>
    cases constraint.kind with
    | edit unknown =>
      obtain ⟨tableau, edits, writes⟩ := dropped (solver.dropErrors marker cost) unknown
      exact ⟨tableau, solver.stays, edits, writes⟩
    | _ => exact ⟨_, _, _, rfl⟩

theorem ledger_clearAway [Zero K] (solver : Solver K) (constraint : Constraint K) (marker : Symbol)
    (charge : Option (Charge K)) :
    (solver.clearAway constraint marker charge).ledger =
      solver.ledger.cleared constraint charge := by
  unfold Solver.clearAway Ledger.cleared
  cases charge with
  | none =>
    cases constraint.kind with
    | edit unknown => exact ledger_dropEdit solver constraint unknown
    | _ => rfl
  | some cost =>
    cases constraint.kind with
    | edit unknown => exact ledger_dropEdit (solver.dropErrors marker cost) constraint unknown
    | _ => rfl

namespace Ledger

variable {ledger : Ledger K} {constraint : Constraint K} {charge : Option (Charge K)}

theorem installed_cleared : (ledger.cleared constraint charge).installed = ledger.installed := by
  unfold cleared
  split <;> rfl

theorem charges_cleared : (ledger.cleared constraint charge).charges = ledger.charges := by
  unfold cleared
  split <;> rfl

theorem ids_cleared : (ledger.cleared constraint charge).nextId = ledger.nextId ∧
    (ledger.cleared constraint charge).nextKey = ledger.nextKey := by
  unfold cleared
  split <;> exact ⟨rfl, rfl⟩

theorem mem_stays_cleared {pair : Symbol × Symbol}
    (member : pair ∈ (ledger.cleared constraint charge).stays) :
    pair ∈ ledger.stays ∧ ∀ unknown cost, constraint.kind = .stay unknown → charge = some cost →
      pair.1 ∉ cost.symbols := by
  unfold cleared at member
  split at member
  · rename_i known cost kind
    obtain ⟨old, kept⟩ := List.mem_filter.mp member
    refine ⟨old, ?_⟩
    rintro _ _ _ ⟨⟩
    simp only [Bool.and_eq_true, Bool.not_eq_true', List.contains_eq_mem,
      decide_eq_false_iff_not] at kept
    exact kept.1
  · rename_i kind
    exact ⟨member, fun _ _ isStay => absurd (kind.symm.trans isStay) nofun⟩
  · rename_i notStay
    exact ⟨member, fun unknown cost isStay charged => (notStay unknown cost isStay charged).elim⟩

theorem mem_edits_cleared {unknown : Variable} {info : EditInfo K}
    (found : (ledger.cleared constraint charge).edits.get? unknown = some info) :
    ledger.edits.get? unknown = some info ∧
      (constraint.kind = .edit unknown → info.constraint.key ≠ constraint.key) := by
  unfold cleared at found
  split at found
  · rename_i kind
    refine ⟨found, fun isEdit => ?_⟩
    cases kind.symm.trans isEdit
  · rename_i edited kind
    dsimp only at found
    unfold editsWithout at found
    split at found
    · rename_i missing
      refine ⟨found, ?_⟩
      intro isEdit
      rw [kind] at isEdit
      cases isEdit
      rw [missing] at found
      cases found
    · rename_i registered present
      split at found
      · obtain ⟨other, was⟩ := Table.get?_erase_eq_some_iff.mp found
        refine ⟨was, fun isEdit => ?_⟩
        rw [kind] at isEdit
        cases isEdit
        exact absurd rfl other
      · rename_i different
        refine ⟨found, fun isEdit sameKey => ?_⟩
        rw [kind] at isEdit
        cases isEdit
        rw [present] at found
        cases found
        exact different (by simp [BEq.beq, sameKey])
  · rename_i notEdit _
    exact ⟨found, fun isEdit => (notEdit unknown isEdit).elim⟩

variable [Zero K] [One K] [Add K] [Mul K] [Scalar K] {entry : Installed K}

theorem Sound.remove (sound : ledger.Sound)
    (found : ledger.installed.get? constraint.key = some entry)
    (sameKind : entry.constraint.kind = constraint.kind) :
    ((({ ledger with
      charges := ledger.charges.erase constraint.key
      installed := ledger.installed.erase constraint.key } : Ledger K).cleared constraint
        (ledger.charges.get? constraint.key)).Sound) := by
  have enters := sound.entries constraint.key entry found
  constructor
  · intro key other still
    rw [installed_cleared] at still
    obtain ⟨different, was⟩ := Table.get?_erase_eq_some_iff.mp still
    have others := sound.entries key other was
    refine ⟨others.sameKey, ?_, others.external, others.marker, ?_, ?_⟩
    · rw [ids_cleared.2]
      exact others.older
    · rw [ids_cleared.1]
      exact others.bound
    · rw [charges_cleared]
      exact (Table.get?_erase ..).trans ((if_neg different).trans others.charge)
  · intro left right leftEntry rightEntry leftStill rightStill
    rw [installed_cleared] at leftStill rightStill
    exact sound.apart left right leftEntry rightEntry (Table.get?_erase_eq_some_iff.mp leftStill).2
      (Table.get?_erase_eq_some_iff.mp rightStill).2
  · intro key missing
    rw [installed_cleared] at missing
    rw [charges_cleared]
    dsimp only at missing ⊢
    rw [Table.get?_erase] at missing ⊢
    split at missing
    · rename_i same
      rw [if_pos same]
    · rename_i different
      rw [if_neg different]
      exact sound.uncharged key missing
  · intro pair member
    obtain ⟨old, notItsOwn⟩ := mem_stays_cleared member
    obtain ⟨key, unknown, other, was, kind, soft, samePair⟩ := sound.stays pair old
    refine ⟨key, unknown, other, ?_, kind, soft, samePair⟩
    rw [installed_cleared]
    refine Table.get?_erase_eq_some_iff.mpr ⟨fun same => ?_, was⟩
    rw [← same, found] at was
    cases was
    refine notItsOwn unknown _ (sameKind.symm.trans kind) (enters.soft_charge soft) ?_
    have equality : entry.constraint.isInequality = false := by
      simp [Demand.isInequality, kind]
    simp only [equality, samePair]
    rw [enters.marker_of_soft soft]
    simp
  · intro unknown info present
    obtain ⟨old, notItsOwn⟩ := mem_edits_cleared present
    obtain ⟨isEdit, other, was, kind, soft, samePair⟩ := sound.edits unknown info old
    refine ⟨isEdit, other, ?_, kind, soft, samePair⟩
    rw [installed_cleared]
    refine Table.get?_erase_eq_some_iff.mpr ⟨fun same => ?_, was⟩
    rw [← same, found] at was
    cases was
    exact notItsOwn (sameKind.symm.trans kind) same.symm

end Ledger

end Removing

end SoftSimplex
