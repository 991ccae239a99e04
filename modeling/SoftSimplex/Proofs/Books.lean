import SoftSimplex.Proofs.Chronicle
import SoftSimplex.Proofs.Exact
import SoftSimplex.Proofs.Registration

/-!
The books of every reachable solver can be reconciled. The installed constraints are those whose
additions have been reported and not taken back, and the charges, the stays, the edits and the
symbols are theirs, one for one. None of this asks anything of the numbers.
-/

namespace SoftSimplex

variable {K : Type}

def Charge.pair? : Charge K → Option (Symbol × Symbol)
  | ⟨[minus, plus], _⟩ => some (plus, minus)
  | _ => none

namespace Solver

variable {solver : Solver K}

def errorPair? (solver : Solver K) (constraint : Constraint K) : Option (Symbol × Symbol) :=
  (solver.charges.get? constraint.key).bind (·.pair?)

def symbolsAt (solver : Solver K) (key : Nat) : List Symbol :=
  ((solver.installed.get? key).map (·.marker)).toList ++
    ((solver.charges.get? key).map (·.symbols)).getD []

/-- What charges, edits, stays and symbols are to the installed constraints. -/
structure Reconciled (solver : Solver K) : Prop where
  distinct : (solver.constraints.map (·.key)).Nodup
  charged : ∀ key, solver.charges.contains key = true ↔
    ∃ constraint ∈ solver.constraints, constraint.key = key ∧ constraint.isRequired = false
  edited : ∀ unknown, solver.edits.contains unknown = true ↔
    ∃ constraint ∈ solver.constraints, constraint.kind = .edit unknown
  single : ∀ unknown, ∀ left ∈ solver.constraints, ∀ right ∈ solver.constraints,
    left.kind = .edit unknown → right.kind = .edit unknown → left = right
  named : ∀ unknown info, solver.edits.get? unknown = some info →
    info.constraint ∈ solver.constraints ∧ info.constraint.kind = .edit unknown ∧
      solver.errorPair? info.constraint = some (info.plus, info.minus)
  stays : solver.stays.map some = (solver.constraints.filter fun constraint =>
    constraint.isStay && !constraint.isRequired).map solver.errorPair?
  apart : ∀ left right symbol, symbol ∈ solver.symbolsAt left → symbol ∈ solver.symbolsAt right →
    left = right
  bound : ∀ key, ∀ symbol ∈ solver.symbolsAt key, symbol.id < solver.nextId

theorem mem_constraints_iff {constraint : Constraint K} :
    constraint ∈ solver.constraints ↔
      ∃ key entry, solver.installed.get? key = some entry ∧ entry.constraint = constraint := by
  unfold constraints Table.values
  simp only [List.map_map, List.mem_map, Function.comp_apply, Prod.exists, Table.mem_entries_iff]

theorem Keyed.distinct (keyed : solver.Keyed) : (solver.constraints.map (·.key)).Nodup := by
  have keys : solver.constraints.map (·.key) = solver.installed.keys := by
    unfold constraints Table.values Table.keys
    rw [List.map_map, List.map_map]
    refine List.map_congr_left fun item member => ?_
    exact keyed item.1 item.2 ((solver.installed.mem_entries_iff item.1 item.2).mp member)
  rw [keys]
  exact solver.installed.distinct

variable [Zero K] [One K] [Add K] [Mul K] [Scalar K]

section Books

variable (sound : solver.ledger.Sound)

include sound

theorem keyed_of_sound : solver.Keyed :=
  fun key entry found => (sound.entries key entry found).sameKey

theorem get?_of_mem_constraints {constraint : Constraint K}
    (member : constraint ∈ solver.constraints) :
    ∃ entry, solver.installed.get? constraint.key = some entry ∧ entry.constraint = constraint := by
  obtain ⟨key, entry, found, rfl⟩ := mem_constraints_iff.mp member
  exact ⟨entry, (keyed_of_sound sound key entry found).symm ▸ found, rfl⟩

theorem errorPair?_of_soft {entry : Installed K} {key : Nat}
    (found : solver.installed.get? key = some entry) (soft : entry.constraint.isRequired = false)
    (paired : entry.constraint.isEdit = true ∨ entry.constraint.isStay = true) :
    solver.errorPair? entry.constraint = some (entry.marker, entry.error) := by
  have enters := sound.entries key entry found
  have isCharge : solver.charges.get? key = _ := enters.soft_charge soft
  rw [Demand.equality_of_paired paired, if_neg Bool.false_ne_true,
    ← enters.marker_of_soft soft] at isCharge
  rw [errorPair?, enters.sameKey, isCharge]
  rfl

theorem symbolsAt_subset {key : Nat} {symbol : Symbol} (member : symbol ∈ solver.symbolsAt key) :
    ∃ entry, solver.installed.get? key = some entry ∧ symbol ∈ entry.symbols := by
  unfold symbolsAt at member
  cases found : solver.installed.get? key with
  | none =>
    have uncharged : solver.charges.get? key = none := sound.uncharged key found
    simp [found, uncharged] at member
  | some entry =>
    refine ⟨entry, rfl, ?_⟩
    rw [found] at member
    rcases List.mem_append.mp member with isMarker | isError
    · rw [List.mem_singleton.mp isMarker]
      exact entry.marker_mem_symbols
    · have enters := sound.entries key entry found
      cases isCharge : solver.charges.get? key with
      | none => simp [isCharge] at isError
      | some cost =>
        obtain ⟨soft, named⟩ := enters.charge_symbols (show _ = some cost from isCharge)
        rw [isCharge] at isError
        rcases named symbol isError with rfl | rfl
        · exact entry.marker_mem_symbols
        · exact Installed.error_mem_symbols soft

theorem charged_iff (key : Nat) : solver.charges.contains key = true ↔
    ∃ constraint ∈ solver.constraints, constraint.key = key ∧ constraint.isRequired = false := by
  constructor
  · intro charged
    obtain ⟨cost, isCharge⟩ := Option.isSome_iff_exists.mp charged
    cases found : solver.installed.get? key with
    | none =>
      have uncharged : solver.charges.get? key = none := sound.uncharged key found
      rw [uncharged] at isCharge
      cases isCharge
    | some entry =>
      have enters := sound.entries key entry found
      exact ⟨entry.constraint, mem_constraints_iff.mpr ⟨key, entry, found, rfl⟩, enters.sameKey,
        (enters.charge_symbols isCharge).1⟩
  · rintro ⟨constraint, member, rfl, soft⟩
    obtain ⟨entry, found, rfl⟩ := get?_of_mem_constraints sound member
    have isCharge : solver.charges.get? entry.constraint.key = _ :=
      (sound.entries _ entry found).soft_charge soft
    rw [Table.contains, isCharge]
    rfl

variable (tallies : solver.Tallies)

include tallies

theorem named_of_tallies {unknown : Variable} {info : EditInfo K}
    (registered : solver.edits.get? unknown = some info) :
    info.constraint ∈ solver.constraints ∧ info.constraint.kind = .edit unknown ∧
      solver.errorPair? info.constraint = some (info.plus, info.minus) := by
  obtain ⟨isEdit, other, there, _, soft, samePair⟩ := sound.edits unknown info registered
  obtain ⟨entry, found, same⟩ := tallies.named unknown info registered
  have sameEntry : other = entry := Option.some.inj (there.symm.trans found)
  subst sameEntry
  refine ⟨mem_constraints_iff.mpr ⟨_, other, found, same⟩, isEdit, ?_⟩
  have paired : other.constraint.isEdit = true := by simp [Demand.isEdit, same, isEdit]
  rw [← same, errorPair?_of_soft sound found soft (Or.inl paired), samePair]

theorem stays_of_tallies : solver.stays.map some = (solver.constraints.filter fun constraint =>
    constraint.isStay && !constraint.isRequired).map solver.errorPair? := by
  rw [tallies.stays, constraints, List.filter_map, List.map_map, List.map_filterMap,
    ← List.filterMap_eq_map, List.filterMap_filter]
  refine List.filterMap_congr fun entry member => ?_
  obtain ⟨⟨key, value⟩, inEntries, rfl⟩ := List.mem_map.mp member
  have found := (solver.installed.mem_entries_iff key value).mp inEntries
  unfold Installed.stayPair?
  by_cases isStay : value.constraint.isStay = true ∧ value.constraint.isRequired = false
  · simp [isStay, errorPair?_of_soft sound found isStay.2 (Or.inr isStay.1)]
  · simp [isStay]

theorem Tallies.reconciled : solver.Reconciled := by
  have registers : ∀ constraint ∈ solver.constraints, ∀ unknown,
      constraint.kind = .edit unknown →
        ∃ info, solver.edits.get? unknown = some info ∧ info.constraint = constraint := by
    intro constraint member unknown isEdit
    obtain ⟨entry, found, rfl⟩ := get?_of_mem_constraints sound member
    exact tallies.registered _ entry unknown found isEdit
  constructor
  · exact (keyed_of_sound sound).distinct
  · exact charged_iff sound
  · intro unknown
    constructor
    · intro registered
      obtain ⟨info, isInfo⟩ := Option.isSome_iff_exists.mp registered
      obtain ⟨member, isEdit, _⟩ := named_of_tallies sound tallies isInfo
      exact ⟨info.constraint, member, isEdit⟩
    · rintro ⟨constraint, member, isEdit⟩
      obtain ⟨info, isInfo, _⟩ := registers constraint member unknown isEdit
      exact Option.isSome_iff_exists.mpr ⟨info, isInfo⟩
  · intro unknown left inLeft right inRight leftEdit rightEdit
    obtain ⟨info, isInfo, rfl⟩ := registers left inLeft unknown leftEdit
    obtain ⟨other, isOther, rfl⟩ := registers right inRight unknown rightEdit
    rw [isInfo] at isOther
    cases isOther
    rfl
  · exact fun unknown info registered => named_of_tallies sound tallies registered
  · exact stays_of_tallies sound tallies
  · intro left right symbol inLeft inRight
    obtain ⟨leftEntry, leftFound, leftMember⟩ := symbolsAt_subset sound inLeft
    obtain ⟨rightEntry, rightFound, rightMember⟩ := symbolsAt_subset sound inRight
    exact sound.apart left right leftEntry rightEntry leftFound rightFound symbol leftMember
      rightMember
  · intro key symbol member
    obtain ⟨entry, found, inEntry⟩ := symbolsAt_subset sound member
    exact (sound.entries key entry found).bound symbol inEntry

end Books

end Solver

namespace Session

section Everything

variable [Zero K] [One K] [Add K] [Sub K] [Neg K] [Mul K] [Div K] [LT K] [DecidableLT K] [LE K]
  [DecidableLE K] [Scalar K] {session : Session K} {log : List (Event K)}

theorem Reachable.tallies (reachable : session.Reachable) : session.solver.Tallies :=
  (Runs.keeps reachable (fun _ _ _ allowed => allowed) Solver.Tallies
    (fun _ => ⟨rfl, nofun, nofun⟩) fun _ _ _ move sound tallies => tallies.move sound move).2

/-- Whatever the numbers are, and whether calls fail or not, the installed constraints are those
that stand, and everything else in the books is theirs. -/
theorem reconciled_of_recorded (recorded : Recorded session log) :
    session.solver.constraints = standing log ∧ session.solver.Reconciled :=
  ⟨recorded.chronicles.2,
    recorded.reachable.tallies.reconciled recorded.reachable.sound.solver.books⟩

end Everything

/-- A wish whose strength is changed while it is installed and that is taken out again, a bound that
is refused, and an edit trimmed with its session next to one that stays. -/
theorem reconciled_of_recorded_trimmed :
    let requests : List (Call ℚ) := [.newVariable none 0, .newVariable none 0,
      .make (.atMost (.ofVariable ⟨1⟩) (.ofConstant 10) .required),
      .make (.equal (.ofVariable ⟨1⟩) (.ofConstant 5) .weak), .add 0, .add 1,
      .addStay ⟨1⟩ .medium 1, .addStay ⟨2⟩ .required 1, .setStrength 1 .required, .remove 1,
      .make (.atLeast (.ofVariable ⟨1⟩) (.ofConstant 20) .required), .add 4,
      .addEdit ⟨1⟩ .strong, .beginEdit, .addEdit ⟨2⟩ .weak, .beginEdit, .endEdit]
    let session := (start (.withConfig .standard) .log).replay 8 requests
    let log := (start (.withConfig .standard) .log).reported 8 requests
    Recorded session log ∧
      (session.solver.constraints = standing log ∧ session.solver.Reconciled) ∧
      (standing log).map (·.key) = [0, 2, 3, 5] ∧ session.solver.charges.keys = [2, 5] ∧
      session.solver.stays.length = 1 ∧ session.solver.edits.keys = [⟨1⟩] := by
  intro requests session log
  have recorded : Recorded session log :=
    (Recorded.fresh .standard .log).replay
      ⟨trivial, trivial, Demand.external_upperBound ⟨1⟩ 10 .required,
        Demand.external_lowerBound ⟨1⟩ 5 .weak, trivial, trivial, trivial, trivial, trivial,
        trivial, Demand.external_lowerBound ⟨1⟩ 20 .required, trivial, trivial, trivial, trivial,
        trivial, trivial, trivial⟩
  exact ⟨recorded, reconciled_of_recorded recorded, by decide +kernel, by decide +kernel,
    by decide +kernel, by decide +kernel⟩

end Session

end SoftSimplex
