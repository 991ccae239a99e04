import SoftSimplex.Proofs.Adding
import SoftSimplex.Proofs.Composition

/-!
What computations leave alone. Optimizing, publishing and repairing change the tableau and the
values; only adding, removing, suggesting and the sessions of the edit protocol change what a solver
has on record.
-/

namespace SoftSimplex

variable {K σ α β : Type}

namespace Action

/-- However the computation ends, what held before holds after it. -/
def Keeps (holds : σ → Prop) (action : Action K σ α) : Prop :=
  ∀ limit state, holds state →
    (action limit state).Meets (fun _ after => holds after) (fun _ after => holds after)

section Keeping

variable {holds : σ → Prop} {action first : Action K σ α}

theorem keeps_bind {next : α → Action K σ β} (kept : first.Keeps holds)
    (continued : ∀ value, (next value).Keeps holds) : (first >>= next).Keeps holds := by
  intro limit state held
  rw [meets_bind]
  exact (kept limit state held).imp (fun value reached => continued value limit reached)
    fun _ _ reached => reached

theorem keeps_pure (value : α) : (Pure.pure value : Action K σ α).Keeps holds :=
  fun _ _ held => held

theorem keeps_get : (get : Action K σ σ).Keeps holds := fun _ _ held => held

theorem keeps_modify {change : σ → σ} (kept : ∀ state, holds state → holds (change state)) :
    (modify change : Action K σ Unit).Keeps holds := fun _ => kept

theorem keeps_fail (fault : Fault) : (fail fault : Action K σ α).Keeps holds := fun _ _ held => held

theorem keeps_report (events : List (Event K)) : (report events : Action K σ Unit).Keeps holds :=
  fun _ _ held => held

theorem keeps_attempt (kept : action.Keeps holds) : action.attempt.Keeps holds :=
  fun limit state held => (meets_attempt action _).mpr (kept limit state held)

theorem keeps_mapFault {change : Fault → Fault} (kept : action.Keeps holds) :
    (action.mapFault change).Keeps holds :=
  fun limit state held => (meets_mapFault change action _).mpr (kept limit state held)

theorem keeps_forEach {act : α → Action K σ Unit} (kept : ∀ value, (act value).Keeps holds)
    (values : List α) : (forEach act values).Keeps holds :=
  fun limit _ held => meets_forEach holds (fun value => kept value limit) values held

theorem compositional_keeps {ω : Type} (sees : σ → ω) (holds : σ → Prop) :
    Compositional sees fun α => Keeps (K := K) (α := α) holds where
  pure := keeps_pure
  fail fault _ := keeps_fail fault
  read _ continued := keeps_bind keeps_get continued
  bind := keeps_bind
  mapFault _ _ := keeps_mapFault

end Keeping

end Action

/-- The constraints with their charges, the stays, the edits and the open sessions. -/
structure Records (K : Type) where
  installed : Table Nat (Installed K)
  charges : Table Nat (Charge K)
  stays : List (Symbol × Symbol)
  edits : Table Variable (EditInfo K)
  depths : List Nat

namespace Solver

open SoftSimplex.Action

def records (solver : Solver K) : Records K :=
  ⟨solver.installed, solver.charges, solver.stays, solver.edits, solver.depths⟩

def Unrecorded (action : Action K (Solver K) α) : Prop :=
  ∀ records, action.Keeps fun solver => solver.records = records

theorem Unrecorded.keeps {action : Action K (Solver K) α} (unrecorded : Unrecorded action)
    (holds : Records K → Prop) : action.Keeps fun solver => holds solver.records := by
  intro limit before held
  have kept : ∀ after : Solver K, after.records = before.records → holds after.records :=
    fun after same => same ▸ held
  exact (unrecorded before.records limit before rfl).imp (fun _ => kept) fun _ => kept

theorem unrecorded_onTableau (action : Action K (Tableau K) α) : Unrecorded (onTableau action) := by
  intro records limit before same
  refine (meets_within _ _ action _).mpr ?_
  cases action limit before.tableau <;> first | exact same | trivial

theorem unrecorded_freshSymbol (kind : SymbolKind) :
    Unrecorded (freshSymbol kind : Action K (Solver K) Symbol) := fun _ =>
  keeps_bind keeps_get fun _ => keeps_bind (keeps_modify fun _ same => same) fun _ => keeps_pure _

theorem unrecorded_freshConstraint (demand : Demand K) :
    Unrecorded (freshConstraint demand) := fun _ =>
  keeps_bind keeps_get fun _ => keeps_bind (keeps_modify fun _ same => same) fun _ => keeps_pure _

section Publishing

variable [Zero K]

theorem records_publishValues (solver : Solver K) :
    solver.publishValues.records = solver.records := by
  have kept : ∀ (values : List (Variable × K)) (current : Solver K),
      (values.foldl (fun current entry => current.setValue entry.1 entry.2) current).records =
        current.records := by
    intro values
    induction values with
    | nil => exact fun _ => rfl
    | cons entry rest ih => exact fun current => ih (current.setValue entry.1 entry.2)
  have zeroed : ∀ (unknowns : List Variable) (current : Solver K),
      (unknowns.foldl (fun current unknown => current.setValue unknown 0) current).records =
        current.records := by
    intro unknowns current
    have mapped := kept (unknowns.map fun unknown => (unknown, 0)) current
    rwa [List.foldl_map] at mapped
  exact (kept _ _).trans (zeroed _ solver)

theorem unrecorded_publish : Unrecorded (publish : Action K (Solver K) Unit) := fun _ =>
  keeps_bind keeps_get fun _ => keeps_bind (keeps_report _) fun _ =>
    keeps_modify fun solver same => solver.records_publishValues.trans same

end Publishing

variable [Zero K] [One K] [Add K] [Neg K] [Mul K] [Div K] [LT K] [DecidableLT K] [Scalar K]

theorem unrecorded_optimize : Unrecorded (optimize : Action K (Solver K) Unit) := fun records =>
  keeps_bind (unrecorded_onTableau _ records) fun _ => unrecorded_publish records

theorem unrecorded_autoOptimize : Unrecorded (autoOptimize : Action K (Solver K) Unit) :=
  fun records => keeps_bind keeps_get fun _ => by
    split
    · exact unrecorded_optimize records
    · exact keeps_pure ()

theorem unrecorded_place (equation : Equation K) (placement : Placement K) :
    Unrecorded (place equation placement) := fun records => by
  refine keeps_bind keeps_get fun solver => keeps_bind (keeps_modify fun _ same => same) fun _ => ?_
  split
  · exact keeps_attempt (unrecorded_onTableau _ records)
  · refine keeps_bind (unrecorded_freshSymbol _ records) fun _ =>
      keeps_bind (unrecorded_freshSymbol _ records) fun _ =>
        keeps_bind (keeps_attempt (unrecorded_onTableau _ records)) fun ended => ?_
    split
    · exact keeps_pure _
    · exact keeps_bind (keeps_modify fun _ same => same) fun _ => keeps_pure _

theorem unrecorded_resolve [LE K] [DecidableLE K] :
    Unrecorded (resolve : Action K (Solver K) Unit) := fun records =>
  keeps_bind (unrecorded_onTableau _ records) fun _ => keeps_bind (unrecorded_publish records)
    fun _ => keeps_modify fun _ same => same

/-! Changes of the records -/

variable (holds : Records K → Prop) {constraint : Constraint K}

theorem keeps_add (recorded : ∀ before current : Solver K,
      before.installed.get? constraint.key = none → current.records = before.records →
        holds current.records →
          holds (current.record constraint (before.equationFor constraint)).records) :
    (add constraint).Keeps fun solver => holds solver.records := by
  intro limit before held
  unfold add
  rw [meets_bind, meets_get]
  cases objects : before.objection? constraint with
  | some fault => exact held
  | none =>
    have missing := missing_of_unobjected objects
    have entered := fun current same => recorded before current missing same
    unfold equationFor at entered
    dsimp only
    rw [meets_bind, meets_report, meets_bind, meets_modify]
    generalize before.tableau.equationOf before.nextId constraint.toDemand = equation at entered
    cases before.tableau.choosePlacement? equation.row with
    | none => exact held
    | some placement =>
      dsimp only
      rw [meets_bind]
      refine (unrecorded_place equation placement before.records limit
        { before with nextId := equation.nextId } rfl).imp ?_ fun _ _ same => same.symm ▸ held
      intro ended reached same
      have kept : holds reached.records := same.symm ▸ held
      cases ended with
      | error fault => exact kept
      | ok done =>
        dsimp only
        rw [meets_bind, meets_modify]
        exact unrecorded_autoOptimize.keeps holds limit _ (entered reached same kept)

theorem keeps_remove
    (withdrawn : ∀ solver : Solver K, holds solver.records → holds (solver.withdraw constraint).records)
    (cleared : ∀ records stays edits, holds records → holds { records with stays, edits }) :
    (remove constraint).Keeps fun solver => holds solver.records := by
  refine keeps_bind keeps_get fun solver => ?_
  split
  · exact keeps_fail _
  · have clears : ∀ marker charge, (modify fun current : Solver K =>
        current.clearAway constraint marker charge : Action K (Solver K) Unit).Keeps
          fun solver => holds solver.records := by
      refine fun marker charge => keeps_modify fun current held => ?_
      obtain ⟨_, _, _, writes⟩ := current.clearAway_writes constraint marker charge
      rw [writes]
      exact cleared _ _ _ held
    refine keeps_bind (keeps_report _) fun _ => ?_
    refine keeps_bind (keeps_modify withdrawn) fun _ => ?_
    refine keeps_bind ((unrecorded_onTableau _).keeps holds) fun _ => ?_
    exact keeps_bind (clears _ _) fun _ => unrecorded_autoOptimize.keeps holds

theorem keeps_tryAdd (added : (add constraint).Keeps fun solver => holds solver.records) :
    (tryAdd constraint).Keeps fun solver => holds solver.records :=
  holds_tryAdd (compositional_keeps outlook _) keeps_fail (keeps_attempt added)

theorem keeps_removeEdit
    (removed : ∀ constraint, (remove constraint).Keeps fun solver : Solver K => holds solver.records)
    (unknown : Variable) :
    (removeEdit unknown : Action K (Solver K) Unit).Keeps fun solver => holds solver.records := by
  refine keeps_bind keeps_get fun solver => ?_
  split
  · exact keeps_fail _
  · exact removed _

omit [One K] [Div K] [Scalar K] in
theorem keeps_suggest [Sub K]
    (retargeted : ∀ records edits, holds records → holds { records with edits })
    (unknown : Variable) (target : K) :
    (suggest unknown target).Keeps fun solver => holds solver.records :=
  keeps_bind keeps_get fun _ => by
    split
    · exact keeps_bind (keeps_report _) fun _ => keeps_fail _
    · exact keeps_modify fun _ held => retargeted _ _ held

/-! The edit protocol -/

section Editing

variable {holds : Solver K → Prop}

omit [One K] [Add K] [Neg K] [Mul K] [Div K] [LT K] [DecidableLT K] [Scalar K] in
theorem keeps_beginEdit (opens : ∀ solver : Solver K, holds solver → holds solver.opened) :
    (beginEdit : Action K (Solver K) Unit).Keeps holds :=
  (compositional_keeps outlook holds).closed
    (beginEditScript (fun _ => .part (keeps_report _)) (.part (keeps_modify opens)))

theorem keeps_trimEdits (removed : ∀ unknown, (removeEdit unknown).Keeps holds) (count : Nat) :
    (trimEdits count).Keeps holds :=
  (compositional_keeps outlook holds).closed
    (trimEditsScript (fun unknown => .part (removed unknown)) fun _ => .part (keeps_report _))

theorem keeps_endEdit [LE K] [DecidableLE K]
    (resolved : (resolve : Action K (Solver K) Unit).Keeps holds)
    (closes : ∀ solver : Solver K, holds solver → holds solver.closed)
    (trimmed : ∀ count, (trimEdits count).Keeps holds) :
    (endEdit : Action K (Solver K) Unit).Keeps holds := by
  refine (compositional_keeps outlook holds).closed (endEditScript (.part resolved) ?_ ?_ ?_)
  · exact .part (keeps_modify closes)
  · exact fun kept => .part (keeps_report _)
  · exact fun count => .part (trimmed count)

end Editing

end Solver

end SoftSimplex
