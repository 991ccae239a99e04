import SoftSimplex.Proofs.Composition
import SoftSimplex.Proofs.Events
import SoftSimplex.Proofs.Removing

/-!
What a computation tells besides its outcome: the diagnostics among its events, in their order.
`Tells` is `Shows` with only these in view. Computations on the tableau tell nothing, so only
publishing and the calls of the edit protocol ever write to the sink.
-/

namespace SoftSimplex

variable {K σ α β : Type}

def warnings (events : List (Event K)) : List Diagnostic := events.filterMap (·.diagnostic?)

@[simp] theorem warnings_nil : warnings ([] : List (Event K)) = [] := rfl

theorem warnings_append (earlier later : List (Event K)) :
    warnings (earlier ++ later) = warnings earlier ++ warnings later :=
  List.filterMap_append

namespace Outcome

def Tells (outcome : Outcome K σ α) (returned : α → σ → List Diagnostic → Prop)
    (broken : Fault → σ → List Diagnostic → Prop) : Prop :=
  match outcome with
  | done value state events => returned value state (warnings events)
  | failed fault state events => broken fault state (warnings events)
  | unfinished => True

theorem tells_iff_shows (outcome : Outcome K σ α) (returned : α → σ → List Diagnostic → Prop)
    (broken : Fault → σ → List Diagnostic → Prop) :
    outcome.Tells returned broken ↔
      outcome.Shows (fun value state events => returned value state (warnings events))
        (fun fault state events => broken fault state (warnings events)) := by
  cases outcome <;> rfl

theorem Tells.imp {outcome : Outcome K σ α} {returned weaker : α → σ → List Diagnostic → Prop}
    {broken milder : Fault → σ → List Diagnostic → Prop} (tells : outcome.Tells returned broken)
    (onReturn : ∀ value state told, returned value state told → weaker value state told)
    (onFailure : ∀ fault state told, broken fault state told → milder fault state told) :
    outcome.Tells weaker milder := by
  cases outcome with
  | done value state events => exact onReturn value state _ tells
  | failed fault state events => exact onFailure fault state _ tells
  | unfinished => trivial

theorem Meets.tells {outcome : Outcome K σ α} {returned : α → σ → Prop} {broken : Fault → σ → Prop}
    (meets : outcome.Meets returned broken) :
    outcome.Tells (fun value state _ => returned value state)
      (fun fault state _ => broken fault state) := by
  cases outcome <;> exact meets

theorem Tells.and_meets {outcome : Outcome K σ α} {returned : α → σ → List Diagnostic → Prop}
    {broken : Fault → σ → List Diagnostic → Prop} {also : α → σ → Prop} {worse : Fault → σ → Prop}
    (tells : outcome.Tells returned broken) (meets : outcome.Meets also worse) :
    outcome.Tells (fun value state told => returned value state told ∧ also value state)
      (fun fault state told => broken fault state told ∧ worse fault state) := by
  cases outcome with
  | done value state events => exact ⟨tells, meets⟩
  | failed fault state events => exact ⟨tells, meets⟩
  | unfinished => trivial

end Outcome

namespace Action

open Outcome

variable {limit : Nat} {state : σ} {broken : Fault → σ → List Diagnostic → Prop}

theorem tells_bind (first : Action K σ α) (next : α → Action K σ β)
    (returned : β → σ → List Diagnostic → Prop) :
    ((first >>= next) limit state).Tells returned broken ↔
      (first limit state).Tells
        (fun value reached told => (next value limit reached).Tells
          (fun result after later => returned result after (told ++ later))
          (fun fault after later => broken fault after (told ++ later))) broken := by
  simp only [tells_iff_shows, shows_bind, warnings_append]

theorem tells_get_bind (next : σ → Action K σ α) (returned : α → σ → List Diagnostic → Prop) :
    ((get >>= next) limit state).Tells returned broken ↔
      (next state limit state).Tells returned broken :=
  tells_bind get next returned

theorem tells_modify_bind (change : σ → σ) (next : Unit → Action K σ α)
    (returned : α → σ → List Diagnostic → Prop) :
    ((modify change >>= next) limit state).Tells returned broken ↔
      (next () limit (change state)).Tells returned broken :=
  tells_bind (modify change) next returned

theorem tells_report_bind {events : List (Event K)} (silent : warnings events = [])
    (next : Unit → Action K σ α) (returned : α → σ → List Diagnostic → Prop) :
    ((report events >>= next) limit state).Tells returned broken ↔
      (next () limit state).Tells returned broken := by
  simp only [tells_iff_shows, shows_report_bind, warnings_append, silent, List.nil_append]

theorem tells_attempt (action : Action K σ α)
    (returned : Except Fault α → σ → List Diagnostic → Prop) :
    (action.attempt limit state).Tells returned broken ↔
      (action limit state).Tells (fun value reached told => returned (.ok value) reached told)
        (fun fault reached told => returned (.error fault) reached told) := by
  simp only [tells_iff_shows, shows_attempt]

theorem tells_mapFault (change : Fault → Fault) (action : Action K σ α)
    (returned : α → σ → List Diagnostic → Prop) :
    (action.mapFault change limit state).Tells returned broken ↔
      (action limit state).Tells returned
        (fun fault reached told => broken (change fault) reached told) := by
  simp only [tells_iff_shows, shows_mapFault]

def Quiet (action : Action K σ α) : Prop :=
  ∀ limit state, (action limit state).Tells (fun _ _ told => told = []) (fun _ _ told => told = [])

variable {action : Action K σ α}

theorem Quiet.tells (quiet : action.Quiet) {returned : α → σ → Prop}
    {broken : Fault → σ → Prop} (meets : (action limit state).Meets returned broken) :
    (action limit state).Tells (fun value reached told => told = [] ∧ returned value reached)
      (fun fault reached told => told = [] ∧ broken fault reached) :=
  (quiet limit state).and_meets meets

theorem Confined.quiet (confined : action.Confined Event.IsStep) : action.Quiet := by
  intro limit state
  have silent : ∀ events : List (Event K), (∀ event ∈ events, event.IsStep) →
      warnings events = [] := by
    intro events steps
    refine List.filterMap_eq_nil_iff.mpr fun event member => ?_
    have step := steps event member
    cases event <;> first | rfl | exact step.elim
  exact (tells_iff_shows _ _ _).mpr
    ((confined limit state).imp (fun _ _ => silent) fun _ _ => silent)

end Action

namespace Solver

open SoftSimplex.Action

variable [Zero K] [One K] [Add K] [Neg K] [Mul K] [Div K] [LT K] [DecidableLT K] [Scalar K]
  {before : Solver K} {constraint : Constraint K} {limit : Nat}
  {returned : Unit → Solver K → List Diagnostic → Prop}
  {broken : Fault → Solver K → List Diagnostic → Prop}

theorem install_tells (sound : before.Sound) (external : constraint.External)
    (fails : ∀ fault after, before.AddFails constraint fault after → broken fault after [])
    (installs : ∀ placement tableau nextId installed,
      before.Installs constraint placement tableau nextId installed → returned () installed []) :
    (install constraint limit before).Tells returned broken := by
  unfold install
  rw [tells_get_bind]
  cases objects : before.objection? constraint with
  | some fault => exact fails _ _ (.objected objects)
  | none =>
    dsimp only
    rw [tells_report_bind rfl, tells_modify_bind]
    generalize same : before.tableau.equationOf before.nextId constraint.toDemand = equation
    obtain rfl : before.equationFor constraint = equation := same
    cases chosen : before.tableau.choosePlacement? (before.equationFor constraint).row with
    | none => exact fails _ _ (.contradicted objects chosen)
    | some placement =>
      dsimp only
      rw [tells_bind]
      refine ((confined_place _ _).quiet.tells (place_meets sound.fits external chosen)).imp ?_
        fun _ _ _ never => never.2.elim
      rintro result reached told ⟨rfl, met⟩
      cases result with
      | error fault =>
        obtain ⟨row, rfl, refuses, rfl⟩ := met
        exact fails _ _ (.refused objects chosen refuses)
      | ok done =>
        obtain ⟨tableau, nextId, places, rfl⟩ := met
        exact installs placement tableau nextId _ ⟨objects, chosen, places, rfl⟩

theorem add_tells (sound : before.Sound) (external : constraint.External)
    (fails : ∀ fault after, before.AddFails constraint fault after → broken fault after [])
    (settles : ∀ placement tableau nextId installed,
      before.Installs constraint placement tableau nextId installed →
        (autoOptimize limit installed).Tells returned broken) :
    (add constraint limit before).Tells returned broken := by
  rw [add_eq, tells_bind]
  exact install_tells sound external fails settles

theorem uninstall_tells (sound : before.Sound)
    (missing : before.installed.get? constraint.key = none →
      broken .constraintNotFound before [])
    (uninstalls : ∀ entry dropped removed, before.Uninstalls constraint entry dropped removed →
      returned () removed []) :
    (uninstall constraint limit before).Tells returned broken := by
  unfold uninstall
  rw [tells_get_bind]
  cases found : before.installed.get? constraint.key with
  | none => exact missing found
  | some entry =>
    dsimp only
    rw [tells_report_bind rfl, tells_modify_bind, tells_bind]
    have indexed := (withdraw_tableau sound found).2.indexed
    have drops : (onTableau (Tableau.dropMarker entry.marker) limit
        (before.withdraw constraint)).Meets
        (fun _ reached => ∃ dropped, (before.withdraw constraint).tableau.Drops entry.marker dropped ∧
          reached = (before.withdraw constraint).setTableau dropped) (fun _ _ => False) :=
      (meets_within _ _ _ _).mpr ((Tableau.dropMarker_meets indexed).imp
        (fun _ dropped drops => ⟨dropped, drops, rfl⟩) fun _ _ never => never)
    refine ((confined_within (Tableau.confined_dropMarker _)).quiet.tells drops).imp ?_
      fun _ _ _ never => never.2.elim
    rintro _ reached told ⟨rfl, dropped, drops, rfl⟩
    exact uninstalls entry dropped _ ⟨found, drops, rfl⟩

end Solver

end SoftSimplex
