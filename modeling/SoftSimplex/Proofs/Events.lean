import SoftSimplex.Proofs.Outcome
import SoftSimplex.Session

/-!
What a computation reports. `Shows` is `Meets` with the events in view: those of a sequence are the
events of its first part, then those of the rest. Computations on the tableau report the steps that
they take there and nothing else.
-/

namespace SoftSimplex

variable {K σ τ α β : Type}

namespace Outcome

def events : Outcome K σ α → List (Event K)
  | done _ _ events => events
  | failed _ _ events => events
  | unfinished => []

def Shows (outcome : Outcome K σ α) (returned : α → σ → List (Event K) → Prop)
    (broken : Fault → σ → List (Event K) → Prop) : Prop :=
  match outcome with
  | done value state events => returned value state events
  | failed fault state events => broken fault state events
  | unfinished => True

theorem meets_iff_shows (outcome : Outcome K σ α) (returned : α → σ → Prop)
    (broken : Fault → σ → Prop) :
    outcome.Meets returned broken ↔
      outcome.Shows (fun value state _ => returned value state)
        fun fault state _ => broken fault state := by
  cases outcome <;> rfl

theorem Shows.imp {outcome : Outcome K σ α} {returned weaker : α → σ → List (Event K) → Prop}
    {broken milder : Fault → σ → List (Event K) → Prop} (shows : outcome.Shows returned broken)
    (onReturn : ∀ value state events, returned value state events → weaker value state events)
    (onFailure : ∀ fault state events, broken fault state events → milder fault state events) :
    outcome.Shows weaker milder := by
  cases outcome with
  | done value state events => exact onReturn value state events shows
  | failed fault state events => exact onFailure fault state events shows
  | unfinished => trivial

theorem Shows.and_meets {outcome : Outcome K σ α} {returned : α → σ → List (Event K) → Prop}
    {broken : Fault → σ → List (Event K) → Prop} {also : α → σ → Prop} {worse : Fault → σ → Prop}
    (shows : outcome.Shows returned broken) (meets : outcome.Meets also worse) :
    outcome.Shows (fun value state events => returned value state events ∧ also value state)
      (fun fault state events => broken fault state events ∧ worse fault state) := by
  cases outcome with
  | done value state events => exact ⟨shows, meets⟩
  | failed fault state events => exact ⟨shows, meets⟩
  | unfinished => trivial

theorem Shows.of_state? {outcome : Outcome K σ α} {holds : σ → List (Event K) → Prop} {state : σ}
    (shows : outcome.Shows (fun _ reached events => holds reached events)
      (fun _ reached events => holds reached events))
    (ended : outcome.state? = some state) : holds state outcome.events := by
  cases outcome with
  | done value reached events =>
    cases ended
    exact shows
  | failed fault reached events =>
    cases ended
    exact shows
  | unfinished => cases ended

theorem shows_after (earlier : List (Event K)) (outcome : Outcome K σ α)
    (returned : α → σ → List (Event K) → Prop) (broken : Fault → σ → List (Event K) → Prop) :
    (outcome.after earlier).Shows returned broken ↔
      outcome.Shows (fun value state events => returned value state (earlier ++ events))
        (fun fault state events => broken fault state (earlier ++ events)) := by
  cases outcome <;> rfl

end Outcome

namespace Action

variable {limit : Nat} {state : σ} {broken : Fault → σ → List (Event K) → Prop}

theorem shows_bind (first : Action K σ α) (next : α → Action K σ β)
    (returned : β → σ → List (Event K) → Prop) :
    ((first >>= next) limit state).Shows returned broken ↔
      (first limit state).Shows
        (fun value reached events => (next value limit reached).Shows
          (fun result after later => returned result after (events ++ later))
          (fun fault after later => broken fault after (events ++ later))) broken := by
  change (bind first next limit state).Shows returned broken ↔ _
  unfold bind
  cases first limit state with
  | done value reached events => exact Outcome.shows_after events _ _ _
  | failed fault reached events => rfl
  | unfinished => rfl

theorem shows_get_bind (next : σ → Action K σ α) (returned : α → σ → List (Event K) → Prop) :
    ((get >>= next) limit state).Shows returned broken ↔
      (next state limit state).Shows returned broken :=
  shows_bind get next returned

theorem shows_modify_bind (change : σ → σ) (next : Unit → Action K σ α)
    (returned : α → σ → List (Event K) → Prop) :
    ((modify change >>= next) limit state).Shows returned broken ↔
      (next () limit (change state)).Shows returned broken :=
  shows_bind (modify change) next returned

theorem shows_report_bind (events : List (Event K)) (next : Unit → Action K σ α)
    (returned : α → σ → List (Event K) → Prop) :
    ((report events >>= next) limit state).Shows returned broken ↔
      (next () limit state).Shows
        (fun result after later => returned result after (events ++ later))
        (fun fault after later => broken fault after (events ++ later)) :=
  shows_bind (report events) next returned

theorem shows_attempt (action : Action K σ α)
    (returned : Except Fault α → σ → List (Event K) → Prop) :
    (action.attempt limit state).Shows returned broken ↔
      (action limit state).Shows (fun value reached events => returned (.ok value) reached events)
        (fun fault reached events => returned (.error fault) reached events) := by
  unfold attempt
  cases action limit state <;> rfl

theorem shows_mapFault (change : Fault → Fault) (action : Action K σ α)
    (returned : α → σ → List (Event K) → Prop) :
    (action.mapFault change limit state).Shows returned broken ↔
      (action limit state).Shows returned
        (fun fault reached events => broken (change fault) reached events) := by
  unfold mapFault
  cases action limit state <;> rfl

theorem shows_within (part : σ → τ) (replace : τ → σ → σ) (action : Action K τ α)
    (returned : α → σ → List (Event K) → Prop) :
    (action.within part replace limit state).Shows returned broken ↔
      (action limit (part state)).Shows
        (fun value reached events => returned value (replace reached state) events)
        (fun fault reached events => broken fault (replace reached state) events) := by
  unfold within
  cases action limit (part state) <;> rfl

/-! Computations that report events of one kind only -/

def Confined (kind : Event K → Prop) (action : Action K σ α) : Prop :=
  ∀ limit state, (action limit state).Shows (fun _ _ events => ∀ event ∈ events, kind event)
    (fun _ _ events => ∀ event ∈ events, kind event)

section Confined

variable {kind : Event K → Prop} {action first : Action K σ α}

theorem Confined.shows (confined : action.Confined kind) {returned : α → σ → Prop}
    {broken : Fault → σ → Prop} (meets : (action limit state).Meets returned broken) :
    (action limit state).Shows
      (fun value reached events => (∀ event ∈ events, kind event) ∧ returned value reached)
      (fun fault reached events => (∀ event ∈ events, kind event) ∧ broken fault reached) :=
  (confined limit state).and_meets meets

theorem Confined.imp {wider : Event K → Prop} (confined : action.Confined kind)
    (widen : ∀ event, kind event → wider event) : action.Confined wider := fun limit state =>
  (confined limit state).imp
    (fun _ _ _ reported event member => widen event (reported event member))
    fun _ _ _ reported event member => widen event (reported event member)

theorem confined_bind {next : α → Action K σ β} (confined : first.Confined kind)
    (continued : ∀ value, (next value).Confined kind) : (first >>= next).Confined kind := by
  intro limit state
  rw [shows_bind]
  refine (confined limit state).imp ?_ fun _ _ _ reported => reported
  intro value reached events reported
  have both : ∀ later, (∀ event ∈ later, kind event) → ∀ event ∈ events ++ later, kind event :=
    fun later also => List.forall_mem_append.mpr ⟨reported, also⟩
  exact (continued value limit reached).imp (fun _ _ => both) fun _ _ => both

theorem confined_pure (value : α) : (Pure.pure value : Action K σ α).Confined kind :=
  fun _ _ => List.forall_mem_nil kind

theorem confined_get : (get : Action K σ σ).Confined kind := fun _ _ => List.forall_mem_nil kind

theorem confined_modify (change : σ → σ) : (modify change : Action K σ Unit).Confined kind :=
  fun _ _ => List.forall_mem_nil kind

theorem confined_fail (fault : Fault) : (fail fault : Action K σ α).Confined kind :=
  fun _ _ => List.forall_mem_nil kind

theorem confined_report {event : Event K} (isKind : kind event) :
    (report [event] : Action K σ Unit).Confined kind :=
  fun _ _ => List.forall_mem_singleton.mpr isKind

theorem confined_attempt (confined : action.Confined kind) : action.attempt.Confined kind :=
  fun limit state => (shows_attempt action _).mpr (confined limit state)

theorem confined_within {part : σ → τ} {replace : τ → σ → σ} {inner : Action K τ α}
    (confined : inner.Confined kind) : (inner.within part replace).Confined kind :=
  fun limit state => (shows_within part replace inner _).mpr (confined limit (part state))

theorem confined_loop {step : Action K σ Bool} (confined : step.Confined kind) :
    (loop step).Confined kind := by
  have rounds : ∀ count, (rounds step count).Confined kind := by
    intro count
    induction count with
    | zero => exact fun _ _ => trivial
    | succ count ih =>
      refine confined_bind confined fun again => ?_
      cases again with
      | false => exact confined_pure ()
      | true => exact ih
  exact fun limit state => rounds limit limit state

end Confined

end Action

theorem Session.writeDiagnostics_append (earlier later : List (Event K)) (sink : Sink) :
    writeDiagnostics (earlier ++ later) sink =
      writeDiagnostics later (writeDiagnostics earlier sink) := by
  simp [writeDiagnostics]

/-! The tableau -/

def Event.IsStep : Event K → Prop
  | pivot .. | artificial .. => True
  | _ => False

section Numbers

variable [Zero K] [One K] [Add K] [Neg K] [Mul K] [Div K] [LT K] [DecidableLT K] [Scalar K]

namespace Tableau

open SoftSimplex.Action

theorem confined_pivot (entering leaving : Symbol) :
    (pivot entering leaving : Action K (Tableau K) Unit).Confined Event.IsStep := by
  refine confined_bind (confined_report trivial) fun _ =>
    confined_bind confined_get fun tableau => ?_
  split
  · exact confined_fail _
  · refine confined_bind (confined_modify _) fun _ => ?_
    split
    · exact confined_fail _
    · exact confined_modify _

theorem confined_minimize (objective : Symbol) :
    (minimize objective : Action K (Tableau K) Unit).Confined Event.IsStep := by
  refine confined_loop (confined_bind confined_get fun tableau => ?_)
  split
  · exact confined_fail _
  · split
    · exact confined_pure _
    · split
      · exact confined_fail _
      · exact confined_bind (confined_pivot _ _) fun _ => confined_pure _

theorem confined_repair [LE K] [DecidableLE K] (objective : Symbol) :
    (repair objective : Action K (Tableau K) Unit).Confined Event.IsStep := by
  refine confined_loop (confined_bind confined_get fun tableau => ?_)
  split
  · exact confined_pure _
  · refine confined_bind (confined_modify _) fun _ => ?_
    split
    · exact confined_pure _
    · split
      · exact confined_pure _
      · split
        · exact confined_fail _
        · split
          · exact confined_fail _
          · exact confined_bind (confined_pivot _ _) fun _ => confined_pure _

theorem confined_dropMarker (marker : Symbol) :
    (dropMarker marker : Action K (Tableau K) Unit).Confined Event.IsStep := by
  refine confined_bind confined_get fun tableau => ?_
  split
  · exact confined_modify _
  · split
    · exact confined_modify _
    · exact confined_bind (confined_pivot _ _) fun _ => confined_modify _

theorem confined_addSolved (subject : Symbol) (row : Expression K) :
    (addSolved subject row).Confined Event.IsStep := by
  unfold addSolved
  split
  · exact confined_fail _
  · exact confined_modify _

theorem confined_expelArtificial (artificial objective : Symbol) :
    (expelArtificial artificial objective : Action K (Tableau K) Unit).Confined Event.IsStep := by
  refine confined_bind confined_get fun tableau => ?_
  split
  · exact confined_modify _
  · split
    · exact confined_modify _
    · split
      · exact confined_fail _
      · exact confined_bind (confined_pivot _ _) fun _ => confined_modify _

theorem confined_addByArtificial (artificial objective : Symbol) (row : Expression K) :
    (addByArtificial artificial objective row).Confined Event.IsStep := by
  refine confined_bind (confined_report trivial) fun _ => confined_bind (confined_modify _) fun _ =>
    confined_bind (confined_minimize _) fun _ => confined_bind confined_get fun tableau => ?_
  split
  · exact confined_fail _
  · split
    · exact confined_bind (confined_modify _) fun _ => confined_fail _
    · exact confined_expelArtificial _ _

end Tableau

namespace Solver

open SoftSimplex.Action

theorem confined_place (equation : Equation K) (placement : Placement K) :
    (place equation placement).Confined Event.IsStep := by
  refine confined_bind confined_get fun solver => confined_bind (confined_modify _) fun _ => ?_
  have fresh : ∀ kind, (freshSymbol kind : Action K (Solver K) Symbol).Confined Event.IsStep :=
    fun kind => confined_bind confined_get fun _ => confined_bind (confined_modify _) fun _ =>
      confined_pure _
  split
  · exact confined_attempt (confined_within (Tableau.confined_addSolved _ _))
  · refine confined_bind (fresh _) fun _ => confined_bind (fresh _) fun _ => confined_bind
      (confined_attempt (confined_within (Tableau.confined_addByArtificial _ _ _))) fun ended => ?_
    split
    · exact confined_pure _
    · exact confined_bind (confined_modify _) fun _ => confined_pure _

end Solver

end Numbers

end SoftSimplex
