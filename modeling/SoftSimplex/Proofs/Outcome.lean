import SoftSimplex.Action

/-!
Reasoning about computations that may fail or not finish. `Meets` says what holds if an outcome is
reached at all; each combinator has an equation for it, and a loop keeps what its step keeps.
-/

namespace SoftSimplex

namespace Outcome

variable {K σ α : Type}

def Meets (outcome : Outcome K σ α) (returned : α → σ → Prop) (broken : Fault → σ → Prop) : Prop :=
  match outcome with
  | done value state _ => returned value state
  | failed fault state _ => broken fault state
  | unfinished => True

def state? : Outcome K σ α → Option σ
  | done _ state _ => some state
  | failed _ state _ => some state
  | unfinished => none

def fault? : Outcome K σ α → Option Fault
  | failed fault _ _ => some fault
  | _ => none

theorem Meets.imp {outcome : Outcome K σ α} {returned weaker : α → σ → Prop}
    {broken milder : Fault → σ → Prop} (meets : outcome.Meets returned broken)
    (onReturn : ∀ value state, returned value state → weaker value state)
    (onFailure : ∀ fault state, broken fault state → milder fault state) :
    outcome.Meets weaker milder := by
  cases outcome with
  | done value state events => exact onReturn value state meets
  | failed fault state events => exact onFailure fault state meets
  | unfinished => trivial

theorem Meets.and {outcome : Outcome K σ α} {returned also : α → σ → Prop}
    {broken worse : Fault → σ → Prop} (first : outcome.Meets returned broken)
    (second : outcome.Meets also worse) :
    outcome.Meets (fun value state => returned value state ∧ also value state)
      (fun fault state => broken fault state ∧ worse fault state) := by
  cases outcome with
  | done value state events => exact ⟨first, second⟩
  | failed fault state events => exact ⟨first, second⟩
  | unfinished => trivial

theorem Meets.of_state? {outcome : Outcome K σ α} {holds : σ → Prop} {state : σ}
    (meets : outcome.Meets (fun _ reached => holds reached) (fun _ reached => holds reached))
    (ended : outcome.state? = some state) : holds state := by
  cases outcome with
  | done value reached events =>
    cases ended
    exact meets
  | failed fault reached events =>
    cases ended
    exact meets
  | unfinished => cases ended

theorem Meets.of_sure {outcome : Outcome K σ α} {returned : α → σ → Prop} {state : σ}
    (meets : outcome.Meets returned fun _ _ => False) (ended : outcome.state? = some state) :
    ∃ value, returned value state := by
  cases outcome with
  | done value reached events =>
    cases ended
    exact ⟨value, meets⟩
  | failed _ _ _ => exact meets.elim
  | unfinished => cases ended

theorem Meets.returns {outcome : Outcome K σ α} {returned : α → σ → Prop}
    (meets : outcome.Meets returned fun _ _ => False) (ends : outcome ≠ .unfinished) :
    ∃ value state events, outcome = .done value state events ∧ returned value state := by
  cases outcome with
  | done value state events => exact ⟨value, state, events, rfl, meets⟩
  | failed _ _ _ => exact meets.elim
  | unfinished => exact absurd rfl ends

theorem done_of_clean {outcome : Outcome K σ α} {state : σ} (ended : outcome.state? = some state)
    (clean : outcome.fault? = none) : ∃ value events, outcome = .done value state events := by
  cases outcome with
  | done value reached events =>
    cases ended
    exact ⟨value, events, rfl⟩
  | failed fault reached events => cases clean
  | unfinished => cases ended

theorem Meets.of_clean {outcome : Outcome K σ α} {returned : α → σ → Prop}
    {broken : Fault → σ → Prop} {state : σ} (meets : outcome.Meets returned broken)
    (ended : outcome.state? = some state) (clean : outcome.fault? = none) :
    ∃ value, returned value state := by
  obtain ⟨value, events, rfl⟩ := done_of_clean ended clean
  exact ⟨value, meets⟩

theorem Meets.of_fault {outcome : Outcome K σ α} {returned : α → σ → Prop}
    {broken : Fault → σ → Prop} {fault : Fault} {state : σ} (meets : outcome.Meets returned broken)
    (fails : outcome.fault? = some fault) (ended : outcome.state? = some state) :
    broken fault state := by
  cases outcome with
  | failed _ _ _ =>
    cases fails
    cases ended
    exact meets
  | done _ _ _ => cases fails
  | unfinished => cases ended

theorem meets_after (earlier : List (Event K)) (outcome : Outcome K σ α)
    (returned : α → σ → Prop) (broken : Fault → σ → Prop) :
    (outcome.after earlier).Meets returned broken ↔ outcome.Meets returned broken := by
  cases outcome <;> rfl

theorem after_nil (outcome : Outcome K σ α) : outcome.after [] = outcome := by
  cases outcome <;> rfl

theorem after_after (earlier later : List (Event K)) (outcome : Outcome K σ α) :
    (outcome.after later).after earlier = outcome.after (earlier ++ later) := by
  cases outcome <;> simp [after]

theorem after_eq_unfinished_iff {outcome : Outcome K σ α} {events : List (Event K)} :
    outcome.after events = .unfinished ↔ outcome = .unfinished := by
  cases outcome <;> simp [after]

end Outcome

namespace Action

/-! How a sequence runs -/

section Sequences

variable {K σ α β : Type} {first : Action K σ α} {next : α → Action K σ β} {limit : Nat}
  {state reached : σ} {events : List (Event K)}

theorem bind_done {value : α} (ran : first limit state = .done value reached events) :
    (first >>= next) limit state = (next value limit reached).after events := by
  change bind first next limit state = _
  simp only [bind, ran]

theorem bind_failed {fault : Fault} (ran : first limit state = .failed fault reached events) :
    (first >>= next) limit state = .failed fault reached events := by
  change bind first next limit state = _
  simp only [bind, ran]

theorem bind_unfinished (ran : first limit state = .unfinished) :
    (first >>= next) limit state = .unfinished := by
  change bind first next limit state = _
  simp only [bind, ran]

theorem bind_ends (firstEnds : first limit state ≠ .unfinished)
    (nextEnds : ∀ value reached, next value limit reached ≠ .unfinished) :
    (first >>= next) limit state ≠ .unfinished := by
  cases ran : first limit state with
  | done value reached events =>
    rw [bind_done ran]
    exact fun same => nextEnds value reached (Outcome.after_eq_unfinished_iff.mp same)
  | failed fault reached events =>
    rw [bind_failed ran]
    nofun
  | unfinished => exact absurd ran firstEnds

theorem bind_assoc {γ : Type} (first : Action K σ α) (next : α → Action K σ β)
    (last : β → Action K σ γ) :
    first >>= next >>= last = first >>= fun value => next value >>= last := by
  funext limit state
  change bind (bind first next) last limit state =
    bind first (fun value => bind (next value) last) limit state
  unfold bind
  cases first limit state with
  | done value reached events =>
    dsimp only
    cases next value limit reached with
    | done result after later => exact (Outcome.after_after ..).symm
    | _ => rfl
  | _ => rfl

theorem get_bind (next : σ → Action K σ β) :
    (get >>= next) limit state = next state limit state :=
  (bind_done rfl).trans (Outcome.after_nil _)

theorem report_bind (reported : List (Event K)) (next : Unit → Action K σ β) :
    (report reported >>= next) limit state = (next () limit state).after reported :=
  bind_done rfl

theorem modify_bind (change : σ → σ) (next : Unit → Action K σ β) :
    (modify change >>= next) limit state = next () limit (change state) :=
  (bind_done rfl).trans (Outcome.after_nil _)

end Sequences

/-! What a computation meets -/

variable {K σ τ α β : Type} {limit : Nat} {state : σ} {broken : Fault → σ → Prop}

theorem meets_bind (first : Action K σ α) (next : α → Action K σ β) (returned : β → σ → Prop) :
    ((first >>= next) limit state).Meets returned broken ↔
      (first limit state).Meets
        (fun value reached => (next value limit reached).Meets returned broken) broken := by
  change (bind first next limit state).Meets returned broken ↔ _
  unfold bind
  cases first limit state with
  | done value reached events => exact Outcome.meets_after events _ _ _
  | failed fault reached events => rfl
  | unfinished => rfl

theorem meets_pure (value : α) (returned : α → σ → Prop) :
    ((Pure.pure value : Action K σ α) limit state).Meets returned broken ↔ returned value state :=
  Iff.rfl

theorem meets_get (returned : σ → σ → Prop) :
    ((get : Action K σ σ) limit state).Meets returned broken ↔ returned state state :=
  Iff.rfl

theorem meets_modify (change : σ → σ) (returned : Unit → σ → Prop) :
    ((modify change : Action K σ Unit) limit state).Meets returned broken ↔
      returned () (change state) :=
  Iff.rfl

theorem meets_fail (fault : Fault) (returned : α → σ → Prop) :
    ((fail fault : Action K σ α) limit state).Meets returned broken ↔ broken fault state :=
  Iff.rfl

theorem meets_report (events : List (Event K)) (returned : Unit → σ → Prop) :
    ((report events : Action K σ Unit) limit state).Meets returned broken ↔ returned () state :=
  Iff.rfl

theorem meets_attempt (action : Action K σ α) (returned : Except Fault α → σ → Prop) :
    (action.attempt limit state).Meets returned broken ↔
      (action limit state).Meets (fun value reached => returned (.ok value) reached)
        (fun fault reached => returned (.error fault) reached) := by
  unfold attempt
  cases action limit state <;> rfl

theorem meets_mapFault (change : Fault → Fault) (action : Action K σ α)
    (returned : α → σ → Prop) :
    (action.mapFault change limit state).Meets returned broken ↔
      (action limit state).Meets returned (fun fault reached => broken (change fault) reached) := by
  unfold mapFault
  cases action limit state <;> rfl

theorem meets_within (part : σ → τ) (replace : τ → σ → σ) (action : Action K τ α)
    (returned : α → σ → Prop) :
    (action.within part replace limit state).Meets returned broken ↔
      (action limit (part state)).Meets
        (fun value reached => returned value (replace reached state))
        (fun fault reached => broken fault (replace reached state)) := by
  unfold within
  cases action limit (part state) <;> rfl

theorem meets_rounds {step : Action K σ Bool} {invariant finished : σ → Prop}
    (kept : ∀ current, invariant current → (step limit current).Meets
      (fun again reached => if again then invariant reached else finished reached) broken)
    (count : Nat) (holds : invariant state) :
    (rounds step count limit state).Meets (fun _ reached => finished reached) broken := by
  induction count generalizing state with
  | zero => trivial
  | succ count ih =>
    refine (meets_bind step _ _).mpr ((kept state holds).imp ?_ (fun _ _ fault => fault))
    intro again reached next
    cases again with
    | false => exact next
    | true => exact ih next

/-- The induction over the rounds of a loop: an invariant that a step keeps carries to the round
that asks for no other. -/
theorem meets_loop {step : Action K σ Bool} (invariant : σ → Prop) {finished : σ → Prop}
    (kept : ∀ current, invariant current → (step limit current).Meets
      (fun again reached => if again then invariant reached else finished reached) broken)
    (holds : invariant state) :
    (loop step limit state).Meets (fun _ reached => finished reached) broken :=
  meets_rounds kept limit holds

theorem meets_forEach {act : α → Action K σ Unit} (invariant : σ → Prop)
    (kept : ∀ value current, invariant current →
      (act value limit current).Meets (fun _ reached => invariant reached) broken)
    (values : List α) (holds : invariant state) :
    (forEach act values limit state).Meets (fun _ reached => invariant reached) broken := by
  induction values generalizing state with
  | nil => exact holds
  | cons value rest ih =>
    exact (meets_bind (act value) _ _).mpr
      ((kept value state holds).imp (fun _ _ next => ih next) (fun _ _ fault => fault))

end Action

end SoftSimplex
