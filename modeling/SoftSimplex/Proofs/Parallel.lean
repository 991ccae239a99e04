import Mathlib.Data.List.Forall2
import SoftSimplex.Proofs.Outcome

/-!
Two computations side by side. They run in parallel if they end in the same way, with the same value
or the same fault, and with states and reports alike; computations put together from parallel ones
are parallel. What one of the two meets, the other then meets up to that likeness.
-/

namespace SoftSimplex

variable {K σ τ α β : Type}

/-- Outcomes that differ in states and reports only, and there no more than is allowed. -/
inductive Outcome.Parallel (alike : σ → τ → Prop) (told : Event K → Event K → Prop) :
    Outcome K σ α → Outcome K τ α → Prop
  | done {value : α} {state : σ} {image : τ} {events echoes : List (Event K)}
      (ends : alike state image) (reports : List.Forall₂ told events echoes) :
      Parallel alike told (.done value state events) (.done value image echoes)
  | failed {fault : Fault} {state : σ} {image : τ} {events echoes : List (Event K)}
      (ends : alike state image) (reports : List.Forall₂ told events echoes) :
      Parallel alike told (.failed fault state events) (.failed fault image echoes)
  | unfinished : Parallel alike told .unfinished .unfinished

namespace Outcome.Parallel

variable {alike : σ → τ → Prop} {told : Event K → Event K → Prop} {left : Outcome K σ α}
  {right : Outcome K τ α}

theorem after (parallel : Parallel alike told left right) {events echoes : List (Event K)}
    (reports : List.Forall₂ told events echoes) :
    Parallel alike told (left.after events) (right.after echoes) := by
  cases parallel with
  | done ends later => exact .done ends (List.rel_append reports later)
  | failed ends later => exact .failed ends (List.rel_append reports later)
  | unfinished => exact .unfinished

theorem of_state? (parallel : Parallel alike told left right) {state : σ} {image : τ}
    (ended : left.state? = some state) (echoed : right.state? = some image) : alike state image := by
  cases parallel with
  | done ends _ =>
    cases ended
    cases echoed
    exact ends
  | failed ends _ =>
    cases ended
    cases echoed
    exact ends
  | unfinished => cases ended

theorem meets (parallel : Parallel alike told left right) {returned : α → τ → Prop}
    {broken : Fault → τ → Prop} (met : right.Meets returned broken) :
    left.Meets (fun value state => ∃ image, alike state image ∧ returned value image)
      (fun fault state => ∃ image, alike state image ∧ broken fault image) := by
  cases parallel with
  | done ends _ => exact ⟨_, ends, met⟩
  | failed ends _ => exact ⟨_, ends, met⟩
  | unfinished => trivial

end Outcome.Parallel

namespace Action

variable {alike : σ → τ → Prop} {told : Event K → Event K → Prop} {limit : Nat} {state : σ}
  {image : τ}

theorem parallel_bind {first : Action K σ α} {other : Action K τ α} {next : α → Action K σ β}
    {otherNext : α → Action K τ β}
    (begins : (first limit state).Parallel alike told (other limit image))
    (ends : ∀ value reached echo, alike reached echo →
      (next value limit reached).Parallel alike told (otherNext value limit echo)) :
    ((first >>= next) limit state).Parallel alike told ((other >>= otherNext) limit image) := by
  change (bind first next limit state).Parallel alike told (bind other otherNext limit image)
  unfold bind
  generalize first limit state = outcome, other limit image = mirrored at begins
  cases begins with
  | done reached reports => exact (ends _ _ _ reached).after reports
  | failed reached reports => exact .failed reached reports
  | unfinished => exact .unfinished

section Steps

variable (same : alike state image)

include same

theorem parallel_pure (value : α) :
    ((Pure.pure value : Action K σ α) limit state).Parallel alike told
      ((Pure.pure value : Action K τ α) limit image) :=
  .done same .nil

theorem parallel_fail (fault : Fault) :
    ((fail fault : Action K σ α) limit state).Parallel alike told
      ((fail fault : Action K τ α) limit image) :=
  .failed same .nil

theorem parallel_report {events echoes : List (Event K)}
    (reports : List.Forall₂ told events echoes) :
    ((report events : Action K σ Unit) limit state).Parallel alike told
      ((report echoes : Action K τ Unit) limit image) :=
  .done same reports

end Steps

theorem parallel_modify {change : σ → σ} {echo : τ → τ}
    (same : alike (change state) (echo image)) :
    ((modify change : Action K σ Unit) limit state).Parallel alike told
      ((modify echo : Action K τ Unit) limit image) :=
  .done same .nil

theorem parallel_get {next : σ → Action K σ α} {otherNext : τ → Action K τ α}
    (continues : (next state limit state).Parallel alike told (otherNext image limit image)) :
    ((get >>= next) limit state).Parallel alike told ((get >>= otherNext) limit image) := by
  rwa [get_bind, get_bind]

theorem parallel_attempt {first : Action K σ α} {other : Action K τ α}
    (runs : (first limit state).Parallel alike told (other limit image)) :
    (first.attempt limit state).Parallel alike told (other.attempt limit image) := by
  unfold attempt
  generalize first limit state = outcome, other limit image = mirrored at runs
  cases runs with
  | done reached reports => exact .done reached reports
  | failed reached reports => exact .done reached reports
  | unfinished => exact .unfinished

theorem parallel_mapFault (change : Fault → Fault) {first : Action K σ α} {other : Action K τ α}
    (runs : (first limit state).Parallel alike told (other limit image)) :
    (first.mapFault change limit state).Parallel alike told (other.mapFault change limit image) := by
  unfold mapFault
  generalize first limit state = outcome, other limit image = mirrored at runs
  cases runs with
  | done reached reports => exact .done reached reports
  | failed reached reports => exact .failed reached reports
  | unfinished => exact .unfinished

theorem parallel_within {ρ : Type} {part : σ → ρ} {otherPart : τ → ρ} {replace : ρ → σ → σ}
    {otherReplace : ρ → τ → τ} (action : Action K ρ α) (reports : ∀ event, told event event)
    (same : part state = otherPart image)
    (ends : ∀ reached, alike (replace reached state) (otherReplace reached image)) :
    (action.within part replace limit state).Parallel alike told
      (action.within otherPart otherReplace limit image) := by
  unfold within
  rw [same]
  cases action limit (otherPart image) with
  | done value reached events =>
    exact .done (ends reached) (List.forall₂_same.mpr fun event _ => reports event)
  | failed fault reached events =>
    exact .failed (ends reached) (List.forall₂_same.mpr fun event _ => reports event)
  | unfinished => exact .unfinished

theorem parallel_rounds {step : Action K σ Bool} {other : Action K τ Bool}
    (steps : ∀ reached echo, alike reached echo →
      (step limit reached).Parallel alike told (other limit echo))
    (count : Nat) (same : alike state image) :
    (rounds step count limit state).Parallel alike told (rounds other count limit image) := by
  induction count generalizing state image with
  | zero => exact .unfinished
  | succ count ih =>
    refine parallel_bind (steps state image same) ?_
    intro again reached echo alike
    cases again with
    | false => exact parallel_pure alike ()
    | true => exact ih alike

theorem parallel_loop {step : Action K σ Bool} {other : Action K τ Bool}
    (steps : ∀ reached echo, alike reached echo →
      (step limit reached).Parallel alike told (other limit echo))
    (same : alike state image) :
    (loop step limit state).Parallel alike told (loop other limit image) :=
  parallel_rounds steps limit same

end Action

end SoftSimplex
