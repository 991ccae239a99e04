import SoftSimplex.Proofs.Outcome
import SoftSimplex.Proofs.RenamedBooks

/-!
Runs that mirror each other. Two computations, started in states alike up to the names of ids, end
alike and report alike, provided that the ids given out on the way move as the next id does. Each
combinator has a rule for this, so that a computation mirrors another if its steps do.
-/

namespace SoftSimplex

namespace Renaming

variable {K : Type} (names : Renaming)

def diagnostic : Diagnostic → Diagnostic
  | .notAnEditVariable unknown => .notAnEditVariable (names.unknown unknown)
  | .editCountMismatch expected found => .editCountMismatch expected found
  | .parametricIsBasic unknown => .parametricIsBasic (names.unknown unknown)

def event : Event K → Event K
  | .pivot entering leaving => .pivot (names.symbol entering) (names.symbol leaving)
  | .artificial symbol row objective =>
    .artificial (names.symbol symbol) (names.expression row) (names.symbol objective)
  | .adding constraint => .adding (names.constraint constraint)
  | .contradicted constraint => .contradicted (names.constraint constraint)
  | .refused constraint fault => .refused (names.constraint constraint) (names.fault fault)
  | .removing constraint => .removing (names.constraint constraint)
  | .beginEdit count => .beginEdit count
  | .endEdit kept => .endEdit kept
  | .diagnostic warning => .diagnostic (names.diagnostic warning)

def ended {α β : Type} (onValue : α → β) : Except Fault α → Except Fault β
  | .ok value => .ok (onValue value)
  | .error fault => .error (names.fault fault)

/-- The ids from one on, up to the next one if an end is reached, move as the next id does. -/
def Moves (first : Nat) (next? : Option Nat) : Prop :=
  ∀ id, first ≤ id → (∀ next, next? = some next → id < next) → names.onId id = id + names.shift

section Moving

variable {names : Renaming} {first middle : Nat} {next? : Option Nat}
  (moves : names.Moves first next?)

include moves

theorem Moves.upTo (late : ∀ next, next? = some next → middle ≤ next) :
    names.Moves first (some middle) := fun id old young =>
  moves id old fun next found => Nat.lt_of_lt_of_le (young middle rfl) (late next found)

theorem Moves.onFrom (early : first ≤ middle) : names.Moves middle next? := fun id old =>
  moves id (Nat.le_trans early old)

end Moving

def same : Renaming := ⟨.refl Nat, rfl, 0⟩

end Renaming

variable {K σ α β γ δ : Type}

inductive Outcome.Echoes (names : Renaming) (alike : σ → σ → Prop) (onValue : α → β) :
    Outcome K σ α → Outcome K σ β → Prop
  | done {value : α} {state image : σ} {events : List (Event K)} (ends : alike state image) :
      Echoes names alike onValue (.done value state events)
        (.done (onValue value) image (events.map names.event))
  | failed {fault : Fault} {state image : σ} {events : List (Event K)} (ends : alike state image) :
      Echoes names alike onValue (.failed fault state events)
        (.failed (names.fault fault) image (events.map names.event))
  | unfinished : Echoes names alike onValue .unfinished .unfinished

theorem Outcome.Echoes.after {names : Renaming} {alike : σ → σ → Prop} {onValue : α → β}
    {outcome : Outcome K σ α} {image : Outcome K σ β}
    (echoes : Echoes names alike onValue outcome image) (earlier : List (Event K)) :
    Echoes names alike onValue (outcome.after earlier)
      (image.after (earlier.map names.event)) := by
  cases echoes with
  | done ends =>
    simp only [Outcome.after, ← List.map_append]
    exact .done ends
  | failed ends =>
    simp only [Outcome.after, ← List.map_append]
    exact .failed ends
  | unfinished => exact .unfinished

namespace Outcome.Echoes

variable {names : Renaming} {alike : σ → σ → Prop} {onValue : α → β} {outcome : Outcome K σ α}
  {image : Outcome K σ β} {state : σ}

theorem state?_none (echoes : Echoes names alike onValue outcome image)
    (unfinished : outcome.state? = none) : image.state? = none := by
  cases echoes with
  | done _ => cases unfinished
  | failed _ => cases unfinished
  | unfinished => rfl

theorem state?_some (echoes : Echoes names alike onValue outcome image)
    (ended : outcome.state? = some state) :
    ∃ reached, image.state? = some reached ∧ alike state reached := by
  cases echoes with
  | done ends =>
    cases ended
    exact ⟨_, rfl, ends⟩
  | failed ends =>
    cases ended
    exact ⟨_, rfl, ends⟩
  | unfinished => cases ended

end Outcome.Echoes

/-- How the states of two runs compare, and which id the first of them gives out next. -/
structure Likeness (σ : Type) where
  alike : σ → σ → Prop
  total : ∀ state, ∃ image, alike state image
  nextId : σ → Nat

def Likeness.next? (likeness : Likeness σ) (outcome : Outcome K σ α) : Option Nat :=
  outcome.state?.map likeness.nextId

theorem Likeness.next?_after (likeness : Likeness σ) (earlier : List (Event K))
    (outcome : Outcome K σ α) : likeness.next? (outcome.after earlier) = likeness.next? outcome := by
  cases outcome <;> rfl

/-- From a state and an image of it, two computations give out ids in order, and end alike if the
ids that the first gives out move as they should. -/
structure Mirrors (names : Renaming) (likeness : Likeness σ) (onValue : α → β) (limit : Nat)
    (state image : σ) (action : Action K σ α) (mirror : Action K σ β) : Prop where
  grows : ∀ next, likeness.next? (action limit state) = some next → likeness.nextId state ≤ next
  echoes : names.Moves (likeness.nextId state) (likeness.next? (action limit state)) →
    (action limit state).Echoes names likeness.alike onValue (mirror limit image)

section Combining

variable {names : Renaming} {likeness : Likeness σ} {onValue : α → β} {onNext : γ → δ} {limit : Nat}
  {state image : σ}

/-! Single steps -/

section Steps

variable (alike : likeness.alike state image)

include alike

theorem mirrors_pure (value : α) :
    Mirrors names likeness onValue limit state image (pure value : Action K σ α)
      (pure (onValue value)) where
  grows _ found := Nat.le_of_eq (Option.some.inj found)
  echoes _ := .done alike

theorem mirrors_fail (fault : Fault) :
    Mirrors names likeness onValue limit state image (Action.fail fault : Action K σ α)
      (Action.fail (names.fault fault)) where
  grows _ found := Nat.le_of_eq (Option.some.inj found)
  echoes _ := .failed alike

theorem mirrors_report (events : List (Event K)) :
    Mirrors names likeness id limit state image (Action.report events)
      (Action.report (events.map names.event)) where
  grows _ found := Nat.le_of_eq (Option.some.inj found)
  echoes _ := .done alike

end Steps

theorem mirrors_modify {change mirror : σ → σ}
    (later : likeness.nextId state ≤ likeness.nextId (change state))
    (alike : likeness.alike (change state) (mirror image)) :
    Mirrors names likeness id limit state image (Action.modify change : Action K σ Unit)
      (Action.modify mirror) where
  grows _ found := Nat.le_trans later (Nat.le_of_eq (Option.some.inj found))
  echoes _ := .done alike

/-! Sequences -/

theorem mirrors_bind {first : Action K σ α} {firstMirror : Action K σ β}
    {next : α → Action K σ γ} {nextMirror : β → Action K σ δ}
    (starts : Mirrors names likeness onValue limit state image first firstMirror)
    (continues : ∀ value reached reachedImage, likeness.alike reached reachedImage →
      Mirrors names likeness onNext limit reached reachedImage (next value)
        (nextMirror (onValue value))) :
    Mirrors names likeness onNext limit state image (first >>= next)
      (firstMirror >>= nextMirror) := by
  obtain ⟨grows, echoes⟩ := starts
  cases ran : first limit state with
  | unfinished =>
    rw [ran] at echoes
    constructor
    · rw [Action.bind_unfinished ran]
      exact nofun
    · rw [Action.bind_unfinished ran]
      intro moves
      cases mirrored : firstMirror limit image with
      | unfinished =>
        rw [Action.bind_unfinished mirrored]
        exact .unfinished
      | _ => cases mirrored ▸ echoes moves
  | failed fault reached events =>
    rw [ran] at echoes grows
    constructor
    · rw [Action.bind_failed ran]
      exact grows
    · rw [Action.bind_failed ran]
      intro moves
      cases mirrored : firstMirror limit image with
      | failed otherFault otherReached otherEvents =>
        rw [Action.bind_failed mirrored]
        cases mirrored ▸ echoes moves with
        | failed ends => exact .failed ends
      | _ => cases mirrored ▸ echoes moves
  | done value reached events =>
    rw [ran] at echoes grows
    have early := grows (likeness.nextId reached) rfl
    obtain ⟨reachedImage, alike⟩ := likeness.total reached
    have late := (continues value reached reachedImage alike).grows
    constructor
    · rw [Action.bind_done ran, likeness.next?_after]
      exact fun last found => Nat.le_trans early (late last found)
    · rw [Action.bind_done ran, likeness.next?_after]
      intro moves
      cases mirrored : firstMirror limit image with
      | done otherValue otherReached otherEvents =>
        rw [Action.bind_done mirrored]
        cases mirrored ▸ echoes (moves.upTo late) with
        | done ends =>
          exact ((continues value reached _ ends).echoes (moves.onFrom early)).after events
      | _ => cases mirrored ▸ echoes (moves.upTo late)

theorem mirrors_get_bind {next : σ → Action K σ α} {nextMirror : σ → Action K σ β}
    (continues : Mirrors names likeness onValue limit state image (next state)
      (nextMirror image)) :
    Mirrors names likeness onValue limit state image (Action.get >>= next)
      (Action.get >>= nextMirror) := by
  obtain ⟨grows, echoes⟩ := continues
  constructor
  · rw [Action.get_bind]
    exact grows
  · rw [Action.get_bind, Action.get_bind]
    exact echoes

theorem mirrors_modify_bind {change mirror : σ → σ} {next : Unit → Action K σ α}
    {nextMirror : Unit → Action K σ β}
    (later : likeness.nextId state ≤ likeness.nextId (change state))
    (continues : Mirrors names likeness onValue limit (change state) (mirror image) (next ())
      (nextMirror ())) :
    Mirrors names likeness onValue limit state image (Action.modify change >>= next)
      (Action.modify mirror >>= nextMirror) := by
  obtain ⟨grows, echoes⟩ := continues
  constructor
  · rw [Action.modify_bind]
    exact fun last found => Nat.le_trans later (grows last found)
  · rw [Action.modify_bind, Action.modify_bind]
    exact fun moves => echoes (moves.onFrom later)

theorem mirrors_report_bind (events : List (Event K)) {next : Unit → Action K σ α}
    {nextMirror : Unit → Action K σ β}
    (continues : Mirrors names likeness onValue limit state image (next ()) (nextMirror ())) :
    Mirrors names likeness onValue limit state image (Action.report events >>= next)
      (Action.report (events.map names.event) >>= nextMirror) := by
  obtain ⟨grows, echoes⟩ := continues
  constructor
  · rw [Action.report_bind, likeness.next?_after]
    exact grows
  · rw [Action.report_bind, Action.report_bind, likeness.next?_after]
    exact fun moves => (echoes moves).after events

/-! Wrappings -/

section Wrapping

variable {action : Action K σ α} {mirror : Action K σ β}
  (mirrors : Mirrors names likeness onValue limit state image action mirror)

include mirrors

theorem mirrors_wrap {τ : Type} {outer : Likeness τ} {whole wholeImage : τ}
    {wrapped : Action K τ γ} {wrappedMirror : Action K τ δ}
    (start : outer.nextId whole = likeness.nextId state)
    (next : outer.next? (wrapped limit whole) = likeness.next? (action limit state))
    (ends : (action limit state).Echoes names likeness.alike onValue (mirror limit image) →
      (wrapped limit whole).Echoes names outer.alike onNext (wrappedMirror limit wholeImage)) :
    Mirrors names outer onNext limit whole wholeImage wrapped wrappedMirror := by
  obtain ⟨grows, echoes⟩ := mirrors
  rw [← start, ← next] at grows echoes
  exact ⟨grows, fun moves => ends (echoes moves)⟩

theorem mirrors_attempt :
    Mirrors names likeness (names.ended onValue) limit state image action.attempt
      mirror.attempt := by
  refine mirrors_wrap mirrors rfl ?_ ?_
  · unfold Action.attempt
    cases action limit state <;> rfl
  · unfold Action.attempt
    generalize action limit state = outcome, mirror limit image = mirrored
    intro echo
    cases echo with
    | done ends => exact .done ends
    | failed ends => exact .done ends
    | unfinished => exact .unfinished

theorem mirrors_mapFault {change mirrorChange : Fault → Fault}
    (alike : ∀ fault, mirrorChange (names.fault fault) = names.fault (change fault)) :
    Mirrors names likeness onValue limit state image (action.mapFault change)
      (mirror.mapFault mirrorChange) := by
  refine mirrors_wrap mirrors rfl ?_ ?_
  · unfold Action.mapFault
    cases action limit state <;> rfl
  · unfold Action.mapFault
    generalize action limit state = outcome, mirror limit image = mirrored
    intro echo
    cases echo with
    | done ends => exact .done ends
    | @failed fault _ _ _ ends =>
      dsimp only
      rw [alike fault]
      exact .failed ends
    | unfinished => exact .unfinished

end Wrapping

/-! Repetitions -/

theorem mirrors_loop {step mirror : Action K σ Bool}
    (mirrors : ∀ state image, likeness.alike state image →
      Mirrors names likeness id limit state image step mirror)
    (alike : likeness.alike state image) :
    Mirrors names likeness id limit state image (Action.loop step) (Action.loop mirror) := by
  have rounds : ∀ count state image, likeness.alike state image →
      Mirrors names likeness id limit state image (Action.rounds step count)
        (Action.rounds mirror count) := by
    intro count
    induction count with
    | zero => exact fun _ _ _ => ⟨nofun, fun _ => .unfinished⟩
    | succ count ih =>
      refine fun state image alike => mirrors_bind (mirrors state image alike) ?_
      intro again reached reachedImage alike
      cases again with
      | false => exact mirrors_pure alike ()
      | true => exact ih reached reachedImage alike
  obtain ⟨grows, echoes⟩ := rounds limit state image alike
  exact ⟨grows, echoes⟩

theorem mirrors_forEach {act : α → Action K σ Unit} {mirror : β → Action K σ Unit}
    (mirrors : ∀ value state image, likeness.alike state image →
      Mirrors names likeness id limit state image (act value) (mirror (onValue value)))
    (values : List α) (alike : likeness.alike state image) :
    Mirrors names likeness id limit state image (Action.forEach act values)
      (Action.forEach mirror (values.map onValue)) := by
  induction values generalizing state image with
  | nil => exact mirrors_pure alike ()
  | cons value rest ih => exact mirrors_bind (mirrors value state image alike) fun _ _ _ => ih

end Combining

end SoftSimplex
