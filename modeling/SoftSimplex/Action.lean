import SoftSimplex.Event

/-!
Computations that change a state, report events and may fail. A failure keeps the changes made
before it. Loops run for a limited number of rounds, and a computation that meets the limit has no
outcome but `unfinished`: every other outcome is what the unlimited computation would return.
-/

namespace SoftSimplex

inductive Outcome (K σ α : Type) where
  | done (value : α) (state : σ) (events : List (Event K))
  | failed (fault : Fault) (state : σ) (events : List (Event K))
  | unfinished

def Outcome.after {K σ α : Type} (earlier : List (Event K)) : Outcome K σ α → Outcome K σ α
  | done value state events => done value state (earlier ++ events)
  | failed fault state events => failed fault state (earlier ++ events)
  | unfinished => unfinished

/-- Takes the largest number of rounds for a loop, and the state to start from. -/
def Action (K σ α : Type) := Nat → σ → Outcome K σ α

namespace Action

variable {K σ τ α β : Type}

def run (action : Action K σ α) (limit : Nat) (state : σ) : Outcome K σ α := action limit state

def pure (value : α) : Action K σ α := fun _ state => .done value state []

def bind (first : Action K σ α) (next : α → Action K σ β) : Action K σ β := fun limit state =>
  match first limit state with
  | .done value reached events => (next value limit reached).after events
  | .failed fault reached events => .failed fault reached events
  | .unfinished => .unfinished

instance : Monad (Action K σ) where
  pure := pure
  bind := bind

def get : Action K σ σ := fun _ state => .done state state []

def modify (change : σ → σ) : Action K σ Unit := fun _ state => .done () (change state) []

def fail (fault : Fault) : Action K σ α := fun _ state => .failed fault state []

def report (events : List (Event K)) : Action K σ Unit := fun _ state => .done () state events

def attempt (action : Action K σ α) : Action K σ (Except Fault α) := fun limit state =>
  match action limit state with
  | .done value reached events => .done (.ok value) reached events
  | .failed fault reached events => .done (.error fault) reached events
  | .unfinished => .unfinished

def mapFault (change : Fault → Fault) (action : Action K σ α) : Action K σ α := fun limit state =>
  match action limit state with
  | .failed fault reached events => .failed (change fault) reached events
  | other => other

def within (part : σ → τ) (replace : τ → σ → σ) (action : Action K τ α) : Action K σ α :=
  fun limit state =>
    match action limit (part state) with
    | .done value reached events => .done value (replace reached state) events
    | .failed fault reached events => .failed fault (replace reached state) events
    | .unfinished => .unfinished

/-- Runs a step, at most the given number of times, until it asks for no further round. -/
def rounds (step : Action K σ Bool) : Nat → Action K σ Unit
  | 0 => fun _ _ => .unfinished
  | count + 1 => bind step fun again => if again then rounds step count else pure ()

def loop (step : Action K σ Bool) : Action K σ Unit := fun limit state =>
  rounds step limit limit state

def forEach (act : α → Action K σ Unit) : List α → Action K σ Unit
  | [] => pure ()
  | value :: rest => bind (act value) fun _ => forEach act rest

end Action

end SoftSimplex
