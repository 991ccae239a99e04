import SoftSimplex.Proofs.Requirements

/-!
Judgements with a tolerance over numbers without rounding. What counts as zero, as equal or as worth
a pivot is decided up to a tolerance, and that is the only difference to exact comparisons. A call is
judged exactly if it made none; what such calls reach can be reached with exact comparisons.
-/

namespace SoftSimplex

deriving instance DecidableEq for Table
deriving instance DecidableEq for Expression
deriving instance DecidableEq for Demand
deriving instance DecidableEq for Constraint
deriving instance DecidableEq for Tableau
deriving instance DecidableEq for Config
deriving instance DecidableEq for VariableInfo
deriving instance DecidableEq for Charge
deriving instance DecidableEq for Installed
deriving instance DecidableEq for EditInfo
deriving instance DecidableEq for Solver
deriving instance DecidableEq for Session
deriving instance DecidableEq for Reply
deriving instance DecidableEq for Event
deriving instance DecidableEq for Outcome

@[reducible]
def Scalar.tolerant {K : Type} [Field K] [LinearOrder K] (tolerance largest : K) : Scalar K where
  negligible value := |value| < tolerance
  close left right :=
    if left = 0 then |right| < tolerance
    else if right = 0 then |left| < tolerance
    else |left - right| < |left| * tolerance
  improving value := !decide (-tolerance ≤ value)
  bounded value := value < largest
  placeValue := exactScalar.placeValue

@[reducible]
def Scalar.coded : Scalar ℚ := .tolerant (1 / 10 ^ 8) (17976931348623157 * 10 ^ 292)

namespace Session

variable {K : Type} [Field K] [LinearOrder K]

def performExactly (request : Call K) : Action K (Session K) (Reply K) := perform request

/-- Exact comparisons would have given this outcome too. -/
def JudgedExactly (session : Session K) (request : Call K)
    (outcome : Outcome K (Session K) (Reply K)) : Prop :=
  ∃ limit, performExactly request limit session = outcome

variable {session next : Session K}
  {allowed : Session K → Call K → Outcome K (Session K) (Reply K) → Prop}

def RunsExactly (allowed : Session K → Call K → Outcome K (Session K) (Reply K) → Prop) :
    Session K → Prop := Runs allowed

theorem RunsExactly.fresh (config : Config K) (sink : Sink) :
    RunsExactly allowed (start (.withConfig config) sink) := Runs.fresh config sink

theorem RunsExactly.call {request : Call K} {outcome : Outcome K (Session K) (Reply K)}
    (earlier : RunsExactly allowed session) (allows : allowed session request outcome)
    (judged : session.JudgedExactly request outcome) (returns : outcome.state? = some next) :
    RunsExactly allowed next := by
  obtain ⟨limit, rfl⟩ := judged
  exact Runs.call earlier allows returns

theorem Runs.exactly [Scalar K]
    (run : Runs (fun session request outcome => allowed session request outcome ∧
      session.JudgedExactly request outcome) session) : RunsExactly allowed session := by
  induction run with
  | fresh config sink => exact .fresh config sink
  | call _ allows returns ih => exact ih.call allows.1 allows.2 returns

structure EndsExactly (session : Session K) (request : Call K)
    (outcome : Outcome K (Session K) (Reply K)) (next : Session K) : Prop where
  judged : session.JudgedExactly request outcome
  returns : outcome.state? = some next
  regular : ∀ fault, outcome.fault? = some fault → fault.isInternal = false

theorem EndsExactly.meets {request : Call K} {outcome : Outcome K (Session K) (Reply K)}
    {returned : Reply K → Session K → Prop} {broken : Fault → Session K → Prop}
    (ends : session.EndsExactly request outcome next)
    (meets : ∀ limit, (performExactly request limit session).Meets returned broken) :
    (∃ reply, outcome.fault? = none ∧ returned reply next) ∨
      ∃ fault, outcome.fault? = some fault ∧ fault.isInternal = false ∧ broken fault next := by
  obtain ⟨⟨limit, performed⟩, returns, regular⟩ := ends
  have met := meets limit
  rw [performed] at met
  cases outcome with
  | done reply reached events =>
    cases returns
    exact Or.inl ⟨reply, rfl, met⟩
  | failed fault reached events =>
    cases returns
    exact Or.inr ⟨fault, rfl, regular fault rfl, met⟩
  | unfinished => cases returns

section Judged

variable [Scalar K] {request : Call K} {limit : Nat}

/-- The call ends in the outcome, which is no defect, and exact comparisons give it too. -/
structure Ends (session : Session K) (request : Call K)
    (outcome : Outcome K (Session K) (Reply K)) (next : Session K) : Prop extends
    session.EndsExactly request outcome next where
  performed : ∃ limit, perform request limit session = outcome

theorem Ends.of_perform (judged : session.JudgedExactly request (perform request limit session))
    (returns : (perform request limit session).state?.isSome = true)
    (regular : ∀ fault, (perform request limit session).fault? = some fault →
      fault.isInternal = false) :
    session.Ends request (perform request limit session) (session.replay limit [request]) :=
  ⟨⟨judged, state?_of_returns returns, regular⟩, limit, rfl⟩

end Judged

end Session

end SoftSimplex
