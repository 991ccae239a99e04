import SoftSimplex.Proofs.Declining
import SoftSimplex.Proofs.Exact
import SoftSimplex.Proofs.MirroredSessions

/-!
What a refused constraint leaves behind. Nothing has changed but that ids are used up, and from then
on a session that has refused and one that was never asked run in step: they return the same, fail
alike and hold the same, up to one renaming of the ids given out later.
-/

namespace SoftSimplex

variable {K : Type}

def Demand.ids (demand : Demand K) : List Nat :=
  demand.expression.symbols.map (·.id) ++ demand.unknown?.toList.map (·.id)

def Call.ids : Call K → List Nat
  | make demand => demand.ids
  | addLowerBound unknown _ | addUpperBound unknown _ | addBounds unknown _ _ => [unknown.id]
  | addStay unknown _ _ | addVariable unknown => [unknown.id]
  | addPointStay horizontal vertical _ => [horizontal.id, vertical.id]
  | addPointStays points => points.flatMap fun point => [point.1.id, point.2.id]
  | addEdit unknown _ | addDefaultEdit unknown | removeEdit unknown => [unknown.id]
  | suggest unknown _ | setEditedValue unknown _ => [unknown.id]
  | _ => []

namespace Renaming

variable {names : Renaming}

theorem symbol_eq_self {symbol : Symbol} (fixed : names.onId symbol.id = symbol.id) :
    names.symbol symbol = symbol := congrArg (Symbol.mk · symbol.kind) fixed

theorem unknown_eq_self {unknown : Variable} (fixed : names.onId unknown.id = unknown.id) :
    names.unknown unknown = unknown := congrArg Variable.mk fixed

theorem demand_eq_self {demand : Demand K} (fixed : ∀ id ∈ demand.ids, names.onId id = id) :
    names.demand demand = demand := by
  have expression : names.expression demand.expression = demand.expression := by
    refine congrArg (Expression.mk demand.expression.constant) (Table.relabel_eq_self ?_)
    exact fun symbol member => symbol_eq_self
      (fixed _ (List.mem_append_left _ (List.mem_map_of_mem member)))
  have kind : names.kind demand.kind = demand.kind := by
    have mentioned : ∀ unknown, demand.unknown? = some unknown → names.unknown unknown = unknown := by
      intro unknown found
      refine unknown_eq_self (fixed _ (List.mem_append_right _ ?_))
      rw [found]
      exact List.mem_singleton_self _
    unfold Demand.unknown? at mentioned
    cases kindOf : demand.kind with
    | inequality => rfl
    | equality => rfl
    | edit unknown => exact congrArg ConstraintKind.edit (mentioned unknown (by rw [kindOf]))
    | stay unknown => exact congrArg ConstraintKind.stay (mentioned unknown (by rw [kindOf]))
  unfold Renaming.demand
  rw [expression, kind]

theorem call_eq_self {request : Call K} (fixed : ∀ id ∈ request.ids, names.onId id = id) :
    names.call request = request := by
  have single : ∀ unknown : Variable, unknown.id ∈ request.ids → names.unknown unknown = unknown :=
    fun unknown member => unknown_eq_self (fixed unknown.id member)
  cases request with
  | make demand => exact congrArg Call.make (demand_eq_self fixed)
  | addPointStays points =>
    refine congrArg Call.addPointStays ((List.map_congr_left fun point member => ?_).trans
      (List.map_id _))
    have mentioned : ∀ unknown ∈ [point.1, point.2], names.unknown unknown = unknown := by
      intro unknown either
      refine single unknown (List.mem_flatMap.mpr ⟨point, member, ?_⟩)
      have listed : unknown.id ∈ [point.1, point.2].map Variable.id := List.mem_map_of_mem either
      simpa using listed
    exact Prod.ext (mentioned point.1 (by simp)) (mentioned point.2 (by simp))
  | _ => simp [Renaming.call, Call.ids] at single ⊢ <;> simp [single]

/-- Ids from a bound on are moved, those below it are not. -/
def gap (bound width : Nat) (positive : 0 < bound) : Renaming where
  onId := ⟨fun id => if id < bound then id else id + width, fun left right same => by
    dsimp only at same
    split at same <;> split at same <;> omega⟩
  origin := if_pos positive
  shift := width

theorem gap_below {bound width id : Nat} (positive : 0 < bound) (below : id < bound) :
    (gap bound width positive).onId id = id := if_pos below

theorem gap_from {bound width id : Nat} (positive : 0 < bound) (reached : bound ≤ id) :
    (gap bound width positive).onId id = id + width := if_neg (Nat.not_lt.mpr reached)

end Renaming

namespace Session

variable [Zero K] [One K] [Add K] [Sub K] [Neg K] [Mul K] [Div K]
  [LT K] [DecidableLT K] [LE K] [DecidableLE K] [Scalar K]

variable {session next image failed : Session K} {names : Renaming} {limit key : Nat}
  {request : Call K}

/-- The sessions that calls can reach that mention only ids that have been given out. -/
def Issued : Session K → Prop :=
  Runs fun session request _ => request.External ∧ ∀ id ∈ request.ids, id < session.solver.nextId

theorem Issued.reachable (issued : Issued session) : session.Reachable :=
  Runs.mono issued fun _ _ _ allowed => allowed.1

theorem nextId_perform (returns : (perform request limit session).state? = some next) :
    session.solver.nextId ≤ next.solver.nextId := by
  obtain ⟨image, alike⟩ := (Renaming.same.sessions (K := K)).total session
  exact (mirrors_perform alike request).grows next.solver.nextId (congrArg (Option.map _) returns)

theorem Issued.nextId_pos (issued : Issued session) : 0 < session.solver.nextId := by
  induction issued with
  | fresh config sink => exact Nat.one_pos
  | call _ _ returns ih => exact Nat.lt_of_lt_of_le ih (nextId_perform returns)

theorem Issued.echoes_self (issued : Issued session) (still : names.shift = 0)
    (fixed : ∀ id < session.solver.nextId, names.onId id = id) : session.Echoes names session := by
  induction issued with
  | fresh config sink =>
    refine ⟨?_, rfl, sink, [], rfl, rfl⟩
    have tableau := names.addRow_tableau (∅ : Tableau K) .mainObjective (.ofConstant 0)
    rw [names.symbol_mainObjective, names.ofConstant_expression] at tableau
    unfold Renaming.solver
    rw [still]
    exact congrArg (fun tableau => { Solver.withConfig config with tableau }) tableau
  | @call session next request limit _ allowed returns ih =>
    have later := nextId_perform returns
    have alike := ih fun id old => fixed id (Nat.lt_of_lt_of_le old later)
    have asked : names.call request = request := Renaming.call_eq_self fun id member =>
      fixed id (Nat.lt_of_lt_of_le (allowed.2 id member) later)
    have moves : names.Moves session.solver.nextId
        (names.sessions.next? (perform request limit session)) := by
      intro id _ young
      rw [still, Nat.add_zero]
      exact fixed id (young _ (congrArg (Option.map _) returns))
    have echo := (mirrors_perform alike request).echoes moves
    rw [asked] at echo
    obtain ⟨reached, returned, alike⟩ := echo.state?_some returns
    cases returns.symm.trans returned
    exact alike

theorem Issued.echoes_gap (issued : Issued session) (width : Nat) :
    session.Echoes (.gap session.solver.nextId width issued.nextId_pos)
      { session with
        solver := { session.solver with nextId := session.solver.nextId + width } } := by
  let names := Renaming.gap session.solver.nextId width issued.nextId_pos
  have same : session.Echoes { names with shift := 0 } session :=
    issued.echoes_self rfl fun id => Renaming.gap_below issued.nextId_pos
  refine ⟨?_, same.held, session.sink, [], rfl, rfl⟩
  exact congrArg (fun solver : Solver K =>
    { solver with nextId := session.solver.nextId + width }) same.solver

/-- What each of a list of calls ends with, made one after the other until one does not end. -/
def transcript (limit : Nat) : List (Call K) → Session K → List (Outcome K (Session K) (Reply K))
  | [], _ => []
  | request :: rest, session =>
    let outcome := perform request limit session
    outcome :: match outcome.state? with
      | none => []
      | some next => transcript limit rest next

theorem Echoes.transcript (alike : session.Echoes names image)
    (moves : ∀ id, session.solver.nextId ≤ id → names.onId id = id + names.shift)
    (requests : List (Call K)) :
    List.Forall₂ (Outcome.Echoes names (Session.Echoes names) names.reply)
      (session.transcript limit requests) (image.transcript limit (requests.map names.call)) := by
  induction requests generalizing session image with
  | nil => exact .nil
  | cons request rest ih =>
    have echo : (perform request limit session).Echoes names (Session.Echoes names) names.reply
        (perform (names.call request) limit image) :=
      (mirrors_perform alike request).echoes fun id old _ => moves id old
    refine .cons echo ?_
    cases ended : (perform request limit session).state? with
    | none =>
      rw [echo.state?_none ended]
      exact .nil
    | some next =>
      obtain ⟨nextImage, endedImage, alike⟩ := echo.state?_some ended
      rw [endedImage]
      exact ih alike fun id old => moves id (Nat.le_trans (nextId_perform ended) old)

theorem add_refused (sound : session.Sound) :
    (perform (.add key) limit session).Meets (fun _ _ => True) fun fault next =>
      fault = .requiredFailure →
        next = { session with solver := { session.solver with nextId := next.solver.nextId } } := by
  unfold perform withHeld
  rw [Action.meets_bind, Action.meets_get]
  cases found : session.held.get? key with
  | none => exact nofun
  | some constraint =>
    have ⟨_, agrees⟩ := sound.held key constraint found
    have unchanged : Solver.FailsUnchanged [] (Solver.add constraint) limit session.solver :=
      Solver.add_failsUnchanged sound.solver agrees.external agrees.older
    have ends := unchanged.and_meets (Solver.add_meets sound.solver agrees.external agrees.older)
    refine (Action.meets_bind _ _ _).mpr ?_
    refine (meets_onSolver_of_tells ends).imp (fun _ _ _ => trivial) ?_
    rintro fault _ ⟨solver, told, ⟨unchanged, fails⟩, rfl⟩ rfl
    obtain ⟨_, rfl⟩ := unchanged rfl
    cases fails <;> rfl

/-- After a refused constraint the session runs in step with one that was never asked, whatever
calls follow: results, faults, events and states are the same in the same order, up to a renaming
that moves the ids given out later past those used up. -/
theorem add_leaves_gap (issued : Issued session)
    (fails : (perform (.add key) limit session).fault? = some .requiredFailure)
    (leaves : (perform (.add key) limit session).state? = some failed) :
    ∃ names : Renaming, (∀ id < session.solver.nextId, names.onId id = id) ∧
      (∀ id, session.solver.nextId ≤ id →
        names.onId id = id + (failed.solver.nextId - session.solver.nextId)) ∧
      session.Echoes names failed ∧
      ∀ limit requests, List.Forall₂ (Outcome.Echoes names (Session.Echoes names) names.reply)
        (session.transcript limit requests) (failed.transcript limit (requests.map names.call)) := by
  have sound : session.Sound := issued.reachable.sound
  have later := nextId_perform leaves
  have unmoved : failed = { session with
      solver := { session.solver with nextId := failed.solver.nextId } } :=
    (add_refused sound).of_fault fails leaves rfl
  have counted := Nat.add_sub_cancel' later
  have alike := issued.echoes_gap (failed.solver.nextId - session.solver.nextId)
  rw [counted, ← unmoved] at alike
  have positive := issued.nextId_pos
  exact ⟨_, fun id => Renaming.gap_below positive, fun id => Renaming.gap_from positive, alike,
    fun _ => alike.transcript fun id => Renaming.gap_from positive⟩

/-- Bounds that cross: the second one uses up the ids from three to five, so that the variable and
the constraints made later have other ids. -/
theorem add_leaves_gap_crossed :
    let session : Session ℚ := (start (.withConfig .standard) .log).replay 8
      [.newVariable none 0, .make (.atMost (.ofVariable ⟨1⟩) (.ofConstant 1) .required), .add 0,
        .make (.atLeast (.ofVariable ⟨1⟩) (.ofConstant 2) .required)]
    let failed := session.replay 8 [.add 1]
    let later : List (Call ℚ) := [.newVariable none 7, .addStay ⟨3⟩ .weak 1,
      .make (.atMost (.ofVariable ⟨3⟩) (.ofVariable ⟨1⟩) .required), .add 3, .suggest ⟨3⟩ 4]
    session.solver.nextId = 3 ∧ failed.solver.nextId = 6 ∧
      ∃ names : Renaming, names.onId 1 = 1 ∧ names.onId 3 = 6 ∧
        List.Forall₂ (Outcome.Echoes names (Session.Echoes names) names.reply)
          (session.transcript 8 later) (failed.transcript 8 (later.map names.call)) := by
  intro session failed later
  have issued : Issued session := (Runs.fresh _ _).replay
    ⟨⟨trivial, by decide +kernel⟩,
      ⟨Demand.external_upperBound ⟨1⟩ 1 .required, by decide +kernel⟩, ⟨trivial, by decide +kernel⟩,
      ⟨Demand.external_lowerBound ⟨1⟩ 2 .required, by decide +kernel⟩, trivial⟩
  have fails : (perform (.add 1) 8 session).fault? = some .requiredFailure := by decide +kernel
  have leaves : (perform (.add 1) 8 session).state? = some failed :=
    state?_of_returns (by decide +kernel)
  have first : session.solver.nextId = 3 := by decide +kernel
  have next : failed.solver.nextId = 6 := by decide +kernel
  clear_value session failed
  obtain ⟨names, below, above, _, inStep⟩ := add_leaves_gap issued fails leaves
  rw [first] at below above
  rw [next] at above
  exact ⟨first, next, names, below 1 (by decide), above 3 (Nat.le_refl 3), inStep 8 later⟩

end Session

end SoftSimplex
