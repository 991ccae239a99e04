import SoftSimplex.Proofs.Calls
import SoftSimplex.Session

/-!
Runs of a session: what can be reached from a fresh solver by calls that return. Every call is a
chain of moves of the solver, so what moves keep holds in every reachable state.
-/

namespace SoftSimplex

variable {K : Type} [Zero K] [One K] [Add K] [Sub K] [Neg K] [Mul K] [Div K] [LT K] [DecidableLT K]
  [LE K] [DecidableLE K] [Scalar K]

def Call.External : Call K → Prop
  | make demand => demand.External
  | _ => True

namespace Session

/-- The sessions that allowed calls can reach; a call that fails leaves a state as well. -/
inductive Runs (allowed : Session K → Call K → Outcome K (Session K) (Reply K) → Prop) :
    Session K → Prop
  | fresh (config : Config K) (sink : Sink) : Runs allowed (start (.withConfig config) sink)
  | call {session next : Session K} {request : Call K} {limit : Nat}
      (earlier : Runs allowed session)
      (allows : allowed session request (perform request limit session))
      (returns : (perform request limit session).state? = some next) : Runs allowed next

/-- The sessions that calls over constraints on variables can reach. -/
abbrev Reachable : Session K → Prop := Runs fun _ request _ => request.External

/-- The solver is sound and agrees with the constraints that the session holds. -/
structure Sound (session : Session K) : Prop where
  solver : session.solver.Sound
  held : ∀ key constraint, session.held.get? key = some constraint →
    constraint.key = key ∧ session.solver.Agrees constraint

variable {given : Constraint K → Prop} {session next : Session K} {limit : Nat}

section Running

omit [Zero K] [One K] [Add K] [Sub K] [Neg K] [Mul K] [Div K] [LT K] [DecidableLT K] [LE K]
  [DecidableLE K] [Scalar K] in
theorem meets_onSolver {α : Type} {action : Action K (Solver K) α}
    {returned : α → Solver K → Prop} {broken : Fault → Solver K → Prop}
    (meets : (action limit session.solver).Meets returned broken) :
    (onSolver action limit session).Meets
      (fun value next => returned value next.solver ∧ next.held = session.held)
      (fun fault next => broken fault next.solver ∧ next.held = session.held) := by
  unfold onSolver
  revert meets
  cases action limit session.solver with
  | done value solver events => exact fun meets => ⟨meets, rfl⟩
  | failed fault solver events => exact fun meets => ⟨meets, rfl⟩
  | unfinished => exact id

omit [Zero K] [One K] [Add K] [Sub K] [Neg K] [Mul K] [Div K] [LT K] [DecidableLT K] [LE K]
  [DecidableLE K] [Scalar K] in
theorem meets_silent {action : Action K (Solver K) Unit} {returned : Solver K → Prop}
    {broken : Fault → Solver K → Prop}
    (meets : (action limit session.solver).Meets (fun _ solver => returned solver) broken) :
    (nothing action limit session).Meets
      (fun _ next => returned next.solver ∧ next.held = session.held)
      (fun fault next => broken fault next.solver ∧ next.held = session.held) := by
  unfold nothing
  rw [Action.meets_bind]
  exact (meets_onSolver meets).imp (fun _ _ met => met) fun _ _ met => met

omit [Zero K] [One K] [Add K] [Sub K] [Neg K] [Mul K] [Div K] [LT K] [DecidableLT K] [LE K]
  [DecidableLE K] [Scalar K] in
theorem meets_onHeld {key : Nat} {act : Constraint K → Action K (Solver K) Unit}
    (returned : Solver K → Prop) (broken : Fault → Solver K → Prop)
    (acts : ∀ constraint, session.held.get? key = some constraint →
      (act constraint limit session.solver).Meets (fun _ solver => returned solver) broken)
    (missing : session.held.get? key = none → broken .constraintNotFound session.solver) :
    (withHeld key (fun constraint => nothing (act constraint)) limit session).Meets
      (fun _ next => returned next.solver ∧ next.held = session.held)
      (fun fault next => broken fault next.solver ∧ next.held = session.held) := by
  unfold withHeld
  rw [Action.meets_bind, Action.meets_get]
  cases found : session.held.get? key with
  | none => exact ⟨missing found, rfl⟩
  | some constraint => exact meets_silent (acts constraint found)

/-- What a call does: a chain of moves, after which what is held agrees with the solver. -/
def Advances (session next : Session K) : Prop :=
  (∃ given, Solver.Reaches given session.solver next.solver) ∧
    ∀ key constraint, next.held.get? key = some constraint →
      constraint.key = key ∧ next.solver.Agrees constraint

def Halts (session : Session K) (fault : Fault) (next : Session K) : Prop :=
  (∃ given, Solver.ReachesFailure given session.solver fault next.solver) ∧ session.Advances next

omit [LE K] [DecidableLE K] in
theorem advances_of_reaches (sound : session.Sound)
    (reaches : Solver.Reaches given session.solver next.solver) (same : next.held = session.held)
    (others : ∀ key constraint, session.held.get? key = some constraint → ∀ other, given other →
      other.key = constraint.key → other.kind = constraint.kind) : session.Advances next := by
  refine ⟨⟨given, reaches⟩, ?_⟩
  intro key constraint found
  rw [same] at found
  obtain ⟨sameKey, agrees⟩ := sound.held key constraint found
  exact ⟨sameKey, reaches.agrees agrees (others key constraint found)⟩

omit [LE K] [DecidableLE K] in
theorem advances_of_evolves (sound : session.Sound)
    (evolves : session.solver.Evolves next.solver) (same : next.held = session.held) :
    session.Advances next := by
  refine advances_of_reaches sound evolves same ?_
  intro key constraint found other later sameKey
  have older := (sound.held key constraint found).2.older
  omega

omit [LE K] [DecidableLE K] in
theorem halts_of_unchanged (sound : session.Sound) {fault : Fault}
    (other : fault ≠ .internal .objectiveUnbounded) : session.Halts fault session :=
  ⟨⟨fun _ => False, Solver.Reaches.reachesFailure .refl other⟩,
    advances_of_evolves sound (.refl session.solver) rfl⟩

omit [LE K] [DecidableLE K] in
theorem meets_nothing (sound : session.Sound) {action : Action K (Solver K) Unit}
    (evolving : Solver.Evolving action limit session.solver fun _ _ => True) :
    (nothing action limit session).Meets (fun _ next => session.Advances next)
      (fun fault next => session.Halts fault next) := by
  refine (meets_silent evolving).imp ?_ ?_
  · exact fun _ next met => advances_of_evolves sound met.1.1 met.2
  · exact fun _ next met => ⟨⟨_, met.1⟩, advances_of_evolves sound met.1.reaches met.2⟩

omit [Zero K] [One K] [Add K] [Sub K] [Neg K] [Mul K] [Div K] [LT K] [DecidableLT K] [LE K]
  [DecidableLE K] [Scalar K] in
theorem get?_held_hold (made : List (Constraint K)) {key : Nat} {constraint : Constraint K}
    (found : (hold made session).held.get? key = some constraint) :
    session.held.get? key = some constraint ∨ constraint ∈ made ∧ constraint.key = key := by
  have folded : ∀ held : Table Nat (Constraint K),
      (made.foldl (fun held constraint => held.insert constraint.key constraint) held).get? key =
        some constraint →
      held.get? key = some constraint ∨ constraint ∈ made ∧ constraint.key = key := by
    clear found
    induction made with
    | nil => exact fun _ found => Or.inl found
    | cons first rest ih =>
      intro held found
      rcases ih _ found with earlier | ⟨member, same⟩
      · rw [Table.get?_insert] at earlier
        split at earlier
        · rename_i same
          cases earlier
          exact Or.inr ⟨List.mem_cons_self, same⟩
        · exact Or.inl earlier
      · exact Or.inr ⟨List.mem_cons_of_mem first member, same⟩
  exact folded session.held found

omit [LE K] [DecidableLE K] in
theorem meets_holding (sound : session.Sound) {α : Type} {action : Action K (Solver K) α}
    {made : α → List (Constraint K)}
    (evolving : Solver.Evolving action limit session.solver
      fun value after => ∀ constraint ∈ made value, after.Agrees constraint) :
    (holding action made limit session).Meets (fun _ next => session.Advances next)
      (fun fault next => session.Halts fault next) := by
  unfold holding
  rw [Action.meets_bind]
  refine (meets_onSolver evolving).imp ?_ ?_
  · rintro value next ⟨⟨evolves, agree⟩, same⟩
    obtain ⟨reaches, held⟩ := advances_of_evolves sound evolves same
    refine ⟨reaches, ?_⟩
    intro key constraint found
    rcases get?_held_hold (made value) found with old | ⟨member, sameKey⟩
    · exact held key constraint old
    · exact ⟨sameKey, agree constraint member⟩
  · exact fun _ next met => ⟨⟨_, met.1⟩, advances_of_evolves sound met.1.reaches met.2⟩

omit [LE K] [DecidableLE K] in
theorem meets_withHeld (sound : session.Sound) {α : Type} {key : Nat}
    {act : Constraint K → Action K (Session K) α}
    (acts : ∀ constraint, session.held.get? key = some constraint →
      (act constraint limit session).Meets (fun _ next => session.Advances next)
        (fun fault next => session.Halts fault next)) :
    (withHeld key act limit session).Meets (fun _ next => session.Advances next)
      (fun fault next => session.Halts fault next) := by
  unfold withHeld
  rw [Action.meets_bind, Action.meets_get]
  cases found : session.held.get? key with
  | none => exact halts_of_unchanged sound nofun
  | some constraint => exact acts constraint found

omit [LE K] [DecidableLE K] in
theorem advances_of_held (sound : session.Sound) {key : Nat} {constraint : Constraint K}
    (found : session.held.get? key = some constraint)
    (reaches : Solver.Reaches (· = constraint) session.solver next.solver)
    (same : next.held = session.held) : session.Advances next := by
  refine advances_of_reaches sound reaches same ?_
  rintro other held foundOther _ rfl sameKey
  have firstKey := (sound.held key _ found).1
  have secondKey := (sound.held other held foundOther).1
  rw [← firstKey, sameKey, secondKey, foundOther] at found
  rw [Option.some.inj found]

omit [LE K] [DecidableLE K] in
theorem meets_installing (sound : session.Sound) {key : Nat} {constraint : Constraint K}
    (found : session.held.get? key = some constraint) {α : Type} {action : Action K (Solver K) α}
    (reaches : (action limit session.solver).Meets
      (fun _ after => Solver.Reaches (· = constraint) session.solver after)
      fun fault after => Solver.ReachesFailure (· = constraint) session.solver fault after) :
    (onSolver action limit session).Meets (fun _ next => session.Advances next)
      (fun fault next => session.Halts fault next) := by
  refine (meets_onSolver reaches).imp ?_ ?_
  · exact fun _ next met => advances_of_held sound found met.1 met.2
  · exact fun _ next met => ⟨⟨_, met.1⟩, advances_of_held sound found met.1.reaches met.2⟩

omit [LE K] [DecidableLE K] in
theorem advances_strengthened (sound : session.Sound) {key : Nat} {constraint : Constraint K}
    (found : session.held.get? key = some constraint) (strength : Strength) :
    session.Advances (hold [constraint.withStrength strength] session) := by
  refine ⟨⟨fun _ => False, .refl⟩, ?_⟩
  intro other held lookup
  rcases get?_held_hold [constraint.withStrength strength] lookup with old | ⟨member, sameKey⟩
  · exact sound.held other held old
  · have agrees := (sound.held key constraint found).2
    rw [List.mem_singleton.mp member] at sameKey ⊢
    exact ⟨sameKey, agrees.external, agrees.older, agrees.sameKind⟩

end Running

theorem perform_advances (sound : session.Sound) {request : Call K} (external : request.External) :
    (perform request limit session).Meets (fun _ next => session.Advances next)
      (fun fault next => session.Halts fault next) := by
  cases request with
  | newVariable name value =>
    refine advances_of_evolves sound ?_ rfl
    exact .single (.tidy ⟨rfl, rfl, rfl, rfl, rfl, Nat.le_succ _, Nat.le_refl _⟩)
  | make demand =>
    refine meets_holding sound ?_
    refine ⟨.single (.tidy session.solver.tidies_withNextKey), ?_⟩
    intro constraint member
    rw [List.mem_singleton.mp member]
    refine ⟨external, Nat.lt_succ_self _, ?_⟩
    intro entry found
    exact absurd (sound.solver.books.entries _ entry found).older (Nat.lt_irrefl _)
  | setStrength key strength =>
    exact meets_withHeld sound fun _ found => advances_strengthened sound found strength
  | add key =>
    refine meets_withHeld sound fun constraint found => ?_
    have agrees := (sound.held key constraint found).2
    refine (Action.meets_bind _ _ _).mpr (meets_installing sound found ?_)
    exact (Solver.add_reaches (· = constraint) sound.solver agrees.external agrees.older rfl).imp
      (fun _ _ met => met.1) fun _ _ failing => failing
  | tryAdd key =>
    refine meets_withHeld sound fun constraint found => ?_
    have agrees := (sound.held key constraint found).2
    exact (Action.meets_bind _ _ _).mpr (meets_installing sound found
      (Solver.tryAdd_reaches _ sound.solver agrees.external agrees.older rfl))
  | remove key =>
    refine meets_withHeld sound fun constraint found => ?_
    exact meets_nothing sound
      (Solver.remove_evolves sound.solver (sound.held key constraint found).2.sameKind)
  | addLowerBound unknown lower =>
    refine meets_holding sound ((Solver.addNew_evolves sound.solver
      (Demand.external_lowerBound unknown lower .required)).imp ?_)
    exact fun made after agrees => List.forall_mem_singleton.mpr agrees
  | addUpperBound unknown upper =>
    refine meets_holding sound ((Solver.addNew_evolves sound.solver
      (Demand.external_upperBound unknown upper .required)).imp ?_)
    exact fun made after agrees => List.forall_mem_singleton.mpr agrees
  | addBounds unknown lower upper =>
    refine meets_holding sound
      ((Solver.addBounds_evolves sound.solver unknown lower upper).imp ?_)
    exact fun made after agree => List.forall_mem_cons.mpr
      ⟨agree.1, List.forall_mem_singleton.mpr agree.2⟩
  | addStay unknown strength weight =>
    refine meets_holding sound
      ((Solver.addStay_evolves sound.solver unknown strength weight).imp ?_)
    exact fun made after agrees => List.forall_mem_singleton.mpr agrees
  | addPointStay horizontal vertical weight =>
    refine meets_holding sound
      ((Solver.addPointStay_evolves sound.solver horizontal vertical weight).imp ?_)
    exact fun made after agree => List.forall_mem_cons.mpr
      ⟨agree.1, List.forall_mem_singleton.mpr agree.2⟩
  | addPointStays points =>
    exact meets_holding sound (Solver.addPointStaysFrom_evolves sound.solver 1 points)
  | addVariable unknown => exact meets_nothing sound (Solver.addVariable_evolves sound.solver _)
  | addEdit unknown strength =>
    exact meets_nothing sound (Solver.addEdit_evolves sound.solver unknown strength)
  | addDefaultEdit unknown =>
    exact meets_nothing sound
      (Solver.evolving_get (Solver.addEdit_evolves sound.solver unknown _))
  | removeEdit unknown => exact meets_nothing sound (Solver.removeEdit_evolves sound.solver unknown)
  | trimEdits count => exact meets_nothing sound (Solver.trimEdits_evolves sound.solver count)
  | removeAllEdits => exact meets_nothing sound (Solver.trimEdits_evolves sound.solver 0)
  | beginEdit => exact meets_nothing sound Solver.beginEdit_evolves
  | endEdit => exact meets_nothing sound (Solver.endEdit_evolves sound.solver)
  | suggest unknown target => exact meets_nothing sound (Solver.suggest_evolves unknown target)
  | resolve => exact meets_nothing sound (Solver.resolve_evolves sound.solver)
  | resolveAt targets => exact meets_nothing sound (Solver.resolveAt_evolves sound.solver targets)
  | setEditedValue unknown target =>
    exact meets_nothing sound (Solver.setEditedValue_evolves sound.solver unknown target)
  | solve => exact meets_nothing sound (Solver.solve_evolves sound.solver)
  | reset => exact halts_of_unchanged sound nofun
  | setAutoSolve autoSolve =>
    refine meets_nothing sound ⟨.single (.tidy ?_), trivial⟩
    exact ⟨rfl, rfl, rfl, rfl, rfl, Nat.le_refl _, Nat.le_refl _⟩

omit [Add K] [Sub K] [Neg K] [Mul K] [Div K] [LT K] [DecidableLT K] [LE K] [DecidableLE K]
  [Scalar K] [One K] in
theorem fits_fresh (config : Config K) : (Solver.withConfig config).tableau.Fits 1 := by
  have empty : (∅ : Tableau K).Indexed := by
    constructor
    · intro symbol basic
      constructor
      · exact nofun
      · rintro ⟨_, found, _⟩
        cases found
    · exact nofun
    · intro symbol _
      constructor
      · exact nofun
      · rintro ⟨_, isBasic⟩
        cases isBasic
    · intro symbol
      constructor
      · exact nofun
      · rintro ⟨_, column⟩
        cases column
    · exact nofun
  refine ⟨empty.addFreshRow rfl rfl nofun, ?_, ?_⟩
  · exact (Tableau.isBasic_addRow ..).mpr (Or.inl rfl)
  · intro symbol present
    rcases present with isBasic | column
    · rcases (Tableau.isBasic_addRow ..).mp isBasic with same | none
      · exact Or.inl same
      · cases none
    · rcases (Tableau.hasColumn_addRow ..).mp column with member | none
      · cases member
      · cases none

omit [Sub K] [Neg K] [Div K] [LT K] [DecidableLT K] [LE K] [DecidableLE K] in
theorem sound_fresh (config : Config K) (sink : Sink) :
    (start (.withConfig config) sink).Sound := by
  have books : (Solver.withConfig config).ledger.Sound := by
    constructor
    · intro key entry found
      cases found
    · intro left right leftEntry rightEntry found
      cases found
    · intro key _
      rfl
    · intro pair member
      cases member
    · intro unknown info found
      cases found
  refine ⟨⟨fits_fresh config, books⟩, ?_⟩
  intro key constraint found
  cases found

/-- The induction over a run: what holds at the start and is kept by every move of a sound solver
holds in every state that the run reaches. -/
theorem Runs.keeps {allowed : Session K → Call K → Outcome K (Session K) (Reply K) → Prop}
    (run : Runs allowed session)
    (external : ∀ current request outcome, allowed current request outcome → request.External)
    (holds : Solver K → Prop) (fresh : ∀ config, holds (.withConfig config))
    (kept : ∀ given before after, Solver.Move given before after → before.Sound → holds before →
      holds after) : session.Sound ∧ holds session.solver := by
  induction run with
  | fresh config sink => exact ⟨sound_fresh config sink, fresh config⟩
  | call _ allows returns ih =>
    obtain ⟨⟨given, reaches⟩, held⟩ :=
      ((perform_advances ih.1 (external _ _ _ allows)).imp (fun _ _ advances => advances)
        fun _ _ halts => halts.2).of_state? returns
    have finished := reaches.keeps holds (fun _ _ move => kept given _ _ move) ih.1.solver ih.2
    exact ⟨⟨finished.1, held⟩, finished.2⟩

theorem Runs.sound {allowed : Session K → Call K → Outcome K (Session K) (Reply K) → Prop}
    (run : Runs allowed session)
    (external : ∀ current request outcome, allowed current request outcome → request.External) :
    session.Sound :=
  (run.keeps external (fun _ => True) (fun _ => trivial) fun _ _ _ _ _ _ => trivial).1

theorem Reachable.sound (reachable : session.Reachable) : session.Sound :=
  Runs.sound reachable fun _ _ _ allowed => allowed

theorem Runs.mono {allowed wider : Session K → Call K → Outcome K (Session K) (Reply K) → Prop}
    (run : Runs allowed session)
    (weaker : ∀ current request outcome, allowed current request outcome →
      wider current request outcome) : Runs wider session := by
  induction run with
  | fresh config sink => exact .fresh config sink
  | call _ allows returns ih => exact .call ih (weaker _ _ _ allows) returns

section Replaying

variable {allowed : Session K → Call K → Outcome K (Session K) (Reply K) → Prop}

/-- Makes calls one after the other; a call that does not return leaves the session as it is. -/
def replay (limit : Nat) : List (Call K) → Session K → Session K
  | [], session => session
  | request :: rest, session =>
    replay limit rest ((perform request limit session).state?.getD session)

def Allows (allowed : Session K → Call K → Outcome K (Session K) (Reply K) → Prop) (limit : Nat) :
    List (Call K) → Session K → Prop
  | [], _ => True
  | request :: rest, session => allowed session request (perform request limit session) ∧
    Allows allowed limit rest ((perform request limit session).state?.getD session)

theorem Runs.replay (run : Runs allowed session) {requests : List (Call K)}
    (allows : Allows allowed limit requests session) :
    Runs allowed (session.replay limit requests) := by
  induction requests generalizing session with
  | nil => exact run
  | cons request rest ih =>
    refine ih ?_ allows.2
    cases returned : (perform request limit session).state? with
    | none => exact run
    | some next => exact .call run allows.1 returned

theorem state?_of_returns {request : Call K}
    (returns : (perform request limit session).state?.isSome = true) :
    (perform request limit session).state? = some (session.replay limit [request]) := by
  obtain ⟨next, isNext⟩ := Option.isSome_iff_exists.mp returns
  rw [replay, replay, isNext]
  rfl

end Replaying

end Session

end SoftSimplex
