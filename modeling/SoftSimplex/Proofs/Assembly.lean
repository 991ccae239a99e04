import SoftSimplex.Proofs.Building

/-!
Runs that put a set of constraints together: variables and constraints are made, and the constraints
are added and removed one by one. What every such call keeps holds along the run.
-/

namespace SoftSimplex

variable {K : Type} [Field K] [LinearOrder K] {freed : Solver K → Constraint K → Prop}

/-- The calls that put constraints together. A variable is made before it is used, constraints are
on variables alone, weights are not negative, and what is removed may go. -/
def Call.Assembles (freed : Solver K → Constraint K → Prop) (session : Session K) : Call K → Prop
  | newVariable _ _ => session.solver.containsVariable ⟨session.solver.nextId⟩ = false
  | make demand => demand.External ∧ 0 ≤ demand.weight
  | setStrength _ _ => True
  | add _ => True
  | remove key => ∀ constraint, session.held.get? key = some constraint →
    freed session.solver constraint
  | _ => False

theorem Call.Assembles.external {session : Session K} {request : Call K}
    (assembles : request.Assembles freed session) : request.External := by
  cases request with
  | make demand => exact assembles.1
  | _ => trivial

namespace Session

variable {session next : Session K} {limit : Nat} {permitted : Fault → Prop}

/-- The sessions that put constraints together and met permitted faults only. -/
def Assembled (freed : Solver K → Constraint K → Prop) (permitted : Fault → Prop) :
    Session K → Prop :=
  Runs fun session request outcome => request.Assembles freed session ∧
    ∀ fault, outcome.fault? = some fault → permitted fault

theorem Assembled.reachable (assembled : Assembled freed permitted session) : session.Reachable :=
  assembled.mono fun _ _ _ allowed => allowed.1.external

def HeldAll (property : Constraint K → Prop) (session : Session K) : Prop :=
  ∀ key constraint, session.held.get? key = some constraint → property constraint

section Holding

variable {property : Constraint K → Prop} (holds : session.HeldAll property)

include holds

omit [Field K] [LinearOrder K] in
theorem HeldAll.of_held (same : next.held = session.held) : next.HeldAll property := by
  unfold HeldAll
  rw [same]
  exact holds

omit [Field K] [LinearOrder K] in
theorem HeldAll.hold {made : List (Constraint K)}
    (also : ∀ constraint ∈ made, property constraint) :
    (hold made session).HeldAll property := by
  intro key constraint found
  rcases get?_held_hold made found with old | ⟨member, _⟩
  · exact holds key constraint old
  · exact also constraint member

theorem HeldAll.make {demand : Demand K} (also : property ⟨demand, session.solver.nextKey⟩) :
    (perform (.make demand) limit session).Meets (fun _ next => next.HeldAll property)
      (fun _ next => next.HeldAll property) := by
  have kept : ({ session with solver := session.solver.withNextKey } :
      Session K).HeldAll property := holds.of_held rfl
  exact kept.hold fun constraint member => by
    rw [List.mem_singleton.mp member]
    exact also

theorem HeldAll.setStrength
    (indifferent : ∀ constraint strength, property constraint →
      property (constraint.withStrength strength)) (key : Nat) (strength : Strength) :
    (perform (.setStrength key strength) limit session).Meets
      (fun _ next => next.solver = session.solver ∧ next.HeldAll property)
      (fun _ next => next.solver = session.solver ∧ next.HeldAll property) := by
  unfold perform withHeld
  dsimp only
  rw [Action.meets_bind, Action.meets_get]
  cases found : session.held.get? key with
  | none => exact ⟨rfl, holds⟩
  | some constraint =>
    refine ⟨rfl, holds.hold fun other member => ?_⟩
    rw [List.mem_singleton.mp member]
    exact indifferent constraint strength (holds key constraint found)

end Holding

abbrev Weighs (session : Session K) : Prop :=
  session.HeldAll fun constraint => 0 ≤ constraint.weight

theorem perform_builds (sound : session.Sound) (weighs : session.Weighs) {request : Call K}
    (assembles : request.Assembles freed session) :
    (perform request limit session).Meets
      (fun _ next => session.solver.Builds freed none next.solver ∧ next.Weighs)
      (fun fault next => session.solver.Builds freed (some fault) next.solver ∧ next.Weighs) := by
  cases request with
  | newVariable name value => exact ⟨.idle (Solver.keepsShown_newVariable assembles name value), weighs⟩
  | make demand =>
    have made : (perform (.make demand) limit session).Meets (fun _ next => next.Weighs)
        (fun _ next => next.Weighs) := weighs.make assembles.2
    exact ⟨.idle (Solver.keepsShown_withNextKey session.solver), made⟩
  | setStrength key strength =>
    refine (weighs.setStrength (fun _ _ => id) key strength).imp ?_ ?_
    · exact fun _ next met => ⟨met.1 ▸ .idle (.refl _), met.2⟩
    · exact fun _ next met => ⟨met.1 ▸ .idle (.refl _), met.2⟩
  | add key =>
    refine (meets_onHeld _ _ (fun constraint found => ?_) fun _ => .idle (.refl _)).imp
      (fun _ _ met => ⟨met.1, weighs.of_held met.2⟩) fun _ _ met => ⟨met.1, weighs.of_held met.2⟩
    have agrees := (sound.held key constraint found).2
    exact Solver.add_builds sound.solver (weighs key constraint found) agrees.external agrees.older
  | remove key =>
    refine (meets_onHeld _ _ (fun constraint found => ?_) fun _ => .idle (.refl _)).imp
      (fun _ _ met => ⟨met.1, weighs.of_held met.2⟩) fun _ _ met => ⟨met.1, weighs.of_held met.2⟩
    exact Solver.remove_builds sound.solver (assembles constraint found)
      (sound.held key constraint found).2.sameKind
  | _ => cases assembles

theorem Assembled.keeps (assembled : Assembled freed permitted session) (holds : Solver K → Prop)
    (fresh : ∀ config, holds (.withConfig config))
    (kept : ∀ fault before after, before.Sound → holds before →
      Solver.Builds freed before fault after → (∀ cause, fault = some cause → permitted cause) →
      holds after) : session.Sound ∧ session.Weighs ∧ holds session.solver := by
  induction assembled with
  | fresh config sink => exact ⟨sound_fresh config sink, nofun, fresh config⟩
  | @call session next request limit earlier allows returns ih =>
    obtain ⟨sound, weighs, held⟩ := ih
    obtain ⟨assembles, regular⟩ := allows
    have nextSound := (Runs.call earlier ⟨assembles, regular⟩ returns).sound
      fun _ _ _ allowed => allowed.1.external
    have builds : (perform request limit session).Meets
        (fun _ next => session.solver.Builds freed none next.solver ∧ next.Weighs)
        (fun fault next => session.solver.Builds freed (some fault) next.solver ∧ next.Weighs) :=
      perform_builds sound weighs assembles
    revert builds regular returns
    cases perform request limit session with
    | done value reached events =>
      rintro ⟨⟩ _ ⟨builds, weighs⟩
      exact ⟨nextSound, weighs, kept none _ _ sound.solver held builds nofun⟩
    | failed fault reached events =>
      rintro ⟨⟩ regular ⟨builds, weighs⟩
      refine ⟨nextSound, weighs, kept (some fault) _ _ sound.solver held builds ?_⟩
      exact fun cause same => regular cause same
    | unfinished => exact nofun

theorem Assembled.feasible [IsStrictOrderedRing K] (assembled : Assembled freed permitted session)
    (unentangled : ∀ (solver : Solver K) constraint entry, freed solver constraint →
      solver.installed.get? constraint.key = some entry →
      (solver.withdraw constraint).tableau.Unentangled entry.marker) :
    (∃ offsets, session.solver.Encodes offsets) ∧ session.solver.tableau.Feasible := by
  have kept := assembled.keeps
    (fun solver => (∃ offsets, solver.Encodes offsets) ∧ solver.tableau.Feasible) ?_ ?_
  · exact kept.2.2
  · exact fun config => ⟨⟨_, Solver.encodes_fresh config⟩, Solver.feasible_fresh config⟩
  · rintro fault before after sound ⟨⟨offsets, encodes⟩, feasible⟩ builds _
    obtain ⟨given, reaches⟩ := builds.reaches
    refine ⟨?_, builds.feasible sound encodes feasible (unentangled before)⟩
    exact (reaches.keeps (fun solver => ∃ offsets, solver.Encodes offsets)
      (fun _ _ move moveSound => Solver.Encodes.move move moveSound) sound ⟨offsets, encodes⟩).2

end Session

end SoftSimplex
