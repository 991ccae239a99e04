import SoftSimplex.Proofs.Aiming
import SoftSimplex.Proofs.Registration

/-!
Preparing an edit session. While constraints, stays and edit variables are added, every stay and
every edit can be found again by its variable, and the values stay optimal.
-/

namespace SoftSimplex

variable {K : Type} [Field K] [LinearOrder K]

namespace Solver

variable {solver before after : Solver K} {constraint : Constraint K} {limit : Nat}

/-! Registering -/

section Registering

variable {placement : Placement K} {tableau : Tableau K} {nextId : Nat}
  (installs : before.Installs constraint placement tableau nextId after)

include installs

theorem Installs.stays_kept : before.stays ⊆ after.stays := by
  rw [installs.stays_eq]
  exact List.subset_append_left ..

theorem Installs.stays_new (soft : constraint.isRequired = false) {unknown : Variable}
    (isStay : constraint.kind = .stay unknown) :
    let entry : Installed K := ⟨constraint, (before.equationFor constraint).marker⟩
    (entry.marker, entry.error) ∈ after.stays := by
  have pair := ((before.entryFor constraint).stayPair?_eq_some_iff _).mpr
    ⟨show constraint.isStay = true by simp [Demand.isStay, isStay], soft, rfl⟩
  rw [installs.stays_eq, pair]
  exact List.mem_append_right _ (List.mem_singleton_self _)

theorem Registers.install (registers : before.Registers fun _ => none)
    (targeted : constraint.Targeted) : after.Registers fun _ => none := by
  refine ⟨?_, ?_, ?_⟩
  · intro key entry found
    rw [installs.get?_installed] at found
    split at found
    · cases found
      exact targeted
    · exact registers.targeted key entry found
  · intro key entry unknown found soft isStay
    rw [installs.get?_installed] at found
    split at found
    · cases found
      exact installs.stays_new soft isStay
    · exact installs.stays_kept (registers.stays key entry unknown found soft isStay)
  · intro key entry unknown found isEdit
    rw [installs.get?_installed] at found
    split at found
    · rename_i same
      cases found
      obtain ⟨info, registered, rfl, target⟩ := installs.registers isEdit
      exact ⟨info, registered, same, target⟩
    · obtain ⟨info, registered, sameKey, target⟩ := registers.edits key entry unknown found isEdit
      exact ⟨info, installs.edits_kept registered, sameKey, target⟩

end Registering

/-! Adding one by one -/

structure Ready (solver : Solver K) : Prop where
  sound : solver.Sound
  accounts : solver.Accounts
  settled : solver.config.autoSolve = true ∨ solver.needsSolving = false → solver.Settled
  registers : solver.Registers fun _ => none

variable [IsStrictOrderedRing K]

omit [IsStrictOrderedRing K] in
theorem ready_fresh {config : Config K} (sound : (withConfig config).Sound) :
    (withConfig config).Ready :=
  ⟨sound, accounts_fresh config, fun _ => settled_fresh config, nofun, nofun, nofun⟩

theorem Ready.idle (ready : before.Ready) (keepsShown : before.KeepsShown after) : after.Ready := by
  have builds : Builds (fun _ _ => False) before none after := .idle keepsShown
  obtain ⟨accounts, settled⟩ := ready.accounts.builds ready.sound ready.settled builds nofun
  exact ⟨keepsShown.toTidies.sound ready.sound, accounts, settled,
    ready.registers.of_same keepsShown.installed keepsShown.stays keepsShown.edits⟩

theorem Ready.add (ready : before.Ready) (weighs : 0 ≤ constraint.weight)
    (external : constraint.External) (older : constraint.key < before.nextKey)
    (targeted : constraint.Targeted) :
    (add constraint limit before).Meets (fun _ after => after.Ready) (fun _ _ => True) := by
  refine (add_meets ready.sound external older).imp ?_ fun _ _ _ => trivial
  rintro _ after ⟨placement, tableau, nextId, installed, installs, follows⟩
  have builds : Builds (fun _ _ => False) before none after :=
    .install weighs external older installs follows
  obtain ⟨accounts, settled⟩ := ready.accounts.builds ready.sound ready.settled builds nofun
  have tidies := follows.tidies
  have reaches : Reaches (fun _ => False) installed after := follows.reaches
  exact ⟨reaches.sound (installs.sound ready.sound external older), accounts, settled,
    (ready.registers.install installs targeted).of_same tidies.installed tidies.stays tidies.edits⟩

theorem Ready.addFresh (ready : before.Ready) {demand : Demand K} (weighs : 0 ≤ demand.weight)
    (external : demand.External) (targeted : demand.Targeted) :
    (Solver.add ⟨demand, before.nextKey⟩ limit before.withNextKey).Meets
      (fun _ after => after.Ready) (fun _ _ => True) :=
  (ready.idle (keepsShown_withNextKey before)).add weighs external (Nat.lt_succ_self _) targeted

theorem Ready.addStay (ready : before.Ready) (unknown : Variable) (strength : Strength) {weight : K}
    (nonneg : 0 ≤ weight) :
    (addStay unknown strength weight limit before).Meets
      (fun made after => after.Ready ∧ 0 ≤ made.weight ∧ made.Targeted) (fun _ _ => True) := by
  have targeted := Demand.targeted_stay unknown (before.value unknown) strength weight
  unfold Solver.addStay
  rw [Action.meets_bind, Action.meets_get, meets_addNew]
  exact (ready.addFresh nonneg (Demand.external_stay unknown _ strength weight) targeted).imp
    (fun _ _ kept => ⟨kept, nonneg, targeted⟩) fun _ _ _ => trivial

theorem Ready.addEdit (ready : before.Ready) (unknown : Variable) (strength : Strength) :
    (addEdit unknown strength limit before).Meets (fun _ after => after.Ready)
      (fun _ _ => True) := by
  rw [meets_addEdit unknown strength fun after => after.Ready]
  exact ready.addFresh zero_le_one (Demand.external_edit unknown _ strength)
    (Demand.targeted_edit unknown _ strength)

end Solver

/-- The calls that prepare an edit session. A variable is made before it is used, constraints are on
variables, and weights are not negative. -/
def Call.Prepares (session : Session K) : Call K → Prop
  | newVariable _ _ => session.solver.containsVariable ⟨session.solver.nextId⟩ = false
  | make demand => demand.External ∧ 0 ≤ demand.weight ∧ demand.Targeted
  | addStay _ _ weight => 0 ≤ weight
  | setStrength _ _ | add _ | addEdit _ _ => True
  | _ => False

theorem Call.Prepares.external {session : Session K} {request : Call K}
    (prepares : request.Prepares session) : request.External := by
  cases request with
  | make demand => exact prepares.1
  | _ => trivial

namespace Session

variable {session next : Session K} {limit : Nat} {request : Call K}

/-- The sessions to which everything asked for could be added. -/
def Prepared : Session K → Prop :=
  Runs fun session request outcome => request.Prepares session ∧ outcome.fault? = none

abbrev Aimable (session : Session K) : Prop :=
  session.HeldAll fun constraint => 0 ≤ constraint.weight ∧ constraint.Targeted

variable [IsStrictOrderedRing K]

theorem perform_prepares (sound : session.Sound) (aimable : session.Aimable)
    (ready : session.solver.Ready) (prepares : request.Prepares session) :
    (perform request limit session).Meets (fun _ next => next.Aimable ∧ next.solver.Ready)
      (fun _ _ => True) := by
  cases request with
  | newVariable name value =>
    exact ⟨aimable, ready.idle (Solver.keepsShown_newVariable prepares name value)⟩
  | make demand =>
    have made : (perform (.make demand) limit session).Meets (fun _ next => next.Aimable)
        (fun _ next => next.Aimable) := aimable.make prepares.2
    exact ⟨made, ready.idle (Solver.keepsShown_withNextKey session.solver)⟩
  | setStrength key strength =>
    exact (aimable.setStrength (fun _ _ => id) key strength).imp
      (fun _ _ met => ⟨met.2, met.1 ▸ ready⟩) fun _ _ _ => trivial
  | add key =>
    refine (meets_onHeld (fun after => after.Ready) (fun _ _ => True) (fun constraint found => ?_)
      fun _ => trivial).imp (fun _ _ met => ⟨aimable.of_held met.2, met.1⟩) fun _ _ _ => trivial
    have agrees := (sound.held key constraint found).2
    obtain ⟨nonneg, targeted⟩ := aimable key constraint found
    exact ready.add nonneg agrees.external agrees.older targeted
  | addStay unknown strength weight =>
    unfold perform holding
    dsimp only
    rw [Action.meets_bind]
    refine (meets_onSolver (ready.addStay unknown strength prepares)).imp ?_ fun _ _ _ => trivial
    rintro made reached ⟨⟨kept, also⟩, sameHeld⟩
    rw [Action.meets_bind, Action.meets_modify, Action.meets_pure]
    exact ⟨(aimable.of_held sameHeld).hold (List.forall_mem_singleton.mpr also), kept⟩
  | addEdit unknown strength =>
    exact (meets_silent (ready.addEdit unknown strength)).imp
      (fun _ _ met => ⟨aimable.of_held met.2, met.1⟩) fun _ _ _ => trivial
  | _ => cases prepares

theorem Prepared.ready (prepared : Prepared session) :
    session.Sound ∧ session.Aimable ∧ session.solver.Ready := by
  induction prepared with
  | fresh config sink =>
    have sound : (start (.withConfig config) sink).Sound := sound_fresh config sink
    exact ⟨sound, nofun, Solver.ready_fresh sound.solver⟩
  | @call session next request limit earlier allows returns ih =>
    obtain ⟨sound, aimable, ready⟩ := ih
    have nextSound := (Runs.call earlier allows returns).sound
      fun _ _ _ allowed => allowed.1.external
    have kept : (perform request limit session).Meets
        (fun _ next => next.Aimable ∧ next.solver.Ready) (fun _ _ => True) :=
      perform_prepares sound aimable ready allows.1
    obtain ⟨_, nextKept⟩ := kept.of_clean returns allows.2
    exact ⟨nextSound, nextKept⟩

end Session

end SoftSimplex
