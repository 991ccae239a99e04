import SoftSimplex.Proofs.Declining
import SoftSimplex.Proofs.Steering

/-!
What does not ask to be solved. Every change of the constraints asks for it; while nothing does, the
costs are least, and the published values are those of the tableau unless a suggestion waits to be
resolved. A resolution repairs rows but lowers no cost, so that it keeps this only where nothing
asks to be solved already.
-/

namespace SoftSimplex

namespace Action

variable {K σ α β : Type} {holds : σ → Prop}

def PreservesUnlessDefect (holds : σ → Prop) (action : Action K σ α) : Prop :=
  ∀ limit state, holds state → (action limit state).Meets (fun _ after => holds after)
    fun fault after => fault.isInternal = false → holds after

theorem Keeps.preserves {action : Action K σ α} (kept : action.Keeps holds) :
    action.PreservesUnlessDefect holds :=
  fun limit state held => (kept limit state held).imp (fun _ _ after => after) fun _ _ after _ => after

theorem preserves_bind {first : Action K σ α} {next : α → Action K σ β}
    (upheld : first.PreservesUnlessDefect holds)
    (continued : ∀ value, (next value).PreservesUnlessDefect holds) :
      (first >>= next).PreservesUnlessDefect holds :=
  fun limit state held => (meets_bind _ _ _).mpr
    ((upheld limit state held).imp (fun value reached => continued value limit reached)
      fun _ _ reached => reached)

theorem compositional_preserves {ω : Type} (sees : σ → ω) (holds : σ → Prop) :
    Compositional sees fun α => PreservesUnlessDefect (K := K) (α := α) holds where
  pure value := (keeps_pure value).preserves
  fail fault _ := (keeps_fail fault).preserves
  read _ continued := preserves_bind keeps_get.preserves continued
  bind := preserves_bind
  mapFault change wraps upheld := fun limit state held => (meets_mapFault _ _ _).mpr
    ((upheld limit state held).imp (fun _ _ after => after) fun fault _ kept expected => by
      rw [wraps.expected expected] at expected
      exact kept expected)

end Action

variable {K : Type} [Field K] [LinearOrder K]

namespace Tableau

variable {before after : Tableau K} {objective : Symbol}

theorem Repairs.dualFeasible [IsStrictOrderedRing K] (repairs : before.Repairs objective after)
    (isObjective : objective.kind = .objective) (indexed : before.Indexed)
    (dual : before.DualFeasible objective) : after.DualFeasible objective := by
  cases repairs with
  | drop _ _ => exact dual
  | pivot _ found _ chosen pivots _ =>
    exact pivots.dualFeasible (indexed_dequeued indexed) isObjective found chosen dual

theorem dualFeasible_of_repairs [IsStrictOrderedRing K]
    (repaired : Relation.ReflTransGen (Repairs objective) before after)
    (isObjective : objective.kind = .objective) (indexed : before.Indexed)
    (dual : before.DualFeasible objective) : after.Indexed ∧ after.DualFeasible objective := by
  induction repaired with
  | refl => exact ⟨indexed, dual⟩
  | tail _ repairs ih => exact ⟨repairs.indexed ih.1, repairs.dualFeasible isObjective ih.1 ih.2⟩

end Tableau

namespace Solver

open SoftSimplex.Action

variable {before after solver : Solver K} {waits : Prop} {origin : Table Nat (Installed K)}
  {constraint : Constraint K} {entry : Installed K} {limit : Nat}

omit [LinearOrder K] in
theorem IssuesIds.keepsShown (issuesIds : before.IssuesIds after) : before.KeepsShown after := by
  obtain ⟨nextId, nextKey, idGrows, keyGrows, rfl⟩ := issuesIds
  exact { KeepsShown.refl before with nextId := idGrows, nextKey := keyGrows }

/-- What holds while nothing asks to be solved. With automatic solving a change of what was
installed has published the suggestion that waited. -/
structure UpToDate (waits : Prop) (origin : Table Nat (Installed K)) (solver : Solver K) : Prop where
  sound : solver.Sound
  least : solver.needsSolving = false → solver.tableau.DualFeasible .mainObjective
  published : solver.needsSolving = false → solver.Published ∨
    waits ∧ (solver.config.autoSolve = true → solver.installed = origin)

theorem UpToDate.idle (upToDate : before.UpToDate waits origin) (keepsShown : before.KeepsShown after) :
    after.UpToDate waits origin := by
  refine ⟨keepsShown.toTidies.sound upToDate.sound, ?_, ?_⟩
  · rw [keepsShown.needsSolving, keepsShown.tableau]
    exact upToDate.least
  · rw [keepsShown.needsSolving, keepsShown.config, keepsShown.installed]
    exact fun solved => (upToDate.published solved).imp_left (·.idle keepsShown)

theorem UpToDate.unexcused {other : Table Nat (Installed K)} (upToDate : solver.UpToDate False origin) :
    solver.UpToDate False other :=
  ⟨upToDate.sound, upToDate.least, fun solved => (upToDate.published solved).imp_right (·.1.elim)⟩

theorem upToDate_of_asks (sound : solver.Sound) (asks : solver.needsSolving = true) :
    solver.UpToDate waits origin := by
  refine ⟨sound, ?_, ?_⟩ <;>
    · intro solved
      rw [asks] at solved
      cases solved

theorem Publishes.upToDate (publishes : before.Publishes after) (sound : before.Sound) :
    after.UpToDate waits origin ∧ after.needsSolving = false := by
  have reaches : Reaches (fun _ => False) before after := publishes.reaches
  obtain ⟨least, tableau, minimized, rfl⟩ := publishes
  have indexed := Tableau.indexed_of_improvements minimized.improved sound.fits.indexed
  refine ⟨⟨reaches.sound sound, fun _ => ?_, fun _ => Or.inl (published_publishValues indexed)⟩, rfl⟩
  rw [(tidies_publishValues _).tableau]
  intro costs found
  have same : least = costs := Option.some.inj (minimized.row.symm.trans found)
  exact same ▸ Tableau.settled_nonneg minimized.settled

theorem Follows.upToDate (follows : before.Follows after) (sound : before.Sound)
    (asks : before.needsSolving = true) : after.UpToDate waits origin := by
  unfold Follows at follows
  split at follows
  · exact (Publishes.upToDate follows sound).1
  · rw [follows]
    exact upToDate_of_asks sound asks

/-! Changes of the constraints -/

theorem add_upToDate (upToDate : before.UpToDate waits origin) (external : constraint.External)
    (older : constraint.key < before.nextKey) :
    (add constraint limit before).Meets (fun _ after => after.UpToDate waits origin)
      fun fault after => fault.isInternal = false → after.UpToDate waits origin := by
  have grows := before.equationFor_nextId constraint
  refine (add_meets upToDate.sound external older).imp ?_ ?_
  · rintro _ after ⟨_, _, _, installed, installs, follows⟩
    refine follows.upToDate (installs.sound upToDate.sound external older) ?_
    rw [installs.result]
    exact needsSolving_record ..
  · intro fault after fails expected
    cases fails with
    | objected _ => exact upToDate
    | contradicted _ _ => exact upToDate.idle (keepsShown_nextId (Nat.le_of_lt grows))
    | refused _ _ _ => exact upToDate.idle (keepsShown_nextId (by omega))
    | unbounded _ _ _ => cases expected

theorem tryAdd_upToDate (upToDate : before.UpToDate waits origin) (external : constraint.External)
    (older : constraint.key < before.nextKey) :
    (tryAdd constraint limit before).Meets (fun _ after => after.UpToDate waits origin)
      fun fault after => fault.isInternal = false → after.UpToDate waits origin := by
  refine (meets_bind _ _ _).mpr ((meets_attempt _ _).mpr
    ((add_upToDate upToDate external older).imp (fun _ _ kept => kept) ?_))
  intro fault after kept
  cases fault with
  | requiredFailure => exact kept rfl
  | _ => exact kept

theorem remove_upToDate (upToDate : before.UpToDate waits origin)
    (sameKind : ∀ entry, before.installed.get? constraint.key = some entry →
      entry.constraint.kind = constraint.kind) :
    (remove constraint limit before).Meets (fun _ after => after.UpToDate waits origin)
      fun fault after => fault.isInternal = false → after.UpToDate waits origin := by
  refine (remove_meets upToDate.sound sameKind).imp ?_ ?_
  · rintro _ after ⟨entry, dropped, removed, uninstalls, follows⟩
    refine follows.upToDate (uninstalls.sound upToDate.sound (sameKind entry uninstalls.found)) ?_
    obtain ⟨_, _, _, writes⟩ :=
      ((before.withdraw constraint).setTableau dropped).clearAway_writes constraint entry.marker _
    rw [uninstalls.result, writes]
    rfl
  · intro fault after fails expected
    cases fails with
    | missing _ => exact upToDate
    | unbounded _ _ _ => cases expected

theorem addNew_preserves {demand : Demand K} (external : demand.External) :
    (addNew demand).PreservesUnlessDefect (UpToDate waits origin) := by
  intro limit before upToDate
  rw [meets_addNew]
  exact add_upToDate (upToDate.idle before.keepsShown_withNextKey) external (Nat.lt_succ_self _)

theorem addBounds_preserves (unknown : Variable) (lower upper : K) :
    (addBounds unknown lower upper).PreservesUnlessDefect (UpToDate waits origin) := by
  have below := Demand.external_lowerBound unknown lower .required
  have above := Demand.external_upperBound unknown upper .required
  exact (compositional_preserves outlook _).closed
    (addBoundsScript (.part (addNew_preserves below)) (.part (addNew_preserves above)))

theorem addStay_preserves (unknown : Variable) (strength : Strength) (weight : K) :
    (addStay unknown strength weight).PreservesUnlessDefect (UpToDate waits origin) :=
  (compositional_preserves outlook _).closed (addStayScript fun value =>
    .part (addNew_preserves (Demand.external_stay unknown value strength weight)))

theorem addPointStay_preserves (horizontal vertical : Variable) (weight : K) :
    (addPointStay horizontal vertical weight).PreservesUnlessDefect (UpToDate waits origin) :=
  (compositional_preserves outlook _).closed
    (addPointStayScript _ _ fun _ => .part (addStay_preserves _ _ _))

theorem addPointStaysFrom_preserves (weight : K) (points : List (Variable × Variable)) :
    (addPointStaysFrom weight points).PreservesUnlessDefect (UpToDate waits origin) :=
  (compositional_preserves outlook _).closed
    (addPointStaysFromScript (fun _ _ => .part (addStay_preserves _ _ _)) weight points)

theorem addVariable_preserves (unknown : Variable) :
    (addVariable unknown : Action K (Solver K) Unit).PreservesUnlessDefect (UpToDate waits origin) :=
  (compositional_preserves outlook _).closed
    (addVariableScript (.part (addStay_preserves unknown .weak 1)))

theorem addEdit_preserves (unknown : Variable) (strength : Strength) :
    (addEdit unknown strength : Action K (Solver K) Unit).PreservesUnlessDefect
      (UpToDate waits origin) := by
  intro limit before upToDate
  rw [meets_addEdit unknown strength fun after => after.UpToDate waits origin]
  have reserved := upToDate.idle before.keepsShown_withNextKey
  have external := Demand.external_edit unknown (before.value unknown) strength
  refine (add_upToDate reserved external (Nat.lt_succ_self _)).imp (fun _ _ kept => kept) ?_
  exact fun _ _ kept expected => kept (Fault.regular_of_replacing expected)

theorem addDefaultEdit_preserves (unknown : Variable) :
    (addDefaultEdit unknown : Action K (Solver K) Unit).PreservesUnlessDefect (UpToDate waits origin) :=
  (compositional_preserves outlook _).closed
    (addDefaultEditScript fun strength => .part (addEdit_preserves unknown strength))

theorem removeEdit_preserves (unknown : Variable) :
    (removeEdit unknown : Action K (Solver K) Unit).PreservesUnlessDefect (UpToDate waits origin) := by
  intro limit before upToDate
  refine (meets_removeEdit unknown).mpr ?_
  cases registered : before.edits.get? unknown with
  | none => exact fun _ => upToDate
  | some info => exact remove_upToDate upToDate (upToDate.sound.edit_kind registered)

theorem trimEdits_preserves (count : Nat) :
    (trimEdits count : Action K (Solver K) Unit).PreservesUnlessDefect (UpToDate waits origin) := by
  refine (compositional_preserves outlook _).closed (trimEditsScript ?_ ?_)
  · exact fun unknown => .part (removeEdit_preserves unknown)
  · exact fun _ => .part (keeps_report _).preserves

theorem solve_preserves :
    (solve : Action K (Solver K) Unit).PreservesUnlessDefect (UpToDate waits origin) := by
  intro limit before upToDate
  refine (solve_meets upToDate.sound.fits).imp ?_ ?_
  · intro _ after solved
    split at solved
    · exact (Publishes.upToDate solved upToDate.sound).1
    · exact solved ▸ upToDate
  · rintro _ _ ⟨rfl, _⟩ expected
    cases expected

/-! The edit protocol -/

theorem UpToDate.settled (upToDate : before.UpToDate waits origin) :
    before.settled.UpToDate waits origin := by
  have reaches : Reaches (fun _ => False) before before.settled := settle_reaches before
  exact ⟨reaches.sound upToDate.sound, fun solved =>
    (upToDate.least solved).shift before.shifts_settled,
    fun solved => (upToDate.published solved).imp_left (·.settled upToDate.sound)⟩

theorem UpToDate.depths (upToDate : before.UpToDate waits origin) (depths : List Nat) :
    ({ before with depths } : Solver K).UpToDate waits origin :=
  ⟨(tidies_depths before depths).sound upToDate.sound, upToDate.least, upToDate.published⟩

theorem beginEdit_preserves :
    (beginEdit : Action K (Solver K) Unit).PreservesUnlessDefect (UpToDate waits origin) :=
  (keeps_beginEdit fun _ upToDate => upToDate.settled.depths _).preserves

theorem UpToDate.retargeted (upToDate : before.UpToDate waits origin) {unknown : Variable}
    {info : EditInfo K} (registered : before.edits.get? unknown = some info) (target : K) :
    (before.retargeted unknown info target).UpToDate True before.installed := by
  obtain ⟨_, _, retargets⟩ := retargets_retargeted upToDate.sound registered target
  exact ⟨retargeted_sound upToDate.sound registered target,
    fun solved => (upToDate.least solved).retarget retargets, fun _ => Or.inr ⟨trivial, fun _ => rfl⟩⟩

theorem suggest_upToDate (upToDate : before.UpToDate waits before.installed) (unknown : Variable)
    (target : K) :
    (suggest unknown target limit before).Meets (fun _ after => after.UpToDate True after.installed)
      fun _ after => after.UpToDate True after.installed := by
  rw [meets_suggest]
  cases registered : before.edits.get? unknown with
  | none => exact ⟨upToDate.sound, upToDate.least, fun _ => Or.inr ⟨trivial, fun _ => rfl⟩⟩
  | some info => exact upToDate.retargeted registered target

/-- Nothing asks to be solved and the costs are least, as a resolution needs it. -/
structure ReadyToResolve (solver : Solver K) : Prop where
  upToDate : solver.UpToDate True solver.installed
  solved : solver.needsSolving = false

theorem UpToDate.ready (upToDate : before.UpToDate waits origin)
    (solved : before.needsSolving = false) :
    before.ReadyToResolve :=
  ⟨⟨upToDate.sound, upToDate.least, fun _ => Or.inr ⟨trivial, fun _ => rfl⟩⟩, solved⟩

theorem suggest_ready (unknown : Variable) (target : K) :
    (suggest unknown target).Keeps (ReadyToResolve (K := K)) := by
  intro limit before ready
  rw [meets_suggest]
  cases registered : before.edits.get? unknown with
  | none => exact ready
  | some info => exact (ready.upToDate.retargeted registered target).ready ready.solved

theorem beginEdit_ready : (beginEdit : Action K (Solver K) Unit).Keeps ReadyToResolve :=
  keeps_beginEdit fun _ ready => (ready.upToDate.settled.depths _).ready ready.solved

variable [IsStrictOrderedRing K]

theorem ReadyToResolve.resolve (ready : before.ReadyToResolve) :
    (resolve limit before).Meets (fun _ after => after.UpToDate False origin) fun _ _ => True := by
  rw [meets_resolve]
  refine (Tableau.repair_meets ready.upToDate.sound.fits.indexed).imp ?_ fun _ _ _ => trivial
  rintro _ tableau ⟨repaired, _⟩
  obtain ⟨indexed, dual⟩ :=
    Tableau.dualFeasible_of_repairs repaired rfl ready.upToDate.sound.fits.indexed
    (ready.upToDate.least ready.solved)
  have reaches : Reaches (fun _ => False) before (before.setTableau tableau).publishValues :=
    (reaches_of_repairs repaired ready.upToDate.sound.fits.indexed).tail
      (.tidy (tidies_publishValues _))
  have upToDate : (before.setTableau tableau).publishValues.UpToDate False origin := by
    refine ⟨reaches.sound ready.upToDate.sound, fun _ => ?_,
      fun _ => Or.inl (published_publishValues indexed)⟩
    rw [(tidies_publishValues _).tableau]
    exact dual
  exact upToDate.settled

theorem ReadyToResolve.resolveAt (ready : before.ReadyToResolve) (targets : List K) :
    (resolveAt targets limit before).Meets (fun _ after => after.UpToDate False origin)
      fun _ _ => True := by
  have asks : ∀ suggestions : List (Variable × K), (forEach (fun suggestion =>
      suggest suggestion.1 suggestion.2) suggestions : Action K (Solver K) Unit).Keeps ReadyToResolve :=
    keeps_forEach fun suggestion => suggest_ready suggestion.1 suggestion.2
  refine (meets_bind _ _ _).mpr ((meets_bind _ _ _).mpr ?_)
  exact (asks _ limit before ready).imp (fun _ _ asked => asked.resolve) fun _ _ _ => trivial

theorem ReadyToResolve.endEdit (ready : before.ReadyToResolve) :
    (endEdit limit before).Meets (fun _ after => after.UpToDate False origin) fun _ _ => True := by
  rw [meets_endEdit]
  split
  · trivial
  split
  · trivial
  have resolves : (Solver.resolve limit before).Meets
      (fun _ resolved => resolved.UpToDate False origin) fun _ _ => True := ready.resolve
  refine resolves.imp ?_ fun _ _ _ => trivial
  intro _ resolved upToDate
  exact ((trimEdits_preserves _) limit _ (upToDate.depths resolved.depths.tail)).imp
    (fun _ _ kept => kept) fun _ _ _ => trivial

omit [IsStrictOrderedRing K] in
theorem addEdit_ready (sound : before.Sound) (autoSolve : before.config.autoSolve = true)
    (unknown : Variable) (strength : Strength) :
    (addEdit unknown strength limit before).Meets (fun _ after => after.ReadyToResolve) fun _ _ =>
      True := by
  refine (meets_addEdit unknown strength (fun after => after.ReadyToResolve) _).mpr ?_
  have reserved := before.tidies_withNextKey.sound sound
  have external := Demand.external_edit unknown (before.value unknown) strength
  have older : before.nextKey < before.withNextKey.nextKey := Nat.lt_succ_self _
  refine (add_meets reserved external older).imp ?_ fun _ _ _ => trivial
  rintro _ after ⟨_, _, _, installed, installs, follows⟩
  have solves : installed.config.autoSolve = true := by
    rw [installs.result, config_record]
    exact autoSolve
  rw [Follows, if_pos solves] at follows
  have published : after.UpToDate False after.installed ∧ after.needsSolving = false :=
    Publishes.upToDate follows (installs.sound reserved external older)
  exact published.1.ready published.2

theorem setEditedValue_upToDate (sound : before.Sound) (autoSolve : before.config.autoSolve = true)
    {unknown : Variable} (contained : before.containsVariable unknown = true) {target : K}
    (moves : target ≠ before.value unknown) :
    (setEditedValue unknown target limit before).Meets (fun _ after => after.UpToDate False origin)
      fun _ _ => True := by
  rw [meets_setEditedValue, if_neg (by rw [contained]; exact Bool.false_ne_true),
    if_neg (by simpa [Scalar.close])]
  refine (addEdit_ready sound autoSolve unknown _).imp ?_ fun _ _ _ => trivial
  intro _ added ready
  refine (beginEdit_ready limit added ready).imp ?_ fun _ _ _ => trivial
  intro _ begun ready
  refine (suggest_ready unknown target limit begun ready).imp ?_ fun _ _ _ => trivial
  exact fun _ suggested ready => ready.endEdit

end Solver

end SoftSimplex
