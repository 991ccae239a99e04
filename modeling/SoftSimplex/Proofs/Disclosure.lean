import SoftSimplex.Proofs.Chronicle
import SoftSimplex.Proofs.Publication
import SoftSimplex.Proofs.Serving
import SoftSimplex.Proofs.Updates
import SoftSimplex.Proofs.Warnings

/-!
What is published, and when. The lists of external symbols are exact whenever values are published,
so a variable with a row gets its constant, one with a column gets zero and no other changes; nothing
is ever both parametric and basic, so nobody is warned of it. Between publications the values stay,
but for a variable outside the tableau that is set directly.
-/

namespace SoftSimplex

variable {K α β : Type}

namespace Tableau

structure Listed (tableau : Tableau K) : Prop where
  basic : ∀ symbol, tableau.ListsBasic symbol
  parametric : ∀ symbol, tableau.ListsParametric symbol
  apart : ∀ symbol ∈ tableau.basicExternals.keys, symbol ∉ tableau.parametricExternals.keys

theorem IndexedBut.listed {tableau : Tableau K} (indexed : tableau.Indexed) : tableau.Listed := by
  refine ⟨fun symbol => indexed.listsBasic symbol id, indexed.listsParametric, ?_⟩
  intro symbol isListed alsoListed
  have isBasic := ((indexed.listsBasic symbol id).mp isListed).2
  have column := ((indexed.listsParametric symbol).mp alsoListed).2
  rw [indexed.parametric symbol isBasic] at column
  cases column

end Tableau

/-- Nobody is warned that a parametric variable is basic. -/
def NoParametricBasic (told : List Diagnostic) : Prop := ∀ unknown, .parametricIsBasic unknown ∉ told

theorem noParametricBasic_nil : NoParametricBasic [] := nofun

theorem NoParametricBasic.append {earlier later : List Diagnostic} (first : NoParametricBasic earlier)
    (second : NoParametricBasic later) : NoParametricBasic (earlier ++ later) :=
  fun unknown member => (List.mem_append.mp member).elim (first unknown) (second unknown)

namespace Solver

/-! Publications -/

section Publishing

variable [Zero K] {before after : Solver K} {limit : Nat}

/-- A publication by exact lists: it reports nothing, it sets the variables of the tableau, and it
leaves all others alone. -/
structure Discloses (before after : Solver K) : Prop where
  listed : before.tableau.Listed
  silent : ∀ limit, publish limit before = .done () after []
  basic : ∀ unknown row, before.tableau.row? unknown.symbol = some row →
    after.value unknown = row.constant
  parametric : ∀ unknown, before.tableau.hasColumn unknown.symbol = true → after.value unknown = 0
  others : ∀ unknown, before.containsVariable unknown = false →
    after.unknowns.get? unknown = before.unknowns.get? unknown

theorem publish_eq (indexed : before.tableau.Indexed) :
    publish limit before = .done () before.publishValues [] := by
  have unconfused : before.tableau.parametricExternals.keys.filter before.tableau.isBasic = [] := by
    refine List.filter_eq_nil_iff.mpr fun symbol isListed isBasic => ?_
    have column := ((indexed.listsParametric symbol).mp isListed).2
    rw [indexed.parametric symbol isBasic] at column
    cases column
  unfold publish
  rw [Action.get_bind, Action.report_bind, unconfused]
  rfl

theorem discloses_publishValues (indexed : before.tableau.Indexed) :
    before.Discloses before.publishValues where
  listed := indexed.listed
  silent _ := publish_eq indexed
  basic _ _ found := value_publishValues_of_row indexed found
  parametric _ column := value_publishValues_of_column indexed column
  others _ missing := get?_publishValues_of_missing indexed missing

end Publishing

end Solver

/-- A publication discloses the tableau that it is made from. A variable is only set directly while
it is outside the tableau. -/
def Update.Faithful [Zero K] : Update K → Prop
  | publish solver => solver.Discloses solver.publishValues
  | assign solver unknown _ => solver.containsVariable unknown = false
  | create _ _ _ => True

namespace Solver

open SoftSimplex.Action

variable [Zero K] [One K] [Add K] [Mul K] [Scalar K] {before middle after : Solver K} {limit : Nat}
  {constraint : Constraint K} {updates : List (Update K)}

/-- The updates lead from the values of the one solver to those of the other, a sound one, and
nobody has been warned that a parametric variable is basic. -/
structure Shows (updates : List (Update K)) (before after : Solver K) (told : List Diagnostic) :
    Prop where
  sound : after.Sound
  leads : Update.Leads updates before.unknowns after.unknowns
  unwarned : NoParametricBasic told

/-- The updates are faithful, and however the computation ends, they are all that it does to the
values. -/
def AccountsFor (updates : List (Update K)) (action : Action K (Solver K) α) (limit : Nat)
    (before : Solver K) : Prop :=
  (∀ update ∈ updates, update.Faithful) ∧ (action limit before).Tells
    (fun _ after told => Shows updates before after told)
    (fun _ after told => Shows updates before after told)

section Combining

theorem accounts_silent {action : Action K (Solver K) α}
    (tells : (action limit before).Tells
      (fun _ after told => after.Sound ∧ after.unknowns = before.unknowns ∧ NoParametricBasic told)
      (fun _ after told => after.Sound ∧ after.unknowns = before.unknowns ∧ NoParametricBasic told)) :
    AccountsFor [] action limit before :=
  ⟨nofun, tells.imp (fun _ _ _ met => ⟨met.1, met.2.1, met.2.2⟩)
    fun _ _ _ met => ⟨met.1, met.2.1, met.2.2⟩⟩

theorem accounts_idle {action : Action K (Solver K) α} (quiet : action.Quiet)
    (meets : (action limit before).Meets
      (fun _ after => after.Sound ∧ after.unknowns = before.unknowns)
      (fun _ after => after.Sound ∧ after.unknowns = before.unknowns)) :
    AccountsFor [] action limit before := by
  refine accounts_silent ((quiet.tells meets).imp ?_ ?_) <;>
  · rintro _ after told ⟨rfl, sound, same⟩
    exact ⟨sound, same, noParametricBasic_nil⟩

theorem accounts_pure (sound : before.Sound) (value : α) :
    AccountsFor [] (Pure.pure value) limit before :=
  accounts_silent ⟨sound, rfl, noParametricBasic_nil⟩

theorem accounts_fail (sound : before.Sound) (fault : Fault) :
    AccountsFor [] (fail fault : Action K (Solver K) α) limit before :=
  accounts_silent ⟨sound, rfl, noParametricBasic_nil⟩

theorem accounts_modify {change : Solver K → Solver K} (sound : (change before).Sound)
    (same : (change before).unknowns = before.unknowns) :
    AccountsFor [] (modify change) limit before := accounts_silent ⟨sound, same, noParametricBasic_nil⟩

theorem accounts_get {next : Solver K → Action K (Solver K) α}
    (continued : AccountsFor updates (next before) limit before) :
    AccountsFor updates (Action.get >>= next) limit before :=
  ⟨continued.1, (tells_get_bind _ _).mpr continued.2⟩

theorem accounts_mapFault {action : Action K (Solver K) α} (change : Fault → Fault)
    (accounts : AccountsFor updates action limit before) :
    AccountsFor updates (action.mapFault change) limit before :=
  ⟨accounts.1, (tells_mapFault _ _ _).mpr accounts.2⟩

theorem accounts_reserve {demand : Demand K} {next : Constraint K → Action K (Solver K) α}
    (continued : AccountsFor updates (next ⟨demand, before.nextKey⟩) limit before.withNextKey) :
    AccountsFor updates (freshConstraint demand >>= next) limit before := by
  unfold AccountsFor
  rw [freshConstraint_bind]
  have same : ∀ after told, Shows updates before.withNextKey after told →
      Shows updates before after told := fun _ _ shows => ⟨shows.sound, shows.leads, shows.unwarned⟩
  exact ⟨continued.1, continued.2.imp (fun _ => same) fun _ => same⟩

theorem accounts_return {first : Action K (Solver K) α} (result : α → β)
    (accounts : AccountsFor updates first limit before) :
    AccountsFor updates (first >>= fun value => Pure.pure (result value)) limit before := by
  refine ⟨accounts.1, (tells_bind _ _ _).mpr (accounts.2.imp ?_ fun _ _ _ shows => shows)⟩
  intro _ after told shows
  have kept : Shows updates before after (told ++ warnings ([] : List (Event K))) := by
    rwa [warnings_nil, List.append_nil]
  exact kept

theorem accounts_bind {first : Action K (Solver K) α} {next : α → Action K (Solver K) β}
    {later : α → Solver K → List (Update K)} (accounts : AccountsFor updates first limit before)
    (continued : ∀ value middle, middle.Sound → AccountsFor (later value middle)
      (next value) limit middle) :
    AccountsFor (updates ++ (first limit before).onDone later) (first >>= next) limit before := by
  obtain ⟨faithful, tells⟩ := accounts
  unfold AccountsFor
  rw [tells_bind]
  revert tells
  cases first limit before with
  | done value middle events =>
    intro shows
    obtain ⟨laterFaithful, ends⟩ := continued value middle shows.sound
    have joined : ∀ after told, Shows (later value middle) middle after told →
        Shows (updates ++ later value middle) before after (warnings events ++ told) :=
      fun after told met =>
        ⟨met.sound, shows.leads.append met.leads, shows.unwarned.append met.unwarned⟩
    have whole : (next value limit middle).Tells
        (fun _ after told => Shows (updates ++ later value middle) before after
          (warnings events ++ told))
        (fun _ after told => Shows (updates ++ later value middle) before after
          (warnings events ++ told)) :=
      ends.imp (fun _ => joined) fun _ => joined
    exact ⟨List.forall_mem_append.mpr ⟨faithful, laterFaithful⟩, whole⟩
  | failed fault after events =>
    intro shows
    rw [Outcome.onDone, List.append_nil]
    exact ⟨faithful, shows⟩
  | unfinished =>
    intro _
    rw [Outcome.onDone, List.append_nil]
    exact ⟨faithful, trivial⟩

theorem accounts_bind_silent {first : Action K (Solver K) α} {next : α → Action K (Solver K) β}
    {later : α → Solver K → List (Update K)} (accounts : AccountsFor [] first limit before)
    (continued : ∀ value middle, middle.Sound →
      AccountsFor (later value middle) (next value) limit middle) :
    AccountsFor ((first limit before).onDone later) (first >>= next) limit before :=
  accounts_bind accounts continued

end Combining

/-! Single operations -/

theorem accounts_publish (sound : before.Sound) :
    AccountsFor [.publish before] publish limit before := by
  have discloses := discloses_publishValues sound.fits.indexed
  refine ⟨List.forall_mem_singleton.mpr discloses, ?_⟩
  rw [publish_eq sound.fits.indexed]
  exact ⟨(tidies_publishValues before).sound sound, ⟨rfl, rfl⟩, noParametricBasic_nil⟩

theorem accounts_report (sound : before.Sound) {event : Event K}
    (harmless : ∀ unknown, event.diagnostic? ≠ some (.parametricIsBasic unknown)) :
    AccountsFor [] (report [event]) limit before := by
  refine accounts_silent ⟨sound, rfl, fun unknown told => ?_⟩
  obtain ⟨other, member, same⟩ := List.mem_filterMap.mp told
  rw [List.mem_singleton.mp member] at same
  exact harmless unknown same

variable [Neg K] [Div K] [LT K] [DecidableLT K]

section Values

theorem Installs.unknowns {placement : Placement K} {tableau : Tableau K} {nextId : Nat}
    (installs : before.Installs constraint placement tableau nextId after) :
    after.unknowns = before.unknowns := by
  obtain ⟨_, _, _, _, writes⟩ := record_writes
    ({ before with tableau, nextId } : Solver K) constraint (before.equationFor constraint)
  rw [installs.result, writes]

theorem Uninstalls.unknowns {entry : Installed K} {dropped : Tableau K}
    (uninstalls : before.Uninstalls constraint entry dropped after) :
    after.unknowns = before.unknowns := by
  obtain ⟨_, _, _, writes⟩ := ((before.withdraw constraint).setTableau dropped).clearAway_writes
    constraint entry.marker (before.charges.get? constraint.key)
  rw [uninstalls.result, writes]
  rfl

end Values

variable [Sub K] (sound : before.Sound)

include sound

theorem accounts_optimize : AccountsFor (optimizeUpdates limit before) optimize limit before := by
  refine accounts_bind_silent ?_ fun _ _ leastSound => accounts_publish leastSound
  refine accounts_idle (confined_within (Tableau.confined_minimize _)).quiet
    ((meets_within _ _ _ _).mpr ((minimize_reaches (fun _ => False) sound.fits.indexed).imp ?_ ?_))
  · exact fun _ _ reaches => ⟨reaches.sound sound, rfl⟩
  · exact fun _ _ reaches => ⟨reaches.sound sound, rfl⟩

theorem accounts_autoOptimize :
    AccountsFor (autoUpdates limit before) autoOptimize limit before := by
  refine accounts_get ?_
  unfold autoUpdates
  split
  · exact accounts_optimize sound
  · exact accounts_pure sound ()

theorem accounts_add (external : constraint.External) (older : constraint.key < before.nextKey) :
    AccountsFor (addUpdates constraint limit before) (add constraint) limit before := by
  rw [add_eq]
  refine accounts_bind_silent (accounts_silent (install_tells sound external ?_ ?_))
    fun _ _ installedSound => accounts_autoOptimize installedSound
  · intro fault after fails
    have reaches : Reaches (fun _ => True) before after := fails.reaches trivial external older
    refine ⟨reaches.sound sound, ?_, noParametricBasic_nil⟩
    cases fails with
    | unbounded installs _ escapes =>
      obtain ⟨tableau, _, rfl⟩ := escapes
      exact installs.unknowns
    | _ => rfl
  · intro placement tableau nextId installed installs
    exact ⟨installs.sound sound external older, installs.unknowns, noParametricBasic_nil⟩

theorem accounts_addFresh {demand : Demand K} (external : demand.External) :
    AccountsFor (addNewUpdates demand limit before) (add ⟨demand, before.nextKey⟩) limit
      before.withNextKey :=
  accounts_add (before.tidies_withNextKey.sound sound) external (Nat.lt_succ_self _)

theorem accounts_remove
    (sameKind : ∀ entry, before.installed.get? constraint.key = some entry →
      entry.constraint.kind = constraint.kind) :
    AccountsFor (removeUpdates constraint limit before) (remove constraint) limit before := by
  rw [remove_eq]
  refine accounts_bind_silent (accounts_silent (uninstall_tells sound ?_ ?_))
    fun _ _ removedSound => accounts_autoOptimize removedSound
  · exact fun _ => ⟨sound, rfl, noParametricBasic_nil⟩
  · intro entry dropped removed uninstalls
    exact ⟨uninstalls.sound sound (sameKind entry uninstalls.found), uninstalls.unknowns,
      noParametricBasic_nil⟩

theorem accounts_tryAdd (external : constraint.External) (older : constraint.key < before.nextKey) :
    AccountsFor (addUpdates constraint limit before) (tryAdd constraint) limit before := by
  obtain ⟨faithful, tells⟩ := accounts_add sound external older
  have kept : ∀ after told, Shows (addUpdates constraint limit before) before after told →
      Shows (addUpdates constraint limit before) before after
        (told ++ warnings ([] : List (Event K))) := by
    intro after told shows
    rwa [warnings_nil, List.append_nil]
  refine ⟨faithful, (tells_bind _ _ _).mpr ((tells_attempt _ _).mpr (tells.imp ?_ ?_))⟩
  · exact fun _ => kept
  · intro fault after told shows
    cases fault <;> exact kept after told shows

theorem accounts_addNew {demand : Demand K} (external : demand.External) :
    AccountsFor (addNewUpdates demand limit before) (addNew demand) limit before :=
  accounts_reserve (accounts_return _ (accounts_addFresh sound external))

theorem accounts_addEdit (unknown : Variable) (strength : Strength) :
    AccountsFor (addNewUpdates (.edit unknown (before.value unknown) strength) limit before)
      (addEdit unknown strength) limit before := by
  have external := Demand.external_edit unknown (before.value unknown) strength
  exact accounts_get (accounts_reserve (accounts_mapFault _ (accounts_addFresh sound external)))

theorem accounts_removeEdit (unknown : Variable) :
    AccountsFor (removeEditUpdates unknown limit before) (removeEdit unknown) limit before := by
  refine accounts_get ?_
  unfold removeEditUpdates
  cases registered : before.edits.get? unknown with
  | none => exact accounts_fail sound _
  | some info => exact accounts_remove sound (sound.edit_kind registered)

omit [Div K] in
theorem accounts_suggest (unknown : Variable) (target : K) :
    AccountsFor [] (suggest unknown target) limit before := by
  refine accounts_get ?_
  cases registered : before.edits.get? unknown with
  | none =>
    refine accounts_silent ⟨sound, rfl, fun other told => ?_⟩
    cases List.mem_singleton.mp told
  | some info => exact accounts_modify (retargeted_sound sound registered target) rfl

variable [LE K] [DecidableLE K]

theorem accounts_resolve : AccountsFor (resolveUpdates limit before) resolve limit before := by
  have settled : ∀ solver : Solver K, solver.Sound →
      AccountsFor [] (modify fun solver : Solver K =>
        (solver.setTableau solver.tableau.clearInfeasible).settleStays) limit solver :=
    fun solver sound => accounts_modify sound.clearInfeasible.settleStays rfl
  refine accounts_bind_silent ?_ fun _ repaired repairedSound => ?_
  · refine accounts_idle (confined_within (Tableau.confined_repair _)).quiet
      ((meets_within _ _ _ _).mpr ((repair_reaches (fun _ => False) sound.fits.indexed).imp ?_ ?_))
    · exact fun _ _ reaches => ⟨reaches.sound sound, rfl⟩
    · exact fun _ _ met => ⟨met.1.sound sound, rfl⟩
  · have published := accounts_bind (accounts_publish repairedSound)
      fun _ shown shownSound => settled shown shownSound
    rwa [publish_eq repairedSound.fits.indexed] at published

/-! Operations in a row -/

theorem accounts_operation {action : Action K (Solver K) α} (operation : Operation α action) :
    AccountsFor (operation.updates limit before) action limit before := by
  cases operation with
  | addNew demand external => exact accounts_addNew sound external
  | addEdit unknown strength => exact accounts_addEdit sound unknown strength
  | removeEdit unknown => exact accounts_removeEdit sound unknown
  | suggest unknown target => exact accounts_suggest sound unknown target
  | optimize => exact accounts_optimize sound
  | resolve => exact accounts_resolve sound
  | opened =>
    have reaches : Reaches (fun _ => False) before (opened before) := opened_reaches before
    exact accounts_modify (reaches.sound sound) rfl
  | closed => exact accounts_modify ((tidies_depths before _).sound sound) rfl
  | report event harmless => exact accounts_report sound harmless

omit sound in
/-- The updates of operations in a row are all that these do to the values. -/
theorem accounts_script {action : Action K (Solver K) α} (script : Script outlook Operation action)
    (limit : Nat) (before : Solver K) (sound : before.Sound) :
    AccountsFor (updatesOf script limit before) action limit before := by
  unfold updatesOf
  induction script generalizing before with
  | part operation => exact accounts_operation sound operation
  | pure value => exact accounts_pure sound value
  | fail fault expected => exact accounts_fail sound fault
  | read enough script continued => exact accounts_get (continued before before sound)
  | bind begins script ih continued => exact accounts_bind (ih before sound) continued
  | mapFault change wraps script ih => exact accounts_mapFault change (ih before sound)
  | branch yes no onYes onNo =>
    unfold Script.collect
    split
    · exact onYes before sound
    · exact onNo before sound

theorem accounts_setEditedValue (unknown : Variable) (target : K) :
    AccountsFor (setEditedValueUpdates unknown target limit before) (setEditedValue unknown target)
      limit before := by
  refine accounts_get ?_
  unfold setEditedValueUpdates
  split
  · rename_i absent
    have outside : before.containsVariable unknown = false := by simpa using absent
    have tidies : before.Tidies (before.setValue unknown target) :=
      ⟨rfl, rfl, rfl, rfl, rfl, Nat.le_refl _, Nat.le_refl _⟩
    exact ⟨List.forall_mem_singleton.mpr outside, tidies.sound sound, ⟨rfl, rfl⟩,
      noParametricBasic_nil⟩
  split
  · exact accounts_pure sound ()
  · exact accounts_script _ limit before sound

end Solver

namespace Session

open SoftSimplex.Action Solver

/-! What is written -/

section Writing

def Writes (action : Action K (Session K) α) : Prop :=
  ∀ limit session, (action limit session).Shows
    (fun _ next events => next.sink = writeDiagnostics events session.sink)
    (fun _ next events => next.sink = writeDiagnostics events session.sink)

theorem compositional_writes {ω : Type} (sees : Session K → ω) :
    Compositional sees fun α => Writes (K := K) (α := α) where
  pure _ := fun _ _ => rfl
  fail _ _ := fun _ _ => rfl
  read _ continued := fun limit session =>
    (shows_get_bind _ _).mpr (continued session limit session)
  bind writes continued := fun limit session => by
    refine (shows_bind _ _ _).mpr ((writes limit session).imp ?_ fun _ _ _ written => written)
    intro value middle events written
    refine (continued value limit middle).imp ?_ ?_ <;>
    · intro _ next later also
      rw [also, written, writeDiagnostics_append]
  mapFault change _ writes := fun limit session =>
    (shows_mapFault change _ _).mpr (writes limit session)

theorem writes_onSolver (action : Action K (Solver K) α) : Writes (onSolver action) := by
  intro limit session
  unfold onSolver
  cases action limit session.solver <;> first | rfl | trivial

end Writing

variable [Zero K] [One K] [Add K] [Sub K] [Neg K] [Mul K] [Div K] [LT K] [DecidableLT K] [LE K]
  [DecidableLE K] [Scalar K] {session next : Session K} {limit : Nat} {log : List (Event K)}

theorem writes_perform (request : Call K) : Writes (perform request) :=
  (performScript request).holds_of_parts (compositional_writes _) fun
    | .solver _ => writes_onSolver _
    | .create _ _ => fun _ _ => rfl
    | .hold _ => fun _ _ => rfl
    | .reset => fun _ _ => rfl

/-! Calls -/

theorem serves_or_missing (held : Table Nat (Constraint K)) (request : Call K) :
    (∃ (α : Type) (action : Action K (Solver K) α), request.Serves held action) ∨
      ∃ key, request.named? = some key ∧ held.get? key = none := by
  have named : ∀ key, (∃ constraint, held.get? key = some constraint) ∨ held.get? key = none := by
    intro key
    cases held.get? key with
    | none => exact .inr rfl
    | some constraint => exact .inl ⟨constraint, rfl⟩
  cases request with
  | add key =>
    exact (named key).imp (fun ⟨_, found⟩ => ⟨_, _, .add found⟩) fun missing => ⟨key, rfl, missing⟩
  | tryAdd key =>
    exact (named key).imp (fun ⟨_, found⟩ => ⟨_, _, .tryAdd found⟩) fun missing => ⟨key, rfl, missing⟩
  | remove key =>
    exact (named key).imp (fun ⟨_, found⟩ => ⟨_, _, .remove found⟩) fun missing => ⟨key, rfl, missing⟩
  | _ => exact .inl ⟨_, _, by constructor⟩

theorem updates_of_missing {request : Call K} {key : Nat} (named : request.named? = some key)
    (missing : session.held.get? key = none) : session.updates limit request = [] := by
  cases request <;> cases named <;> first | rfl | simp only [updates, missing]

theorem accounts_serves (sound : session.Sound) {request : Call K} {α : Type}
    {action : Action K (Solver K) α} (serves : request.Serves session.held action) :
    AccountsFor (session.updates limit request) action limit session.solver := by
  have start := sound.solver
  cases serves with
  | newVariable name value =>
    have tidies : session.solver.Tidies (session.solver.newVariable name value).2 :=
      ⟨rfl, rfl, rfl, rfl, rfl, Nat.le_succ _, Nat.le_refl _⟩
    exact ⟨List.forall_mem_singleton.mpr trivial, tidies.sound start, ⟨rfl, rfl⟩,
      noParametricBasic_nil⟩
  | make demand =>
    exact accounts_silent ⟨session.solver.tidies_withNextKey.sound start, rfl, noParametricBasic_nil⟩
  | setStrength => exact accounts_pure start ()
  | reset => exact accounts_fail start _
  | setAutoSolve autoSolve =>
    have tidies : session.solver.Tidies (session.solver.setAutoSolve autoSolve) :=
      ⟨rfl, rfl, rfl, rfl, rfl, Nat.le_refl _, Nat.le_refl _⟩
    exact accounts_modify (tidies.sound start) rfl
  | add found =>
    have agrees := (sound.held _ _ found).2
    simp only [updates, found]
    exact accounts_add start agrees.external agrees.older
  | tryAdd found =>
    have agrees := (sound.held _ _ found).2
    simp only [updates, found]
    exact accounts_tryAdd start agrees.external agrees.older
  | remove found =>
    simp only [updates, found]
    exact accounts_remove start (sound.held _ _ found).2.sameKind
  | addLowerBound unknown lower =>
    exact accounts_addNew start (Demand.external_lowerBound unknown lower .required)
  | addUpperBound unknown upper =>
    exact accounts_addNew start (Demand.external_upperBound unknown upper .required)
  | addEdit unknown strength => exact accounts_addEdit start unknown strength
  | removeEdit unknown => exact accounts_removeEdit start unknown
  | suggest unknown target => exact accounts_suggest start unknown target
  | resolve => exact accounts_resolve start
  | setEditedValue unknown target => exact accounts_setEditedValue start unknown target
  | _ => exact accounts_script _ limit session.solver start

theorem tells_perform {request : Call K} (sound : session.Sound) :
    (perform request limit session).Tells
      (fun _ next => Shows (session.updates limit request) session.solver next.solver)
      fun _ next => Shows (session.updates limit request) session.solver next.solver := by
  refine (Outcome.tells_iff_shows _ _ _).mpr (shows_perform
    (fun after events => Shows (session.updates limit request) session.solver after (warnings events))
    (fun _ after events =>
      Shows (session.updates limit request) session.solver after (warnings events)) ?_ ?_)
  · intro key named missing
    rw [updates_of_missing named missing]
    exact ⟨sound.solver, rfl, noParametricBasic_nil⟩
  · intro _ _ serves
    exact (Outcome.tells_iff_shows _ _ _).mp (accounts_serves sound serves).2

theorem updates_faithful (sound : session.Sound) (limit : Nat) (request : Call K) :
    ∀ update ∈ session.updates limit request, update.Faithful := by
  rcases serves_or_missing session.held request with ⟨_, _, serves⟩ | ⟨key, named, missing⟩
  · exact (accounts_serves sound serves).1
  · rw [updates_of_missing named missing]
    exact nofun

theorem Recorded.sound (recorded : Recorded session log) : session.Sound := recorded.reachable.sound

theorem perform_shows {request : Call K} (sound : session.Sound)
    (ended : (perform request limit session).state? = some next) :
    Shows (session.updates limit request) session.solver next.solver
      (warnings (perform request limit session).events) :=
  ((Outcome.tells_iff_shows _ _ _).mp (tells_perform sound)).of_state? ended

theorem Recorded.unwarned (recorded : Recorded session log) : NoParametricBasic (warnings log) := by
  induction recorded with
  | fresh config sink => exact noParametricBasic_nil
  | call earlier external returns ih =>
    rw [warnings_append]
    exact ih.append (perform_shows earlier.sound returns).unwarned

/-- In every reachable state the lists of external symbols are exact and have no symbol in common,
and nobody has been warned of one. Whatever call comes next, each publication that it comes to gives
the variables of the tableau, as that is then, their values and leaves the others alone; these are
all the changes of the values, but for variables that are made or are set outside the tableau. What
the call writes to the sink are the diagnostics that it reports. -/
theorem discloses_of_recorded (recorded : Recorded session log) :
    session.solver.tableau.Listed ∧ NoParametricBasic (warnings log) ∧
      ∀ request limit, request.External →
        (∀ update ∈ session.updates limit request, update.Faithful) ∧
          ∀ next, (perform request limit session).state? = some next →
            Update.Leads (session.updates limit request) session.solver.unknowns
              next.solver.unknowns ∧
            NoParametricBasic (warnings (perform request limit session).events) ∧
            next.sink = writeDiagnostics (perform request limit session).events session.sink := by
  refine ⟨recorded.sound.solver.fits.indexed.listed, recorded.unwarned, ?_⟩
  intro request limit external
  refine ⟨updates_faithful recorded.sound limit request, fun next ended => ?_⟩
  have shows := perform_shows recorded.sound ended
  exact ⟨shows.leads, shows.unwarned, (writes_perform request limit session).of_state? ended⟩

/-- Two variables that are equal, with a bound that has been published and taken out again. When the
equation goes as well, both are left with an empty column and get zero; the third one is not in the
tableau at any time. -/
theorem discloses_of_recorded_emptied :
    let requests : List (Call ℚ) := [.newVariable none 7, .newVariable none 3, .newVariable none 9,
      .make (.equal (.ofVariable ⟨1⟩) (.ofVariable ⟨2⟩) .required),
      .make (.atLeast (.ofVariable ⟨1⟩) (.ofConstant 5) .required), .add 0, .add 1]
    let published := (start (.withConfig .standard) (.memory [])).replay 8 requests
    let session := published.replay 8 [.remove 1]
    let log := (start (.withConfig .standard) (.memory [])).reported 8 requests ++
      published.reported 8 [.remove 1]
    let shown := fun solver : Solver ℚ => [1, 2, 3].map fun id => solver.value ⟨id⟩
    Recorded session log ∧ session.solver.tableau.Listed ∧ NoParametricBasic (warnings log) ∧
      session.solver.tableau.basicExternals.keys = [Variable.symbol ⟨1⟩] ∧
      session.solver.tableau.parametricExternals.keys = [Variable.symbol ⟨2⟩] ∧
      shown published.solver = [5, 5, 9] ∧ shown session.solver = [0, 0, 9] ∧
      (published.updates 8 (.remove 1)).map (fun update => shown update.after) = [[0, 0, 9]] ∧
      (∀ update ∈ session.updates 8 (.remove 0), update.Faithful) ∧
      ∃ next, (perform (.remove 0) 8 session).state? = some next ∧
        next.solver.tableau.parametricExternals.keys =
          [Variable.symbol ⟨2⟩, Variable.symbol ⟨1⟩] ∧
        next.solver.tableau.column (Variable.symbol ⟨2⟩) = [] ∧ shown next.solver = [0, 0, 9] ∧
        Update.Leads (session.updates 8 (.remove 0)) session.solver.unknowns
          next.solver.unknowns ∧ next.sink = .memory [] := by
  intro requests published session log shown
  have isEqual : (Demand.equal (.ofVariable ⟨1⟩) (.ofVariable ⟨2⟩) .required : Demand ℚ).External := by
    decide +kernel
  have bounded : Recorded published
      ((start (.withConfig .standard) (.memory [])).reported 8 requests) :=
    (Recorded.fresh .standard (.memory [])).replay
      ⟨trivial, trivial, trivial, isEqual, Demand.external_lowerBound ⟨1⟩ 5 .required, trivial,
        trivial, trivial⟩
  have recorded : Recorded session log := bounded.replay ⟨trivial, trivial⟩
  have ended : (perform (.remove 0) 8 session).state? = some (session.replay 8 [.remove 0]) :=
    state?_of_returns (by decide +kernel)
  obtain ⟨listed, unwarned, continues⟩ := discloses_of_recorded recorded
  obtain ⟨faithful, follows⟩ := continues (.remove 0) 8 trivial
  obtain ⟨leads, _, written⟩ := follows _ ended
  exact ⟨recorded, listed, unwarned, by decide +kernel, by decide +kernel, by decide +kernel,
    by decide +kernel, by decide +kernel, faithful, _, ended, by decide +kernel, by decide +kernel,
    by decide +kernel, leads, written.trans (by decide +kernel)⟩

end Session

end SoftSimplex
