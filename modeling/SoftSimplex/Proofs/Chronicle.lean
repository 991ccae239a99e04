import SoftSimplex.Proofs.Events
import SoftSimplex.Proofs.Frames
import SoftSimplex.Proofs.Runs

/-!
The installed constraints and what has been reported of them. A constraint stands from the report of
its addition on, until one says that it is contradicted, refused or removed. The constraints in a
solver are those that stand, in the order of their additions.
-/

namespace SoftSimplex

variable {K σ α β : Type}

def Event.note (standing : List (Constraint K)) : Event K → List (Constraint K)
  | adding constraint => standing ++ [constraint]
  | contradicted constraint | refused constraint _ | removing constraint =>
    standing.filter fun other => other.key ≠ constraint.key
  | _ => standing

/-- The constraints that stand at the end of a log. -/
def standing (log : List (Event K)) : List (Constraint K) := log.foldl Event.note []

def Event.Idle (event : Event K) : Prop := ∀ standing, note standing event = standing

theorem Event.IsStep.idle {event : Event K} (step : event.IsStep) : event.Idle := by
  cases event <;> first | exact fun _ => rfl | exact step.elim

theorem foldl_note_of_idle {log : List (Event K)} (idle : ∀ event ∈ log, event.Idle)
    (start : List (Constraint K)) : log.foldl Event.note start = start := by
  induction log with
  | nil => rfl
  | cons event rest ih =>
    rw [List.forall_mem_cons] at idle
    rw [List.foldl_cons, idle.1, ih idle.2]

namespace Solver

variable {before middle after : Solver K}

def Keyed (solver : Solver K) : Prop :=
  ∀ key entry, solver.installed.get? key = some entry → entry.constraint.key = key

structure Chronicles (before : Solver K) (log : List (Event K)) (after : Solver K) : Prop where
  keyed : after.Keyed
  standing : after.constraints = log.foldl Event.note before.constraints

theorem Keyed.of_same (keyed : before.Keyed) (same : after.installed = before.installed) :
    after.Keyed := by
  unfold Keyed
  rw [same]
  exact keyed

theorem constraints_of_same (same : after.installed = before.installed) :
    after.constraints = before.constraints := by
  unfold constraints
  rw [same]

theorem Chronicles.refl (keyed : before.Keyed) : before.Chronicles [] before := ⟨keyed, rfl⟩

theorem Chronicles.trans {earlier later : List (Event K)}
    (first : before.Chronicles earlier middle) (second : middle.Chronicles later after) :
    before.Chronicles (earlier ++ later) after := by
  refine ⟨second.keyed, ?_⟩
  rw [List.foldl_append, ← first.standing, second.standing]

theorem chronicles_of_idle {log : List (Event K)} (keyed : before.Keyed)
    (idle : ∀ event ∈ log, event.Idle) (same : after.installed = before.installed) :
    before.Chronicles log after := by
  refine ⟨keyed.of_same same, ?_⟩
  rw [foldl_note_of_idle idle, constraints_of_same same]

theorem ne_of_missing (keyed : before.Keyed) {key : Nat}
    (missing : before.installed.get? key = none) :
    ∀ constraint ∈ before.constraints, constraint.key ≠ key := by
  intro constraint member same
  obtain ⟨entry, inValues, rfl⟩ := List.mem_map.mp member
  obtain ⟨⟨found, value⟩, inEntries, rfl⟩ := List.mem_map.mp inValues
  have present := (before.installed.mem_entries_iff found value).mp inEntries
  rw [← keyed found value present, same, missing] at present
  cases present

theorem filter_append_of_missing (keyed : before.Keyed) {constraint : Constraint K}
    (missing : before.installed.get? constraint.key = none) :
    (before.constraints ++ [constraint]).filter (fun other => other.key ≠ constraint.key) =
      before.constraints := by
  have others := ne_of_missing keyed missing
  rw [List.filter_append, List.filter_eq_self.mpr (by simpa using others)]
  simp

theorem constraints_record {constraint : Constraint K} (equation : Equation K)
    (missing : before.installed.get? constraint.key = none) :
    (before.record constraint equation).constraints = before.constraints ++ [constraint] := by
  unfold constraints Table.values
  rw [installed_record, Table.entries_insert_of_missing missing]
  simp

theorem Keyed.record (keyed : before.Keyed) (constraint : Constraint K) (equation : Equation K) :
    (before.record constraint equation).Keyed := by
  intro key entry found
  rw [get?_installed_record] at found
  split at found
  · rename_i same
    cases found
    exact same
  · exact keyed key entry found

theorem chronicles_record {constraint : Constraint K} {steps : List (Event K)} (keyed : before.Keyed)
    (missing : before.installed.get? constraint.key = none) (idle : ∀ event ∈ steps, event.Idle)
    (same : middle.installed = before.installed) (equation : Equation K) :
    before.Chronicles ([.adding constraint] ++ steps) (middle.record constraint equation) := by
  refine ⟨(keyed.of_same same).record constraint equation, ?_⟩
  rw [constraints_record equation (same ▸ missing), constraints_of_same same, List.foldl_append,
    foldl_note_of_idle idle]
  rfl

theorem constraints_erase (keyed : before.Keyed) {key : Nat}
    (erased : after.installed = before.installed.erase key) :
    after.constraints = before.constraints.filter fun other => other.key ≠ key := by
  unfold constraints Table.values
  rw [erased, Table.entries_erase, List.filter_map, List.filter_map, List.map_map]
  simp only [Function.comp_def, List.map_map]
  congr 1
  refine List.filter_congr fun entry member => ?_
  rw [keyed entry.1 entry.2 ((before.installed.mem_entries_iff entry.1 entry.2).mp member)]

theorem Keyed.erase (keyed : before.Keyed) {key : Nat}
    (erased : after.installed = before.installed.erase key) : after.Keyed := by
  intro other entry found
  rw [erased, Table.get?_erase_eq_some_iff] at found
  exact keyed other entry found.2

end Solver

namespace Action

open Solver

/-- However the computation ends, its events tell what became of the constraints. -/
def Chronicled (solverOf : σ → Solver K) (action : Action K σ α) : Prop :=
  ∀ limit state, (solverOf state).Keyed → (action limit state).Shows
    (fun _ after log => (solverOf state).Chronicles log (solverOf after))
    (fun _ after log => (solverOf state).Chronicles log (solverOf after))

variable {solverOf : σ → Solver K} {action first : Action K σ α}

theorem chronicled_bind {next : α → Action K σ β} (chronicled : first.Chronicled solverOf)
    (continued : ∀ value, (next value).Chronicled solverOf) :
    (first >>= next).Chronicled solverOf := by
  intro limit state keyed
  rw [shows_bind]
  refine (chronicled limit state keyed).imp ?_ fun _ _ _ told => told
  intro value reached log told
  exact (continued value limit reached told.keyed).imp (fun _ _ _ => told.trans)
    fun _ _ _ => told.trans

theorem chronicled_get {next : σ → Action K σ α}
    (continued : ∀ state, (next state).Chronicled solverOf) :
    (get >>= next).Chronicled solverOf := fun limit state keyed =>
  (shows_get_bind _ _).mpr (continued state limit state keyed)

theorem chronicled_pure (value : α) : (Pure.pure value : Action K σ α).Chronicled solverOf :=
  fun _ _ keyed => .refl keyed

theorem chronicled_fail (fault : Fault) : (fail fault : Action K σ α).Chronicled solverOf :=
  fun _ _ keyed => .refl keyed

theorem compositional_chronicled {ω : Type} (sees : σ → ω) (solverOf : σ → Solver K) :
    Compositional sees fun α => Chronicled (α := α) solverOf where
  pure := chronicled_pure
  fail fault _ := chronicled_fail fault
  read _ continued := chronicled_get continued
  bind := chronicled_bind
  mapFault change _ chronicled := fun limit state keyed =>
    (shows_mapFault change _ _).mpr (chronicled limit state keyed)

theorem chronicled_report {events : List (Event K)} (idle : ∀ event ∈ events, event.Idle) :
    (report events).Chronicled solverOf := fun _ _ keyed => chronicles_of_idle keyed idle rfl

theorem chronicled_modify {change : σ → σ}
    (same : ∀ state, (solverOf (change state)).installed = (solverOf state).installed) :
    (modify change).Chronicled solverOf := fun _ state keyed =>
  chronicles_of_idle keyed nofun (same state)

end Action

namespace Solver

open SoftSimplex.Action

theorem chronicled_of_unrecorded {action : Action K (Solver K) α}
    (confined : action.Confined Event.Idle) (unrecorded : Unrecorded action) :
    action.Chronicled id := by
  intro limit before keyed
  have told : ∀ after : Solver K, ∀ log : List (Event K),
      (∀ event ∈ log, event.Idle) ∧ after.records = before.records →
        before.Chronicles log after :=
    fun after log met => chronicles_of_idle keyed met.1 (congrArg Records.installed met.2)
  exact (confined.shows (unrecorded before.records limit before rfl)).imp
    (fun _ => told) fun _ => told

theorem chronicled_onTableau {action : Action K (Tableau K) α}
    (confined : action.Confined Event.IsStep) : (onTableau action).Chronicled id :=
  chronicled_of_unrecorded ((confined_within confined).imp fun _ => Event.IsStep.idle)
    (unrecorded_onTableau action)

variable [Zero K]

theorem chronicled_publish : (publish : Action K (Solver K) Unit).Chronicled id := by
  refine chronicled_of_unrecorded ?_ unrecorded_publish
  refine confined_bind confined_get fun _ => confined_bind ?_ fun _ => confined_modify _
  intro limit before event member
  obtain ⟨unknown, _, rfl⟩ := List.mem_map.mp member
  exact fun _ => rfl

variable [One K] [Add K] [Neg K] [Mul K] [Div K] [LT K] [DecidableLT K] [Scalar K]

theorem chronicled_optimize : (optimize : Action K (Solver K) Unit).Chronicled id :=
  chronicled_bind (chronicled_onTableau (Tableau.confined_minimize _)) fun _ => chronicled_publish

theorem chronicled_autoOptimize : (autoOptimize : Action K (Solver K) Unit).Chronicled id := by
  refine chronicled_get fun _ => ?_
  split
  · exact chronicled_optimize
  · exact chronicled_pure ()

theorem place_returns (equation : Equation K) (placement : Placement K) {limit : Nat}
    (before : Solver K) :
    (place equation placement limit before).Meets (fun _ _ => True) fun _ _ => False := by
  have attempted : ∀ {α : Type} (action : Action K (Tableau K) α) (current : Solver K),
      ((onTableau action).attempt limit current).Meets (fun _ _ => True) fun _ _ => False := by
    intro α action current
    rw [meets_attempt]
    cases onTableau action limit current <;> trivial
  unfold place
  rw [meets_bind, meets_get, meets_bind, meets_modify]
  split
  · exact attempted _ _
  · unfold placeByArtificial freshSymbol
    simp only [meets_bind, meets_get, meets_modify, meets_pure]
    refine (attempted _ _).imp ?_ fun _ _ never => never
    rintro (fault | done) reached _ <;> trivial

theorem chronicled_add (constraint : Constraint K) : (add constraint).Chronicled id := by
  intro limit before keyed
  unfold add
  rw [shows_get_bind]
  cases objects : before.objection? constraint with
  | some fault => exact .refl keyed
  | none =>
    have missing := missing_of_unobjected objects
    have undone := filter_append_of_missing keyed missing
    dsimp only
    rw [shows_report_bind, shows_modify_bind]
    generalize before.tableau.equationOf before.nextId constraint.toDemand = equation
    cases before.tableau.choosePlacement? equation.row with
    | none =>
      exact ⟨keyed, undone.symm⟩
    | some placement =>
      dsimp only
      rw [shows_bind]
      have placing := (confined_place equation placement).shows
        ((unrecorded_place equation placement before.records limit
          { before with nextId := equation.nextId } rfl).and (place_returns equation placement _))
      refine placing.imp ?_ fun _ _ _ never => never.2.2.elim
      rintro result reached steps ⟨taken, same, _⟩
      have idle : ∀ event ∈ steps, event.Idle := fun event member => (taken event member).idle
      have installed : reached.installed = before.installed := congrArg Records.installed same
      cases result with
      | error fault =>
        refine ⟨keyed.of_same installed, (constraints_of_same installed).trans ?_⟩
        simp only [List.foldl_append, foldl_note_of_idle idle]
        exact undone.symm
      | ok done =>
        dsimp only
        rw [shows_modify_bind]
        have recorded := chronicles_record keyed missing idle installed equation
        have told : ∀ log after, (reached.record constraint equation).Chronicles log after →
            before.Chronicles ([.adding constraint] ++ (steps ++ log)) after := by
          intro log after later
          rw [← List.append_assoc]
          exact recorded.trans later
        exact (chronicled_autoOptimize limit _ recorded.keyed).imp
          (fun _ after log => told log after) fun _ after log => told log after

theorem chronicled_remove (constraint : Constraint K) : (remove constraint).Chronicled id := by
  intro limit before keyed
  unfold remove
  rw [shows_get_bind]
  cases found : before.installed.get? constraint.key with
  | none => exact .refl keyed
  | some entry =>
    dsimp only
    rw [shows_report_bind, shows_modify_bind]
    have withdrawn : before.Chronicles [.removing constraint] (before.withdraw constraint) :=
      ⟨keyed.erase rfl, constraints_erase keyed rfl⟩
    have rest : (do
        onTableau (Tableau.dropMarker entry.marker)
        Action.modify
          (·.clearAway constraint entry.marker (before.charges.get? constraint.key))
        autoOptimize : Action K (Solver K) Unit).Chronicled id := by
      refine chronicled_bind (chronicled_onTableau (Tableau.confined_dropMarker _)) fun _ =>
        chronicled_bind (chronicled_modify fun current => ?_) fun _ => chronicled_autoOptimize
      obtain ⟨_, _, _, writes⟩ := current.clearAway_writes constraint entry.marker
        (before.charges.get? constraint.key)
      rw [writes]
      rfl
    exact (rest limit _ withdrawn.keyed).imp (fun _ _ _ => withdrawn.trans)
      fun _ _ _ => withdrawn.trans

theorem chronicled_removeEdit (unknown : Variable) :
    (removeEdit unknown : Action K (Solver K) Unit).Chronicled id := by
  refine chronicled_get fun _ => ?_
  split
  · exact chronicled_fail _
  · exact chronicled_remove _

theorem chronicled_trimEdits (count : Nat) :
    (trimEdits count : Action K (Solver K) Unit).Chronicled id := by
  refine (compositional_chronicled outlook id).closed (trimEditsScript ?_ ?_)
  · exact fun unknown => .part (chronicled_removeEdit unknown)
  · exact fun _ => .part (chronicled_report (List.forall_mem_singleton.mpr fun _ => rfl))

variable [LE K] [DecidableLE K]

theorem chronicled_resolve : (resolve : Action K (Solver K) Unit).Chronicled id := by
  refine chronicled_bind (chronicled_onTableau (Tableau.confined_repair _)) fun _ => ?_
  exact chronicled_bind chronicled_publish fun _ => chronicled_modify fun _ => rfl

theorem chronicled_of_basic [Sub K] {action : Action K (Solver K) α} (isBasic : Basic α action) :
    action.Chronicled id := by
  have told : ∀ event : Event K, event.Idle →
      (report [event] : Action K (Solver K) Unit).Chronicled id :=
    fun event idle => chronicled_report (List.forall_mem_singleton.mpr idle)
  cases isBasic with
  | reserve demand =>
    exact chronicled_get fun _ => chronicled_bind (chronicled_modify fun _ => rfl) fun _ =>
      chronicled_pure _
  | add constraint => exact chronicled_add constraint
  | tryAdd constraint =>
    refine holds_tryAdd (compositional_chronicled outlook id) chronicled_fail ?_
    exact fun limit before keyed =>
      (shows_attempt _ _).mpr (chronicled_add constraint limit before keyed)
  | remove constraint => exact chronicled_remove constraint
  | removeEdit unknown => exact chronicled_removeEdit unknown
  | suggest unknown target =>
    refine chronicled_get fun _ => ?_
    split
    · exact chronicled_bind (told _ fun _ => rfl) fun _ => chronicled_fail _
    · exact chronicled_modify fun _ => rfl
  | optimize => exact chronicled_optimize
  | resolve => exact chronicled_resolve
  | beginEdit =>
    refine (compositional_chronicled outlook id).closed (beginEditScript ?_ ?_)
    · exact fun _ => .part (told _ fun _ => rfl)
    · exact .part (chronicled_modify fun _ => rfl)
  | endEdit =>
    refine (compositional_chronicled outlook id).closed
      (endEditScript (.part chronicled_resolve) ?_ ?_ ?_)
    · exact .part (chronicled_modify fun _ => rfl)
    · exact fun _ => .part (told _ fun _ => rfl)
    · exact fun count => .part (chronicled_trimEdits count)
  | warn warning => exact told _ fun _ => rfl
  | assign unknown value => exact chronicled_modify fun _ => rfl
  | configure autoSolve => exact chronicled_modify fun _ => rfl

end Solver

namespace Session

open SoftSimplex.Action Solver

theorem chronicled_onSolver {action : Action K (Solver K) α} (chronicled : action.Chronicled id) :
    (onSolver action).Chronicled solver := by
  intro limit session keyed
  have told := chronicled limit session.solver keyed
  unfold onSolver
  revert told
  cases action limit session.solver <;> exact id

variable [Zero K] [One K] [Add K] [Sub K] [Neg K] [Mul K] [Div K] [LT K] [DecidableLT K] [LE K]
  [DecidableLE K] [Scalar K] {session next : Session K} {log : List (Event K)}

theorem chronicled_perform (request : Call K) : (perform request).Chronicled solver := by
  refine (performScript request).holds_of_parts (compositional_chronicled _ solver) fun change => ?_
  cases change with
  | solver script =>
    exact chronicled_onSolver
      (script.holds_of_parts (compositional_chronicled _ id) chronicled_of_basic)
  | create name value => exact fun _ _ keyed => chronicles_of_idle keyed nofun rfl
  | hold made => exact chronicled_modify fun _ => rfl
  | reset => exact chronicled_fail _

/-- The sessions that calls over constraints on variables can reach, each with all that has been
reported on the way. -/
inductive Recorded : Session K → List (Event K) → Prop
  | fresh (config : Config K) (sink : Sink) : Recorded (start (.withConfig config) sink) []
  | call {session next : Session K} {log : List (Event K)} {request : Call K} {limit : Nat}
      (earlier : Recorded session log) (external : request.External)
      (returns : (perform request limit session).state? = some next) :
      Recorded next (log ++ (perform request limit session).events)

theorem Recorded.reachable (recorded : Recorded session log) : session.Reachable := by
  induction recorded with
  | fresh config sink => exact .fresh config sink
  | call _ external returns ih => exact .call ih external returns

theorem Reachable.recorded (reachable : session.Reachable) : ∃ log, Recorded session log := by
  induction reachable with
  | fresh config sink => exact ⟨[], .fresh config sink⟩
  | call _ external returns ih =>
    obtain ⟨log, recorded⟩ := ih
    exact ⟨_, recorded.call external returns⟩

def reported (limit : Nat) : List (Call K) → Session K → List (Event K)
  | [], _ => []
  | request :: rest, session => (perform request limit session).events ++
    reported limit rest ((perform request limit session).state?.getD session)

theorem Recorded.replay (recorded : Recorded session log) {requests : List (Call K)} {limit : Nat}
    (external : Allows (fun _ request _ => request.External) limit requests session) :
    Recorded (session.replay limit requests) (log ++ session.reported limit requests) := by
  induction requests generalizing session log with
  | nil => simpa [Session.replay, reported] using recorded
  | cons request rest ih =>
    have later := external.2
    rw [Session.replay, reported]
    cases returned : perform request limit session with
    | unfinished =>
      rw [returned] at later
      exact ih recorded later
    | done reply next events =>
      have called := recorded.call external.1 (congrArg Outcome.state? returned)
      rw [returned] at called later
      simpa [Outcome.events, Outcome.state?] using ih called later
    | failed fault next events =>
      have called := recorded.call external.1 (congrArg Outcome.state? returned)
      rw [returned] at called later
      simpa [Outcome.events, Outcome.state?] using ih called later

theorem Recorded.chronicles (recorded : Recorded session log) :
    session.solver.Keyed ∧ session.solver.constraints = standing log := by
  induction recorded with
  | fresh config sink => exact ⟨nofun, rfl⟩
  | @call session next log request limit _ _ returns ih =>
    have told := (chronicled_perform request limit session ih.1).of_state? returns
    refine ⟨told.keyed, ?_⟩
    rw [told.standing, ih.2, standing, standing, List.foldl_append]

end Session

end SoftSimplex
