import SoftSimplex.Proofs.Events
import SoftSimplex.Proofs.MirroredCalls

/-!
Every call of a session mirrors itself under new names. What differs besides is the wording of the
diagnostics, which name variables: the sinks tell of the same things under the names of each side.
-/

namespace SoftSimplex

variable {K : Type}

namespace Renaming

variable (names : Renaming)

def held : Table Nat (Constraint K) → Table Nat (Constraint K) := Table.mapValues names.constraint

def reply : Reply K → Reply K
  | .nothing => .nothing
  | .flag value => .flag value
  | .created unknown => .created (names.unknown unknown)
  | .constraints made => .constraints (made.map names.constraint)

def call : Call K → Call K
  | .newVariable name value => .newVariable name value
  | .make demand => .make (names.demand demand)
  | .setStrength key strength => .setStrength key strength
  | .add key => .add key
  | .tryAdd key => .tryAdd key
  | .remove key => .remove key
  | .addLowerBound unknown lower => .addLowerBound (names.unknown unknown) lower
  | .addUpperBound unknown upper => .addUpperBound (names.unknown unknown) upper
  | .addBounds unknown lower upper => .addBounds (names.unknown unknown) lower upper
  | .addStay unknown strength weight => .addStay (names.unknown unknown) strength weight
  | .addPointStay horizontal vertical weight =>
    .addPointStay (names.unknown horizontal) (names.unknown vertical) weight
  | .addPointStays points => .addPointStays (points.map (Prod.map names.unknown names.unknown))
  | .addVariable unknown => .addVariable (names.unknown unknown)
  | .addEdit unknown strength => .addEdit (names.unknown unknown) strength
  | .addDefaultEdit unknown => .addDefaultEdit (names.unknown unknown)
  | .removeEdit unknown => .removeEdit (names.unknown unknown)
  | .trimEdits count => .trimEdits count
  | .removeAllEdits => .removeAllEdits
  | .beginEdit => .beginEdit
  | .endEdit => .endEdit
  | .suggest unknown target => .suggest (names.unknown unknown) target
  | .resolve => .resolve
  | .resolveAt targets => .resolveAt targets
  | .setEditedValue unknown target => .setEditedValue (names.unknown unknown) target
  | .solve => .solve
  | .reset => .reset
  | .setAutoSolve autoSolve => .setAutoSolve autoSolve

end Renaming

namespace Session

/-- A session and an image of it: the same entries under new names, and sinks that have been told
the same since they were one. -/
structure Echoes (names : Renaming) (session image : Session K) : Prop where
  solver : image.solver = names.solver session.solver
  held : image.held = names.held session.held
  sink : ∃ (start : Sink) (events : List (Event K)),
    session.sink = writeDiagnostics events start ∧
      image.sink = writeDiagnostics (events.map names.event) start

end Session

def Renaming.sessions (names : Renaming) : Likeness (Session K) where
  alike := Session.Echoes names
  total session := ⟨⟨names.solver session.solver, names.held session.held, session.sink⟩,
    rfl, rfl, session.sink, [], rfl, rfl⟩
  nextId session := session.solver.nextId

namespace Session

variable {names : Renaming} {limit : Nat} {session image : Session K}

/-! What is read from both sides -/

section Reading

variable (alike : session.Echoes names image)

include alike

theorem Echoes.value [Zero K] (unknown : Variable) :
    image.solver.value (names.unknown unknown) = session.solver.value unknown := by
  rw [alike.solver, names.value_solver]

theorem Echoes.findVariable? (name : String) :
    image.solver.findVariable? name =
      (session.solver.findVariable? name).map names.unknown := by
  rw [alike.solver, names.findVariable?_solver]

theorem Echoes.constraints : image.constraints = session.constraints.map names.constraint := by
  have installed : image.solver.constraints = session.solver.constraints.map names.constraint := by
    rw [alike.solver]
    simp [Solver.constraints, Renaming.solver, Renaming.installed, Table.values, Table.mapValues]
  have current : ∀ constraint, image.current (names.constraint constraint) =
      names.constraint (session.current constraint) := by
    intro constraint
    unfold Session.current
    rw [alike.held, Renaming.held, names.key_constraint, Table.get?_mapValues]
    cases session.held.get? constraint.key <;> rfl
  simp [Session.constraints, installed, current]

end Reading

/-! Calls -/

theorem Echoes.told (echoes : session.Echoes names image) (solver : Solver K)
    (events : List (Event K)) :
    Echoes names { session with solver, sink := writeDiagnostics events session.sink }
      { image with
        solver := names.solver solver
        sink := writeDiagnostics (events.map names.event) image.sink } := by
  obtain ⟨_, held, start, earlier, sink, imageSink⟩ := echoes
  refine ⟨rfl, held, start, earlier ++ events, ?_, ?_⟩
  · rw [writeDiagnostics_append, ← sink]
  · rw [List.map_append, writeDiagnostics_append, ← imageSink]

theorem mirrors_onSolver {α β : Type} {onValue : α → β} {action : Action K (Solver K) α}
    {mirror : Action K (Solver K) β} (alike : session.Echoes names image)
    (mirrors : Mirrors names names.solvers onValue limit session.solver
      (names.solver session.solver) action mirror) :
    Mirrors names names.sessions onValue limit session image (onSolver action)
      (onSolver mirror) := by
  refine mirrors_wrap mirrors rfl ?_ ?_
  · unfold onSolver
    cases action limit session.solver <;> rfl
  · unfold onSolver
    rw [alike.solver]
    generalize action limit session.solver = outcome,
      mirror limit (names.solver session.solver) = mirrored
    intro echo
    cases echo with
    | done ends =>
      cases ends
      exact .done (alike.told _ _)
    | failed ends =>
      cases ends
      exact .failed (alike.told _ _)
    | unfinished => exact .unfinished

theorem mirrors_nothing {action mirror : Action K (Solver K) Unit}
    (alike : session.Echoes names image)
    (mirrors : Mirrors names names.solvers id limit session.solver (names.solver session.solver)
      action mirror) :
    Mirrors names names.sessions names.reply limit session image (nothing action)
      (nothing mirror) :=
  mirrors_bind (mirrors_onSolver alike mirrors) fun _ _ _ alike => mirrors_pure alike Reply.nothing

theorem Echoes.hold (alike : session.Echoes names image) (made : List (Constraint K)) :
    Echoes names (session.hold made) (image.hold (made.map names.constraint)) := by
  refine ⟨alike.solver, ?_, alike.sink⟩
  unfold Session.hold
  dsimp only
  rw [alike.held]
  exact foldl_map_alike names.held (fun held constraint =>
    (Table.mapValues_insert held names.constraint constraint.key constraint).symm) made session.held

theorem mirrors_holding {α β : Type} {onValue : α → β} {action : Action K (Solver K) α}
    {mirror : Action K (Solver K) β} {made : α → List (Constraint K)}
    {mirrorMade : β → List (Constraint K)}
    (same : ∀ value, mirrorMade (onValue value) = (made value).map names.constraint)
    (alike : session.Echoes names image)
    (mirrors : Mirrors names names.solvers onValue limit session.solver
      (names.solver session.solver) action mirror) :
    Mirrors names names.sessions names.reply limit session image (holding action made)
      (holding mirror mirrorMade) := by
  refine mirrors_bind (mirrors_onSolver alike mirrors) fun value reached reachedImage alike => ?_
  rw [same]
  exact mirrors_bind (mirrors_modify (Nat.le_refl _) (alike.hold (made value)))
    fun _ _ _ alike => mirrors_pure alike (Reply.constraints (made value))

theorem mirrors_withHeld {α β : Type} {onValue : α → β} {key : Nat}
    {act : Constraint K → Action K (Session K) α} {mirror : Constraint K → Action K (Session K) β}
    (alike : session.Echoes names image)
    (mirrors : ∀ constraint, Mirrors names names.sessions onValue limit session image
      (act constraint) (mirror (names.constraint constraint))) :
    Mirrors names names.sessions onValue limit session image (withHeld key act)
      (withHeld key mirror) := by
  refine mirrors_get_bind ?_
  rw [alike.held, Renaming.held, Table.get?_mapValues]
  cases session.held.get? key with
  | none => exact mirrors_fail alike .constraintNotFound
  | some constraint => exact mirrors constraint

variable [Zero K] [One K] [Add K] [Sub K] [Neg K] [Mul K] [Div K]
  [LT K] [DecidableLT K] [LE K] [DecidableLE K] [Scalar K]

theorem mirrors_newVariable (alike : session.Echoes names image) (name : Option String)
    (value : K) :
    Mirrors names names.sessions names.reply limit session image
      (perform (.newVariable name value)) (perform (.newVariable name value)) where
  grows _ found := Nat.le_trans (Nat.le_succ _) (Nat.le_of_eq (Option.some.inj found))
  echoes moves := by
    have moved : names.onId session.solver.nextId = session.solver.nextId + names.shift :=
      moves session.solver.nextId (Nat.le_refl _) fun _ found =>
        Nat.lt_of_lt_of_eq (Nat.lt_succ_self _) (Option.some.inj found)
    have made : (names.solver session.solver).newVariable name value =
        (session.solver.newVariable name value).map names.unknown names.solver := by
      have unknown : (⟨session.solver.nextId + names.shift⟩ : Variable) =
          names.unknown ⟨session.solver.nextId⟩ := congrArg Variable.mk moved.symm
      have counted : session.solver.nextId + names.shift + 1 =
          session.solver.nextId + 1 + names.shift := Nat.add_right_comm _ _ _
      simp [Solver.newVariable, Renaming.solver, unknown, counted]
    have opened : ∀ session : Session K, perform (.newVariable name value) limit session =
        .done (.created (session.solver.newVariable name value).1)
          { session with solver := (session.solver.newVariable name value).2 } [] := fun _ => rfl
    rw [opened, opened, alike.solver, made]
    exact .done ⟨rfl, alike.held, alike.sink⟩

theorem mirrors_perform (alike : session.Echoes names image) (request : Call K) :
    Mirrors names names.sessions names.reply limit session image (perform request)
      (perform (names.call request)) := by
  cases request with
  | newVariable name value => exact mirrors_newVariable alike name value
  | make demand =>
    exact mirrors_holding (fun _ => rfl) alike (Solver.mirrors_freshConstraint _ demand)
  | setStrength key strength =>
    exact mirrors_withHeld alike fun constraint =>
      mirrors_bind (mirrors_modify (Nat.le_refl _) (alike.hold [constraint.withStrength strength]))
        fun _ _ _ alike => mirrors_pure alike Reply.nothing
  | add key =>
    exact mirrors_withHeld alike fun constraint =>
      mirrors_nothing alike (Solver.mirrors_add _ constraint)
  | tryAdd key =>
    exact mirrors_withHeld alike fun constraint =>
      mirrors_bind (mirrors_onSolver alike (Solver.mirrors_tryAdd _ constraint))
        fun added _ _ alike => mirrors_pure alike (Reply.flag added)
  | remove key =>
    exact mirrors_withHeld alike fun constraint =>
      mirrors_nothing alike (Solver.mirrors_remove _ constraint)
  | addLowerBound unknown lower =>
    exact mirrors_holding (fun _ => rfl) alike (Solver.mirrors_addLowerBound _ unknown lower)
  | addUpperBound unknown upper =>
    exact mirrors_holding (fun _ => rfl) alike (Solver.mirrors_addUpperBound _ unknown upper)
  | addBounds unknown lower upper =>
    exact mirrors_holding (fun _ => rfl) alike (Solver.mirrors_addBounds _ unknown lower upper)
  | addStay unknown strength weight =>
    exact mirrors_holding (fun _ => rfl) alike (Solver.mirrors_addStay _ unknown strength weight)
  | addPointStay horizontal vertical weight =>
    exact mirrors_holding (fun _ => rfl) alike
      (Solver.mirrors_addPointStay _ horizontal vertical weight)
  | addPointStays points =>
    exact mirrors_holding (fun _ => rfl) alike (Solver.mirrors_addPointStaysFrom _ 1 points)
  | addVariable unknown => exact mirrors_nothing alike (Solver.mirrors_addVariable _ unknown)
  | addEdit unknown strength =>
    exact mirrors_nothing alike (Solver.mirrors_addEdit _ unknown strength)
  | addDefaultEdit unknown => exact mirrors_nothing alike (Solver.mirrors_addDefaultEdit _ unknown)
  | removeEdit unknown => exact mirrors_nothing alike (Solver.mirrors_removeEdit _ unknown)
  | trimEdits count => exact mirrors_nothing alike (Solver.mirrors_trimEdits _ count)
  | removeAllEdits => exact mirrors_nothing alike (Solver.mirrors_trimEdits _ 0)
  | beginEdit => exact mirrors_nothing alike (Solver.mirrors_beginEdit _)
  | endEdit => exact mirrors_nothing alike (Solver.mirrors_endEdit _)
  | suggest unknown target => exact mirrors_nothing alike (Solver.mirrors_suggest _ unknown target)
  | resolve => exact mirrors_nothing alike (Solver.mirrors_resolve _)
  | resolveAt targets => exact mirrors_nothing alike (Solver.mirrors_resolveAt _ targets)
  | setEditedValue unknown target =>
    exact mirrors_nothing alike (Solver.mirrors_setEditedValue _ unknown target)
  | solve => exact mirrors_nothing alike (Solver.mirrors_solve _)
  | reset => exact mirrors_fail alike (.internal .resetUnsupported)
  | setAutoSolve autoSolve =>
    exact mirrors_nothing alike (Solver.mirrors_change _ (Nat.le_refl _) rfl)

end Session

end SoftSimplex
