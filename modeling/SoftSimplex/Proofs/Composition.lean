import SoftSimplex.Proofs.Outcome
import SoftSimplex.Session

/-!
How the calls of a session are put together. A script says which parts a call has and what it looks
at between them, so a property that composition keeps is shown once for the parts and then holds of
every call; what the parts do in a run can be collected along the script.
-/

namespace SoftSimplex

universe u

variable {K σ τ α β : Type}

def Fault.Wraps (change : Fault → Fault) : Prop :=
  ∀ fault, change fault = fault ∨ ∃ defect ≠ .objectiveUnbounded, change fault = .internal defect

theorem Fault.Wraps.expected {change : Fault → Fault} (wraps : Wraps change) {fault : Fault}
    (regular : (change fault).isInternal = false) : change fault = fault := by
  refine (wraps fault).resolve_right ?_
  rintro ⟨defect, _, same⟩
  rw [same] at regular
  cases regular

theorem Fault.Wraps.unbounded {change : Fault → Fault} (wraps : Wraps change) {fault : Fault}
    (unbounded : change fault = .internal .objectiveUnbounded) :
    fault = .internal .objectiveUnbounded := by
  rcases wraps fault with same | ⟨defect, other, same⟩
  · exact same.symm.trans unbounded
  · exact absurd (Fault.internal.inj (same.symm.trans unbounded)) other

theorem Fault.wraps_replacing {old : Fault} {defect : Defect} (other : defect ≠ .objectiveUnbounded) :
    Wraps (replacing old (.internal defect)) := by
  intro fault
  unfold replacing
  split
  · exact .inr ⟨defect, other, rfl⟩
  · exact .inl rfl

theorem Fault.wraps_const {defect : Defect} (other : defect ≠ .objectiveUnbounded) :
    Wraps fun _ => .internal defect := fun _ => .inr ⟨defect, other, rfl⟩

def Outcome.onDone (follows : α → σ → List τ) : Outcome K σ α → List τ
  | done value reached _ => follows value reached
  | failed _ _ _ | unfinished => []

namespace Action

/-- How an action is put together from parts, and from what `sees` shows of the state in between. -/
inductive Script {ω : Type} (sees : σ → ω) (part : ∀ α : Type, Action K σ α → Sort u) :
    ∀ {α : Type}, Action K σ α → Type (max 1 u)
  | part {α : Type} {action : Action K σ α} (isPart : part α action) : Script sees part action
  | pure {α : Type} (value : α) : Script sees part (Pure.pure value : Action K σ α)
  | fail {α : Type} (fault : Fault) (expected : fault.isInternal = false) :
      Script sees part (fail fault : Action K σ α)
  | read {α : Type} {next : σ → Action K σ α}
      (enough : ∀ left right, sees left = sees right → next left = next right)
      (continued : ∀ state, Script sees part (next state)) : Script sees part (get >>= next)
  | bind {α β : Type} {first : Action K σ α} {next : α → Action K σ β}
      (begins : Script sees part first) (continued : ∀ value, Script sees part (next value)) :
      Script sees part (first >>= next)
  | mapFault {α : Type} {action : Action K σ α} (change : Fault → Fault)
      (wraps : Fault.Wraps change) (script : Script sees part action) :
      Script sees part (action.mapFault change)
  | branch {α : Type} {condition : Prop} [Decidable condition] {yes no : Action K σ α}
      (onYes : Script sees part yes) (onNo : Script sees part no) :
      Script sees part (if condition then yes else no)

/-- What composition keeps. -/
structure Compositional {ω : Type} (sees : σ → ω) (holds : ∀ α : Type, Action K σ α → Prop) :
    Prop where
  pure : ∀ {α : Type} (value : α), holds α (Pure.pure value)
  fail : ∀ {α : Type} (fault : Fault), fault.isInternal = false → holds α (fail fault)
  read : ∀ {α : Type} {next : σ → Action K σ α},
    (∀ left right, sees left = sees right → next left = next right) →
      (∀ state, holds α (next state)) → holds α (get >>= next)
  bind : ∀ {α β : Type} {first : Action K σ α} {next : α → Action K σ β}, holds α first →
    (∀ value, holds β (next value)) → holds β (first >>= next)
  mapFault : ∀ {α : Type} {action : Action K σ α} (change : Fault → Fault), Fault.Wraps change →
    holds α action → holds α (action.mapFault change)

namespace Script

variable {ω : Type} {sees : σ → ω} {part : ∀ α : Type, Action K σ α → Sort u}
  {holds : ∀ α : Type, Action K σ α → Prop} {action : Action K σ α}

theorem holds_of_parts (script : Script sees part action) (compositional : Compositional sees holds)
    (parts : ∀ {α : Type} {action : Action K σ α}, part α action → holds α action) :
    holds α action := by
  induction script with
  | part isPart => exact parts isPart
  | pure value => exact compositional.pure value
  | fail fault expected => exact compositional.fail fault expected
  | read enough _ continued => exact compositional.read enough continued
  | bind _ _ begins continued => exact compositional.bind begins continued
  | mapFault change wraps _ ih => exact compositional.mapFault change wraps ih
  | branch _ _ onYes onNo =>
    split
    · exact onYes
    · exact onNo

def forEach {act : α → Action K σ Unit} (acts : ∀ value, Script sees part (act value)) :
    ∀ values : List α, Script sees part (Action.forEach act values)
  | [] => .pure ()
  | value :: rest => .bind (acts value) fun _ => forEach acts rest

def collect (gather : ∀ {α : Type} {action : Action K σ α}, part α action → Nat → σ → List τ) :
    ∀ {α : Type} {action : Action K σ α}, Script sees part action → Nat → σ → List τ
  | _, _, .part isPart, limit, state => gather isPart limit state
  | _, _, .pure _, _, _ => []
  | _, _, .fail _ _, _, _ => []
  | _, _, .read _ continued, limit, state => (continued state).collect gather limit state
  | _, _, @bind _ _ _ _ _ _ _ first _ begins continued, limit, state =>
    begins.collect gather limit state ++
      (first limit state).onDone fun value reached => (continued value).collect gather limit reached
  | _, _, .mapFault _ _ script, limit, state => script.collect gather limit state
  | _, _, @branch _ _ _ _ _ _ condition _ _ _ onYes onNo, limit, state =>
    if condition then onYes.collect gather limit state else onNo.collect gather limit state

end Script

theorem Compositional.closed {ω : Type} {sees : σ → ω} {holds : ∀ α : Type, Action K σ α → Prop}
    (compositional : Compositional sees holds) {action : Action K σ α}
    (script : Script sees holds action) : holds α action :=
  script.holds_of_parts compositional fun held => held

end Action

/-! What calls look at between their parts -/

/-- A solver, but for the constraints and what was made for them. -/
structure Outlook (K : Type) where
  config : Config K
  tableau : Tableau K
  unknowns : Table Variable (VariableInfo K)
  indices : List (Variable × Nat)
  depths : List Nat
  needsSolving : Bool

namespace Solver

open SoftSimplex.Action

def outlook (solver : Solver K) : Outlook K where
  config := solver.config
  tableau := solver.tableau
  unknowns := solver.unknowns
  indices := solver.edits.entries.map fun entry => (entry.1, entry.2.index)
  depths := solver.depths
  needsSolving := solver.needsSolving

section Looking

variable {left right : Solver K} (same : left.outlook = right.outlook)

include same

theorem value_of_outlook [Zero K] (unknown : Variable) : left.value unknown = right.value unknown := by
  have unknowns : left.unknowns = right.unknowns := congrArg Outlook.unknowns same
  unfold value
  rw [unknowns]

theorem containsVariable_of_outlook (unknown : Variable) :
    left.containsVariable unknown = right.containsVariable unknown := by
  have tableau : left.tableau = right.tableau := congrArg Outlook.tableau same
  unfold containsVariable
  rw [tableau]

theorem config_of_outlook : left.config = right.config := congrArg Outlook.config same

theorem depths_of_outlook : left.depths = right.depths := congrArg Outlook.depths same

theorem needsSolving_of_outlook : left.needsSolving = right.needsSolving :=
  congrArg Outlook.needsSolving same

theorem editCount_of_outlook : left.editCount = right.editCount := by
  have lengths := congrArg (·.indices.length) same
  simpa [outlook, editCount, Table.size] using lengths

theorem isEmpty_edits_of_outlook : left.edits.isEmpty = right.edits.isEmpty := by
  have empty := congrArg (·.indices.isEmpty) same
  simpa [outlook, Table.isEmpty] using empty

theorem doomed_of_outlook (count : Nat) :
    (left.edits.entries.filter fun entry => count ≤ entry.2.index).map Prod.fst =
      (right.edits.entries.filter fun entry => count ≤ entry.2.index).map Prod.fst := by
  have chosen := congrArg
    (fun look => (look.indices.filter fun entry => count ≤ entry.2).map Prod.fst) same
  simpa [outlook, List.filter_map, Function.comp_def] using chosen

theorem suggestions_of_outlook (targets : List K) :
    (left.edits.entries.filterMap fun entry =>
        targets[entry.2.index]?.map fun target => (entry.1, target)) =
      right.edits.entries.filterMap fun entry =>
        targets[entry.2.index]?.map fun target => (entry.1, target) := by
  have chosen := congrArg (fun look => look.indices.filterMap fun entry =>
    targets[entry.2]?.map fun target => (entry.1, target)) same
  simpa [outlook, List.filterMap_map, Function.comp_def] using chosen

end Looking

/-! Additions and removals -/

section Changing

variable [Zero K] [One K] [Add K] [Neg K] [Mul K] [Div K] [LT K] [DecidableLT K] [Scalar K]

/-- An addition, without the optimization after it. -/
def install (constraint : Constraint K) : Action K (Solver K) Unit := do
  let solver ← Action.get
  match solver.objection? constraint with
  | some fault => Action.fail fault
  | none =>
    Action.report [.adding constraint]
    let equation := solver.tableau.equationOf solver.nextId constraint.toDemand
    Action.modify ({ · with nextId := equation.nextId })
    match solver.tableau.choosePlacement? equation.row with
    | none =>
      Action.report [.contradicted constraint]
      Action.fail .requiredFailure
    | some placement =>
      match ← place equation placement with
      | .error fault =>
        Action.report [.refused constraint fault]
        Action.fail fault
      | .ok () => Action.modify (·.record constraint equation)

/-- A removal, without the optimization after it. -/
def uninstall (constraint : Constraint K) : Action K (Solver K) Unit := do
  let solver ← Action.get
  match solver.installed.get? constraint.key with
  | none => Action.fail .constraintNotFound
  | some entry =>
    Action.report [.removing constraint]
    Action.modify (·.withdraw constraint)
    onTableau (Tableau.dropMarker entry.marker)
    Action.modify (·.clearAway constraint entry.marker (solver.charges.get? constraint.key))

theorem add_eq (constraint : Constraint K) :
    add constraint = install constraint >>= fun _ => autoOptimize := by
  unfold add install
  rw [Action.bind_assoc]
  congr 1
  funext solver
  cases solver.objection? constraint with
  | some fault => rfl
  | none =>
    dsimp only
    rw [Action.bind_assoc]
    congr 1
    funext _
    rw [Action.bind_assoc]
    congr 1
    funext _
    cases solver.tableau.choosePlacement?
        (solver.tableau.equationOf solver.nextId constraint.toDemand).row with
    | none => rfl
    | some placement =>
      dsimp only
      rw [Action.bind_assoc]
      congr 1
      funext ended
      cases ended <;> rfl

theorem remove_eq (constraint : Constraint K) :
    remove constraint = uninstall constraint >>= fun _ => autoOptimize := by
  unfold remove uninstall
  rw [Action.bind_assoc]
  congr 1
  funext solver
  cases solver.installed.get? constraint.key with
  | none => rfl
  | some entry => simp only [Action.bind_assoc]

end Changing

variable {part : ∀ α : Type, Action K (Solver K) α → Sort u}

/-! Groups of constraints -/

section Grouping

variable [Zero K] [One K] [Add K] [Neg K] [Mul K] [Div K] [LT K] [DecidableLT K] [Scalar K]
  {unknown : Variable} {lower upper weight : K} {strength : Strength}

theorem holds_tryAdd {holds : ∀ α : Type, Action K (Solver K) α → Prop} {constraint : Constraint K}
    (compositional : Compositional outlook holds) (fails : ∀ fault, holds Bool (fail fault))
    (attempts : holds _ (add constraint).attempt) : holds _ (tryAdd constraint) := by
  refine compositional.bind attempts fun ended => ?_
  split
  · exact compositional.pure true
  · exact compositional.pure false
  · exact fails _

def addNewScript {demand : Demand K} (reserves : Script outlook part (freshConstraint demand))
    (adds : ∀ made, Script outlook part (add made)) : Script outlook part (addNew demand) :=
  .bind reserves fun made => .bind (adds made) fun _ => .pure made

def addBoundsScript
    (below : Script outlook part
      (addNew (.atLeast (.ofVariable unknown) (.ofConstant lower) .required)))
    (above : Script outlook part
      (addNew (.atMost (.ofVariable unknown) (.ofConstant upper) .required))) :
    Script outlook part (addBounds unknown lower upper) :=
  .bind below fun _ => .bind above fun _ => .pure _

def addStayScript
    (adds : ∀ value, Script outlook part (addNew (.stay unknown value strength weight))) :
    Script outlook part (addStay unknown strength weight) :=
  .read (fun _ _ same => by rw [value_of_outlook same]) fun _ => adds _

def addVariableScript (stays : Script outlook part (addStay unknown .weak 1)) :
    Script outlook part (addVariable unknown : Action K (Solver K) Unit) :=
  .read (fun _ _ same => by rw [containsVariable_of_outlook same]) fun _ =>
    .branch (.pure ()) (.bind (.mapFault _ (Fault.wraps_replacing (by decide)) stays) fun _ => .pure ())

def addPointStayScript (horizontal vertical : Variable)
    (stays : ∀ unknown, Script outlook part (addStay unknown .weak weight)) :
    Script outlook part (addPointStay horizontal vertical weight) :=
  .bind (stays horizontal) fun _ => .bind (stays vertical) fun _ => .pure _

def addPointStaysFromScript
    (stays : ∀ unknown weight, Script outlook part (addStay unknown .weak weight)) :
    ∀ (weight : K) (points : List (Variable × Variable)),
      Script outlook part (addPointStaysFrom weight points)
  | _, [] => .pure []
  | weight, _ :: rest =>
    .bind (addPointStayScript _ _ fun unknown => stays unknown weight) fun _ =>
      .read (fun _ _ same => by rw [config_of_outlook same]) fun _ =>
        .bind (addPointStaysFromScript stays _ rest) fun _ => .pure _

def solveScript (optimizes : Script outlook part optimize) :
    Script outlook part (solve : Action K (Solver K) Unit) :=
  .read (fun _ _ same => by rw [needsSolving_of_outlook same]) fun _ =>
    .branch optimizes (.pure ())

end Grouping

/-! The edit protocol -/

section Editing

variable [Zero K]

def opened (solver : Solver K) : Solver K :=
  { (solver.setTableau solver.tableau.clearInfeasible).settleStays with
    depths := solver.editCount :: solver.depths }

omit [Zero K] in
def closed (solver : Solver K) : Solver K := { solver with depths := solver.depths.tail }

def beginEditScript (announces : ∀ count, Script outlook part (report [.beginEdit count]))
    (opens : Script outlook part (modify opened)) :
    Script outlook part (beginEdit : Action K (Solver K) Unit) :=
  .read (fun _ _ same => by rw [isEmpty_edits_of_outlook same, editCount_of_outlook same])
    fun _ => .branch (.fail _ rfl) (.bind (announces _) fun _ => opens)

variable [One K] [Add K] [Neg K] [Mul K] [Div K] [LT K] [DecidableLT K] [Scalar K]
  {unknown : Variable} {strength : Strength} {target : K}

def addEditScript (reserves : ∀ demand, Script outlook part (freshConstraint demand))
    (adds : ∀ made, Script outlook part (add made)) :
    Script outlook part (addEdit unknown strength : Action K (Solver K) Unit) :=
  .read (fun _ _ same => by rw [value_of_outlook same]) fun _ => .bind (reserves _) fun made =>
    .mapFault _ (Fault.wraps_replacing (by decide)) (adds made)

def addDefaultEditScript (edits : ∀ strength, Script outlook part (addEdit unknown strength)) :
    Script outlook part (addDefaultEdit unknown : Action K (Solver K) Unit) :=
  .read (fun _ _ same => by rw [config_of_outlook same]) fun _ => edits _

def removeRegisteredScript (removes : Script outlook part (removeEdit unknown)) :
    Script outlook part (removeRegistered unknown : Action K (Solver K) Unit) :=
  .mapFault _ (Fault.wraps_replacing (by decide)) removes

def trimEditsScript (removes : ∀ unknown, Script outlook part (removeEdit unknown))
    {count : Nat}
    (warns : ∀ kept, Script outlook part (report [.diagnostic (.editCountMismatch count kept)])) :
    Script outlook part (trimEdits count : Action K (Solver K) Unit) :=
  .read (fun _ _ same => by rw [doomed_of_outlook same]) fun _ =>
    .bind (.forEach (fun unknown => removeRegisteredScript (removes unknown)) _) fun _ =>
      .read (fun _ _ same => by rw [editCount_of_outlook same]) fun _ =>
        .branch (.pure ()) (warns _)

variable [LE K] [DecidableLE K]

def endEditScript (resolves : Script outlook part resolve)
    (closes : Script outlook part (modify closed))
    (announces : ∀ kept, Script outlook part (report [.endEdit kept]))
    (trims : ∀ count, Script outlook part (trimEdits count)) :
    Script outlook part (endEdit : Action K (Solver K) Unit) :=
  .read (fun _ _ same => by rw [isEmpty_edits_of_outlook same, depths_of_outlook same]) fun _ =>
    .branch (.fail _ rfl) (.branch (.fail _ rfl) (.bind resolves fun _ => .bind closes fun _ =>
      .read (fun _ _ same => by rw [depths_of_outlook same]) fun _ =>
        .bind (announces _) fun _ => trims _))

variable [Sub K]

def resolveAtScript (suggests : ∀ unknown target, Script outlook part (suggest unknown target))
    (resolves : Script outlook part resolve) (targets : List K) :
    Script outlook part (resolveAt targets) :=
  .read (fun _ _ same => by rw [suggestions_of_outlook same]) fun _ =>
    .bind (.forEach (fun suggestion : Variable × K => suggests suggestion.1 suggestion.2) _)
      fun _ => resolves

def editValue (unknown : Variable) (target : K) : Action K (Solver K) Unit := do
  addDefaultEdit unknown
  beginEdit
  (suggest unknown target).mapFault fun _ => .internal .suggestionRefused
  endEdit

def editValueScript (edits : Script outlook part (addDefaultEdit unknown))
    (begins : Script outlook part beginEdit) (suggests : Script outlook part (suggest unknown target))
    (ends : Script outlook part endEdit) : Script outlook part (editValue unknown target) :=
  .bind edits fun _ => .bind begins fun _ =>
    .bind (.mapFault _ (Fault.wraps_const nofun) suggests) fun _ => ends

def setEditedValueScript (assigns : Script outlook part (modify (·.setValue unknown target)))
    (edits : Script outlook part (editValue unknown target)) :
    Script outlook part (setEditedValue unknown target) :=
  .read (fun _ _ same => by
    rw [containsVariable_of_outlook same, value_of_outlook same]) fun _ =>
      .branch assigns (.branch (.pure ()) edits)

end Editing

/-! The operations of a solver -/

variable [Zero K] [One K] [Add K] [Sub K] [Neg K] [Mul K] [Div K] [LT K] [DecidableLT K] [LE K]
  [DecidableLE K] [Scalar K]

/-- What the operations that calls run are put together from. -/
inductive Basic : ∀ α : Type, Action K (Solver K) α → Prop
  | reserve (demand : Demand K) : Basic _ (freshConstraint demand)
  | add (constraint : Constraint K) : Basic _ (add constraint)
  | tryAdd (constraint : Constraint K) : Basic _ (tryAdd constraint)
  | remove (constraint : Constraint K) : Basic _ (remove constraint)
  | removeEdit (unknown : Variable) : Basic _ (removeEdit unknown)
  | suggest (unknown : Variable) (target : K) : Basic _ (suggest unknown target)
  | optimize : Basic _ optimize
  | resolve : Basic _ resolve
  | beginEdit : Basic _ beginEdit
  | endEdit : Basic _ endEdit
  | warn (warning : Diagnostic) : Basic _ (report [.diagnostic warning])
  | assign (unknown : Variable) (value : K) : Basic _ (modify (·.setValue unknown value))
  | configure (autoSolve : Bool) : Basic _ (modify (·.setAutoSolve autoSolve))

namespace Basic

def addNewScript (demand : Demand K) : Script outlook Basic (addNew demand) :=
  Solver.addNewScript (.part (.reserve demand)) fun made => .part (.add made)

def addStayScript (unknown : Variable) (strength : Strength) (weight : K) :
    Script outlook Basic (addStay unknown strength weight) :=
  Solver.addStayScript fun _ => addNewScript _

def addEditScript (unknown : Variable) (strength : Strength) :
    Script outlook Basic (addEdit unknown strength : Action K (Solver K) Unit) :=
  Solver.addEditScript (fun _ => .part (.reserve _)) fun _ => .part (.add _)

def addDefaultEditScript (unknown : Variable) :
    Script outlook Basic (addDefaultEdit unknown : Action K (Solver K) Unit) :=
  Solver.addDefaultEditScript (addEditScript unknown)

def trimEditsScript (count : Nat) :
    Script outlook Basic (trimEdits count : Action K (Solver K) Unit) :=
  Solver.trimEditsScript (fun _ => .part (.removeEdit _)) fun _ => .part (.warn _)

def setEditedValueScript (unknown : Variable) (target : K) :
    Script outlook Basic (setEditedValue unknown target) :=
  Solver.setEditedValueScript (.part (.assign unknown target))
    (editValueScript (addDefaultEditScript unknown) (.part .beginEdit)
      (.part (.suggest unknown target)) (.part .endEdit))

end Basic

end Solver

/-! The calls of a session -/

namespace Session

open SoftSimplex.Action Solver

variable [Zero K] [One K] [Add K] [Sub K] [Neg K] [Mul K] [Div K] [LT K] [DecidableLT K] [LE K]
  [DecidableLE K] [Scalar K]

inductive Changes : ∀ α : Type, Action K (Session K) α → Prop
  | solver {α : Type} {action : Action K (Solver K) α} (script : Script outlook Basic action) :
      Changes α (onSolver action)
  | create (name : Option String) (value : K) : Changes _ (perform (.newVariable name value))
  | hold (made : List (Constraint K)) : Changes _ (modify (hold made))
  | reset : Changes _ (perform .reset)

def nothingScript {action : Action K (Solver K) Unit} (script : Script outlook Basic action) :
    Script id Changes (nothing action) := .bind (.part (.solver script)) fun _ => .pure _

def holdingScript {action : Action K (Solver K) α} {made : α → List (Constraint K)}
    (script : Script outlook Basic action) : Script id Changes (holding action made) :=
  .bind (.part (.solver script)) fun _ => .bind (.part (.hold _)) fun _ => .pure _

def withHeldScript {key : Nat} {act : Constraint K → Action K (Session K) α}
    (acts : ∀ constraint, Script id Changes (act constraint)) :
    Script id Changes (withHeld key act) :=
  .read (fun _ _ same => by obtain rfl : _ = _ := same; rfl) fun session =>
    match session.held.get? key with
    | none => .fail _ rfl
    | some constraint => acts constraint

def performScript : ∀ request : Call K, Script id Changes (perform request)
  | .newVariable name value => .part (.create name value)
  | .make demand => holdingScript (.part (.reserve demand))
  | .setStrength _ _ => withHeldScript fun _ => .bind (.part (.hold _)) fun _ => .pure _
  | .add _ => withHeldScript fun constraint => nothingScript (.part (.add constraint))
  | .tryAdd _ => withHeldScript fun constraint =>
    .bind (.part (.solver (.part (.tryAdd constraint)))) fun _ => .pure _
  | .remove _ => withHeldScript fun constraint => nothingScript (.part (.remove constraint))
  | .addLowerBound _ _ => holdingScript (Basic.addNewScript _)
  | .addUpperBound _ _ => holdingScript (Basic.addNewScript _)
  | .addBounds _ _ _ =>
    holdingScript (addBoundsScript (Basic.addNewScript _) (Basic.addNewScript _))
  | .addStay unknown strength weight => holdingScript (Basic.addStayScript unknown strength weight)
  | .addPointStay _ _ weight =>
    holdingScript (addPointStayScript _ _ fun unknown => Basic.addStayScript unknown .weak weight)
  | .addPointStays points => holdingScript
    (addPointStaysFromScript (fun unknown weight => Basic.addStayScript unknown .weak weight) 1 points)
  | .addVariable unknown =>
    nothingScript (addVariableScript (Basic.addStayScript unknown .weak 1))
  | .addEdit unknown strength => nothingScript (Basic.addEditScript unknown strength)
  | .addDefaultEdit unknown => nothingScript (Basic.addDefaultEditScript unknown)
  | .removeEdit unknown => nothingScript (.part (.removeEdit unknown))
  | .trimEdits count => nothingScript (Basic.trimEditsScript count)
  | .removeAllEdits => nothingScript (Basic.trimEditsScript 0)
  | .beginEdit => nothingScript (.part .beginEdit)
  | .endEdit => nothingScript (.part .endEdit)
  | .suggest unknown target => nothingScript (.part (.suggest unknown target))
  | .resolve => nothingScript (.part .resolve)
  | .resolveAt targets => nothingScript
    (resolveAtScript (fun unknown target => .part (.suggest unknown target)) (.part .resolve) targets)
  | .setEditedValue unknown target => nothingScript (Basic.setEditedValueScript unknown target)
  | .solve => nothingScript (solveScript (.part .optimize))
  | .reset => .part .reset
  | .setAutoSolve autoSolve => nothingScript (.part (.configure autoSolve))

end Session

end SoftSimplex
