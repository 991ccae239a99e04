import SoftSimplex.Proofs.Charging
import SoftSimplex.Proofs.Chronicle
import SoftSimplex.Proofs.Exact
import SoftSimplex.Proofs.HiddenStrengths

/-!
Changes of strength in a run. Of two sessions that are made the same calls, the one also changes the
strengths of constraints while they are in its solver. As long as no such constraint is added anew
when it is out, the two sessions differ in these strengths and in nothing else.
-/

namespace SoftSimplex

variable {K α : Type}

/-- The copies of a constraint that a solver keeps follow its strength. -/
def Solver.restrengthen (solver : Solver K) (key : Nat) (strength : Strength) : Solver K :=
  let renew := fun constraint : Constraint K =>
    if constraint.key = key then constraint.withStrength strength else constraint
  { solver with
    installed := solver.installed.mapValues fun entry =>
      { entry with constraint := renew entry.constraint }
    edits := solver.edits.mapValues fun info => { info with constraint := renew info.constraint } }

theorem Solver.alike_restrengthen {keys : List Nat} (solver : Solver K) {key : Nat}
    (changed : key ∈ keys) (strength : Strength) :
    solver.Alike keys (solver.restrengthen key strength) := by
  have covered : ∀ constraint : Constraint K,
      (if constraint.key = key then constraint.withStrength strength else constraint).masked keys =
        constraint.masked keys := by
    intro constraint
    split
    · exact Constraint.masked_withStrength (‹constraint.key = key› ▸ changed) strength
    · rfl
  refine ⟨_, _, rfl, ?_, ?_⟩
  · rw [Table.mapValues_mapValues]
    exact congrArg solver.installed.mapValues (funext fun entry =>
      congrArg (fun constraint => { entry with constraint }) (covered entry.constraint))
  · rw [Table.mapValues_mapValues]
    exact congrArg solver.edits.mapValues (funext fun info =>
      congrArg (fun constraint => { info with constraint }) (covered info.constraint))

namespace Session

structure Alike (keys : List Nat) (left right : Session K) : Prop where
  solver : left.solver.Alike keys right.solver
  held : right.held.mapValues (Constraint.masked keys) = left.held.mapValues (Constraint.masked keys)
  sink : right.sink = left.sink

variable {keys more : List Nat} {left right session : Session K} {limit : Nat}

theorem Alike.refl (keys : List Nat) (session : Session K) : session.Alike keys session :=
  ⟨.refl keys _, rfl, rfl⟩

theorem Alike.mono (alike : left.Alike keys right) (wider : keys ⊆ more) :
    left.Alike more right := by
  have covers : Constraint.masked more ∘ Constraint.masked keys =
      (Constraint.masked more : Constraint K → _) := funext (Constraint.masked_masked wider)
  refine ⟨alike.solver.mono wider, ?_, alike.sink⟩
  have covered := congrArg (Table.mapValues (Constraint.masked more)) alike.held
  rwa [Table.mapValues_mapValues, Table.mapValues_mapValues, covers] at covered

/-! What is read from both sides -/

section Reading

variable (alike : left.Alike keys right)

include alike

theorem Alike.held_cases (key : Nat) :
    left.held.get? key = none ∧ right.held.get? key = none ∨
      ∃ constraint other, left.held.get? key = some constraint ∧
        right.held.get? key = some other ∧ constraint.masked keys = other.masked keys := by
  have found := congrArg (Table.get? · key) alike.held
  simp only [Table.get?_mapValues] at found
  cases here : left.held.get? key <;> cases there : right.held.get? key <;> simp_all

theorem Alike.current (constraint other : Constraint K)
    (same : constraint.masked keys = other.masked keys) :
    (left.current constraint).masked keys = (right.current other).masked keys := by
  have sameKey : constraint.key = other.key := by
    simpa using congrArg (·.key) same
  unfold Session.current
  rw [sameKey]
  rcases alike.held_cases other.key with ⟨here, there⟩ | ⟨_, _, here, there, covered⟩
  · rw [here, there]
    exact same
  · rw [here, there]
    exact covered

theorem Alike.constraints :
    left.constraints.map (Constraint.masked keys) = right.constraints.map (Constraint.masked keys) := by
  have covered : ∀ constraint : Constraint K,
      constraint.masked keys = (constraint.masked keys).masked keys := fun constraint =>
    (Constraint.masked_masked (List.Subset.refl keys) constraint).symm
  let shown := fun constraint : Constraint K => (right.current constraint).masked keys
  have here : Constraint.masked keys ∘ left.current = shown ∘ Constraint.masked keys :=
    funext fun constraint => alike.current constraint _ (covered constraint)
  have there : Constraint.masked keys ∘ right.current = shown ∘ Constraint.masked keys :=
    funext fun constraint => (Alike.refl keys right).current constraint _ (covered constraint)
  have listed : left.solver.constraints.map (Constraint.masked keys) =
      right.solver.constraints.map (Constraint.masked keys) := by
    obtain ⟨installed, _, same, maskedInstalled, _⟩ := alike.solver
    have entries := congrArg (fun table : Table Nat (Installed K) =>
      table.values.map (·.constraint)) maskedInstalled
    simp only [Table.values, Table.mapValues, List.map_map] at entries
    simp only [same, Solver.constraints, Table.values, List.map_map]
    exact entries.symm
  unfold Session.constraints
  rw [List.map_map, List.map_map, here, there, ← List.map_map, listed, List.map_map]

end Reading

/-! Steps -/

theorem Alike.hold (alike : left.Alike keys right) {made others : List (Constraint K)}
    (same : made.map (Constraint.masked keys) = others.map (Constraint.masked keys)) :
    (left.hold made).Alike keys (right.hold others) := by
  have held : ∀ (made : List (Constraint K)) (held : Table Nat (Constraint K)),
      (made.foldl (fun held constraint => held.insert constraint.key constraint) held).mapValues
          (Constraint.masked keys) =
        (made.map (Constraint.masked keys)).foldl
          (fun held constraint => held.insert constraint.key constraint)
          (held.mapValues (Constraint.masked keys)) := by
    intro made
    induction made with
    | nil => exact fun _ => rfl
    | cons constraint rest ih =>
      intro held
      rw [List.foldl_cons, ih, Table.mapValues_insert, List.map_cons, List.foldl_cons,
        Constraint.key_masked]
  refine ⟨alike.solver, ?_, alike.sink⟩
  unfold Session.hold
  rw [held, held, alike.held, same]

theorem writeDiagnostics_of_alike {events echoes : List (Event K)}
    (alike : List.Forall₂ (Event.Alike keys) events echoes) (sink : Sink) :
    writeDiagnostics echoes sink = writeDiagnostics events sink := by
  have diagnostics : echoes.filterMap (·.diagnostic?) = events.filterMap (·.diagnostic?) := by
    induction alike with
    | nil => rfl
    | @cons event echo _ _ same _ ih =>
      have told : echo.diagnostic? = event.diagnostic? := by
        have covered := congrArg Event.diagnostic? (show event.masked keys = echo.masked keys from same)
        simpa only [Event.diagnostic?_masked] using covered.symm
      rw [List.filterMap_cons, List.filterMap_cons, told, ih]
  unfold writeDiagnostics
  rw [diagnostics]

/-! Changes of strength -/

section Changes

variable {key : Nat} {constraint : Constraint K}

def HeldUnderKeys (session : Session K) : Prop :=
  ∀ key constraint, session.held.get? key = some constraint → constraint.key = key

theorem HeldUnderKeys.hold (heldUnderKeys : session.HeldUnderKeys) (made : List (Constraint K)) :
    (session.hold made).HeldUnderKeys := by
  intro key constraint found
  rcases get?_held_hold made found with old | ⟨_, same⟩
  · exact heldUnderKeys key constraint old
  · exact same

theorem Alike.strengthen (alike : left.Alike keys right) (heldUnderKeys : right.HeldUnderKeys)
    (isHeld : right.held.get? key = some constraint) (strength : Strength) :
    left.Alike (key :: keys) (right.hold [constraint.withStrength strength]) := by
  obtain ⟨solver, held, sink⟩ := alike.mono (List.subset_cons_self key keys)
  refine ⟨solver, ?_, sink⟩
  have sameKey := heldUnderKeys key constraint isHeld
  have covered : (constraint.withStrength strength).masked (key :: keys) =
      constraint.masked (key :: keys) :=
    Constraint.masked_withStrength (sameKey ▸ List.mem_cons_self) strength
  have found : (right.held.mapValues (Constraint.masked (key :: keys))).get? constraint.key =
      some (constraint.masked (key :: keys)) := by
    rw [Table.get?_mapValues, sameKey, isHeld]
    rfl
  rw [← held, Session.hold, List.foldl_cons, List.foldl_nil, Table.mapValues_insert, covered]
  exact Table.insert_eq_self found

theorem Alike.follow (alike : left.Alike keys right) (changed : key ∈ keys) (strength : Strength) :
    left.Alike keys { right with solver := right.solver.restrengthen key strength } :=
  ⟨alike.solver.trans (Solver.alike_restrengthen _ changed strength), alike.held, alike.sink⟩

end Changes

open SoftSimplex.Action Solver

section Combining

variable (alike : left.Alike keys right)

include alike

theorem parallel_onSolver {action other : Action K (Solver K) α}
    (runs : (action limit left.solver).Parallel (Solver.Alike keys) (Event.Alike keys)
      (other limit right.solver)) :
    (onSolver action limit left).Parallel (Alike keys) (Event.Alike keys)
      (onSolver other limit right) := by
  have written : ∀ {solver echo : Solver K} {events echoes : List (Event K)},
      solver.Alike keys echo → List.Forall₂ (Event.Alike keys) events echoes →
        Alike keys { left with solver, sink := writeDiagnostics events left.sink }
          { right with solver := echo, sink := writeDiagnostics echoes right.sink } :=
    fun ends reports => ⟨ends, alike.held, by rw [alike.sink, writeDiagnostics_of_alike reports]⟩
  unfold onSolver
  generalize action limit left.solver = outcome, other limit right.solver = mirrored at runs
  cases runs with
  | done ends reports => exact .done (written ends reports) reports
  | failed ends reports => exact .failed (written ends reports) reports
  | unfinished => exact .unfinished

theorem parallel_nothing {action other : Action K (Solver K) Unit}
    (runs : (action limit left.solver).Parallel (Solver.Alike keys) (Event.Alike keys)
      (other limit right.solver)) :
    (nothing action limit left).Parallel (Alike keys) (Event.Alike keys)
      (nothing other limit right) :=
  parallel_bind (parallel_onSolver alike runs) fun _ _ _ reached => parallel_pure reached _

theorem parallel_withHeld {key : Nat} {act : Constraint K → Action K (Session K) α}
    (acts : ∀ constraint other, left.held.get? key = some constraint →
      constraint.masked keys = other.masked keys →
      (act constraint limit left).Parallel (Alike keys) (Event.Alike keys)
        (act other limit right)) :
    (withHeld key act limit left).Parallel (Alike keys) (Event.Alike keys)
      (withHeld key act limit right) := by
  refine parallel_get ?_
  rcases alike.held_cases key with ⟨here, there⟩ | ⟨constraint, other, here, there, same⟩
  · rw [here, there]
    exact parallel_fail alike _
  · rw [here, there]
    exact acts constraint other here same

end Combining

/-! Calls -/

/-- The call adds a constraint anew of which the strength was changed. -/
def Readds (keys : List Nat) (session : Session K) : Call K → Prop
  | .add key | .tryAdd key => ∃ constraint, session.held.get? key = some constraint ∧
    constraint.key ∈ keys ∧ session.solver.hasConstraint constraint = false
  | _ => False

variable [Zero K] [One K] [Add K] [Sub K] [Neg K] [Mul K] [Div K] [LT K] [DecidableLT K] [LE K]
  [DecidableLE K] [Scalar K]

omit [Sub K] [LE K] [DecidableLE K] in
theorem parallel_add (alike : left.solver.Alike keys right.solver) {constraint other : Constraint K}
    (same : constraint.masked keys = other.masked keys)
    (settled : constraint.key ∈ keys → left.solver.hasConstraint constraint = true) :
    (Solver.add constraint limit left.solver).Parallel (Solver.Alike keys) (Event.Alike keys)
      (Solver.add other limit right.solver) := by
  have sameKey : constraint.key = other.key := by
    simpa using congrArg (·.key) same
  by_cases touched : constraint.key ∈ keys
  · have here := settled touched
    have there : right.solver.hasConstraint other = true := by
      rw [alike.hasConstraint]
      unfold Solver.hasConstraint at here ⊢
      rwa [← sameKey]
    rw [Solver.add_of_installed here, Solver.add_of_installed there]
    exact .failed alike .nil
  · rw [Constraint.masked_of_not_mem touched, Constraint.masked_of_not_mem (sameKey ▸ touched)] at same
    rw [same]
    exact Solver.preserves_add other limit _ _ alike

omit [Sub K] [LE K] [DecidableLE K] in
theorem parallel_tryAdd (alike : left.solver.Alike keys right.solver)
    {constraint other : Constraint K} (same : constraint.masked keys = other.masked keys)
    (settled : constraint.key ∈ keys → left.solver.hasConstraint constraint = true) :
    (Solver.tryAdd constraint limit left.solver).Parallel (Solver.Alike keys) (Event.Alike keys)
      (Solver.tryAdd other limit right.solver) := by
  refine parallel_bind (parallel_attempt (parallel_add alike same settled)) ?_
  intro ended reached echo alike
  split
  · exact parallel_pure alike true
  · exact parallel_pure alike false
  · exact parallel_fail alike _

section Scripted

variable (alike : left.Alike keys right)

include alike

theorem parallel_script {action : Action K (Solver K) Unit} (script : Script outlook Basic action) :
    (nothing action limit left).Parallel (Alike keys) (Event.Alike keys)
      (nothing action limit right) :=
  parallel_nothing alike (Solver.preserves_of_script script limit _ _ alike.solver)

theorem parallel_holding {action : Action K (Solver K) α} (script : Script outlook Basic action)
    (made : α → List (Constraint K)) :
    (holding action made limit left).Parallel (Alike keys) (Event.Alike keys)
      (holding action made limit right) := by
  have runs := parallel_onSolver alike
    (Solver.preserves_of_script script limit _ _ alike.solver)
  exact parallel_bind runs fun _ _ _ reached =>
    parallel_bind (parallel_modify (reached.hold rfl)) fun _ _ _ held => parallel_pure held _

end Scripted

theorem parallel_perform (alike : left.Alike keys right) {request : Call K}
    (once : ¬ left.Readds keys request) :
    (perform request limit left).Parallel (Alike keys) (Event.Alike keys)
      (perform request limit right) := by
  cases request with
  | newVariable name value =>
    refine parallel_get ?_
    obtain ⟨⟨installed, edits, same, sameInstalled, sameEdits⟩, held, sink⟩ := alike
    rw [same]
    exact .done ⟨⟨installed, edits, rfl, sameInstalled, sameEdits⟩, held, sink⟩ .nil
  | make demand => exact parallel_holding alike (.part (.reserve demand)) _
  | setStrength key strength =>
    refine parallel_withHeld alike fun constraint other _ same => ?_
    have changed := Constraint.withStrength_eq_of_masked same strength
    exact parallel_bind (parallel_modify (alike.hold (by rw [changed]))) fun _ _ _ reached =>
      parallel_pure reached _
  | add key =>
    refine parallel_withHeld alike fun constraint other found same =>
      parallel_nothing alike (parallel_add alike.solver same fun touched => ?_)
    simpa using fun missing => once ⟨constraint, found, touched, missing⟩
  | tryAdd key =>
    refine parallel_withHeld alike fun constraint other found same =>
      parallel_bind (parallel_onSolver alike (parallel_tryAdd alike.solver same fun touched => ?_))
        fun _ _ _ reached => parallel_pure reached _
    simpa using fun missing => once ⟨constraint, found, touched, missing⟩
  | remove key =>
    exact parallel_withHeld alike fun _ _ _ same =>
      parallel_nothing alike (Solver.parallel_remove same alike.solver)
  | addLowerBound unknown lower => exact parallel_holding alike (Basic.addNewScript _) _
  | addUpperBound unknown upper => exact parallel_holding alike (Basic.addNewScript _) _
  | addBounds unknown lower upper =>
    exact parallel_holding alike (addBoundsScript (Basic.addNewScript _) (Basic.addNewScript _)) _
  | addStay unknown strength weight => exact parallel_holding alike (Basic.addStayScript _ _ _) _
  | addPointStay horizontal vertical weight =>
    exact parallel_holding alike (addPointStayScript _ _ fun _ => Basic.addStayScript _ _ _) _
  | addPointStays points =>
    exact parallel_holding alike
      (addPointStaysFromScript (fun _ _ => Basic.addStayScript _ _ _) 1 points) _
  | addVariable unknown =>
    exact parallel_script alike (addVariableScript (Basic.addStayScript unknown .weak 1))
  | addEdit unknown strength => exact parallel_script alike (Basic.addEditScript unknown strength)
  | addDefaultEdit unknown => exact parallel_script alike (Basic.addDefaultEditScript unknown)
  | removeEdit unknown => exact parallel_script alike (.part (.removeEdit unknown))
  | trimEdits count => exact parallel_script alike (Basic.trimEditsScript count)
  | removeAllEdits => exact parallel_script alike (Basic.trimEditsScript 0)
  | beginEdit => exact parallel_script alike (.part .beginEdit)
  | endEdit => exact parallel_script alike (.part .endEdit)
  | suggest unknown target => exact parallel_script alike (.part (.suggest unknown target))
  | resolve => exact parallel_script alike (.part .resolve)
  | resolveAt targets =>
    exact parallel_script alike
      (resolveAtScript (fun _ _ => .part (.suggest _ _)) (.part .resolve) targets)
  | setEditedValue unknown target =>
    exact parallel_script alike (Basic.setEditedValueScript unknown target)
  | solve => exact parallel_script alike (solveScript (.part .optimize))
  | reset => exact .failed alike .nil
  | setAutoSolve autoSolve => exact parallel_script alike (.part (.configure autoSolve))

/-! Runs -/

theorem heldUnderKeys_perform (request : Call K) : (perform request).Keeps HeldUnderKeys := by
  refine (performScript request).holds_of_parts (compositional_keeps _ _) fun change => ?_
  cases change with
  | @solver _ action _ =>
    intro limit session heldUnderKeys
    unfold onSolver
    cases action limit session.solver <;> first | exact heldUnderKeys | trivial
  | create name value => exact fun _ _ heldUnderKeys => heldUnderKeys
  | hold made => exact keeps_modify fun _ heldUnderKeys => heldUnderKeys.hold made
  | reset => exact keeps_fail _

/-- Two runs of the same calls, with what the first one reports. The second also changes strengths:
those under the keys, each first changed while the constraint was in the solver. -/
inductive Restrengthened : List Nat → List (Event K) → Session K → Session K → Prop
  | fresh (config : Config K) (sink : Sink) :
      Restrengthened [] [] (start (.withConfig config) sink) (start (.withConfig config) sink)
  /-- A call that both are made. -/
  | both {keys : List Nat} {log : List (Event K)} {left right leftNext rightNext : Session K}
      {request : Call K} {limit : Nat} (earlier : Restrengthened keys log left right)
      (once : ¬ left.Readds keys request)
      (leftEnds : (perform request limit left).state? = some leftNext)
      (rightEnds : (perform request limit right).state? = some rightNext) :
      Restrengthened keys (log ++ (perform request limit left).events) leftNext rightNext
  /-- The constraints that are shown are held from now on, those of edit variables too. -/
  | take {keys : List Nat} {log : List (Event K)} {left right : Session K}
      (earlier : Restrengthened keys log left right) :
      Restrengthened keys log (left.hold left.constraints) (right.hold right.constraints)
  | strengthen {keys : List Nat} {log : List (Event K)} {left right next : Session K} {key : Nat}
      {constraint : Constraint K} {strength : Strength} {limit : Nat}
      (earlier : Restrengthened keys log left right)
      (isHeld : right.held.get? key = some constraint)
      (installed : right.solver.hasConstraint constraint = true)
      (ends : (perform (.setStrength key strength) limit right).state? = some next) :
      Restrengthened (key :: keys) log left next
  /-- The copies in the solver may follow at any time, or never. -/
  | follow {keys : List Nat} {log : List (Event K)} {left right : Session K} {key : Nat}
      (earlier : Restrengthened keys log left right) (changed : key ∈ keys) (strength : Strength) :
      Restrengthened keys log left
        { right with solver := right.solver.restrengthen key strength }

variable {log : List (Event K)} {next : Session K} {key : Nat} {strength : Strength}
  {constraint : Constraint K}

theorem perform_setStrength (isHeld : session.held.get? key = some constraint)
    (ends : (perform (.setStrength key strength) limit session).state? = some next) :
    next = session.hold [constraint.withStrength strength] := by
  have done : perform (.setStrength key strength) limit session =
      .done .nothing (session.hold [constraint.withStrength strength]) [] := by
    change withHeld key _ limit session = _
    unfold withHeld
    rw [get_bind, isHeld]
    rfl
  rw [done] at ends
  exact (Option.some.inj ends).symm

namespace Restrengthened

theorem of_recorded (recorded : Recorded session log) :
    Restrengthened [] log session session := by
  induction recorded with
  | fresh config sink => exact .fresh config sink
  | @call session _ _ request _ _ _ returns ih =>
    refine .both ih ?_ returns returns
    cases request <;> simp [Readds]

theorem heldUnderKeys (run : Restrengthened keys log left right) :
    left.HeldUnderKeys ∧ right.HeldUnderKeys := by
  induction run with
  | fresh config sink => exact ⟨nofun, nofun⟩
  | @both _ _ left right _ _ request limit _ _ leftEnds rightEnds ih =>
    exact ⟨(heldUnderKeys_perform request limit left ih.1).of_state? leftEnds,
      (heldUnderKeys_perform request limit right ih.2).of_state? rightEnds⟩
  | take _ ih => exact ⟨ih.1.hold _, ih.2.hold _⟩
  | strengthen _ isHeld _ ends ih =>
    rw [perform_setStrength isHeld ends]
    exact ⟨ih.1, ih.2.hold _⟩
  | follow _ _ _ ih => exact ih

theorem alike (run : Restrengthened keys log left right) : left.Alike keys right := by
  induction run with
  | fresh config sink => exact .refl [] _
  | both _ once leftEnds rightEnds ih =>
    exact (parallel_perform ih once).of_state? leftEnds rightEnds
  | take _ ih => exact ih.hold ih.constraints
  | strengthen earlier isHeld _ ends ih =>
    rw [perform_setStrength isHeld ends]
    exact ih.strengthen earlier.heldUnderKeys.2 isHeld _
  | follow _ changed strength ih => exact ih.follow changed strength

theorem chronicles (run : Restrengthened keys log left right) :
    left.solver.Keyed ∧ left.solver.constraints = standing log ∧
      Solver.Charged left.solver.records := by
  induction run with
  | fresh config sink => exact ⟨nofun, rfl, fun _ => rfl⟩
  | @both _ log left _ _ _ request limit _ _ leftEnds _ ih =>
    obtain ⟨keyed, stands, charged⟩ := ih
    have told := (chronicled_perform request limit left keyed).of_state? leftEnds
    refine ⟨told.keyed, ?_, (charged_perform request limit left charged).of_state? leftEnds⟩
    rw [told.standing, stands, standing, standing, List.foldl_append]
  | take _ ih => exact ih
  | strengthen _ _ _ _ ih => exact ih
  | follow _ _ _ ih => exact ih

end Restrengthened

/-- At any time of such runs the two sessions are alike, show the same constraints, and take every
further call alike, but for one that adds a changed constraint anew: they return the same or fail by
the same fault. What the addition of a constraint puts into the objective is what its removal takes
out again. -/
theorem alike_of_restrengthened (run : Restrengthened keys log left right) :
    left.Alike keys right ∧
      left.constraints.map (Constraint.masked keys) = right.constraints.map (Constraint.masked keys) ∧
      (∀ limit request, ¬ left.Readds keys request →
        (perform request limit left).Parallel (Alike keys) (Event.Alike keys)
          (perform request limit right)) ∧
      ∀ constraint ∈ standing log, ∃ marker,
        left.solver.installed.get? constraint.key = some ⟨constraint, marker⟩ ∧
        (∀ before placement tableau nextId after,
          Solver.Installs before constraint placement tableau nextId after →
          after.installed.get? constraint.key = some ⟨constraint, marker⟩ →
            before.charged constraint =
              Solver.chargeObjective (constraint.chargeAt marker.id) before.tableau) ∧
        ∀ other : Constraint K, other.key = constraint.key → (right.solver.withdraw other).tableau =
          right.solver.settleStays.tableau.refunded (constraint.chargeAt marker.id) := by
  have alike := run.alike
  refine ⟨alike, alike.constraints, fun _ _ once => parallel_perform alike once, ?_⟩
  intro constraint stands
  obtain ⟨keyed, listed, charged⟩ := run.chronicles
  rw [← listed] at stands
  obtain ⟨⟨constraint, marker⟩, inValues, rfl⟩ := List.mem_map.mp stands
  obtain ⟨⟨key, _⟩, inEntries, rfl⟩ := List.mem_map.mp inValues
  have found := (left.solver.installed.mem_entries_iff key _).mp inEntries
  obtain rfl := keyed key _ found
  refine ⟨marker, found, ?_, fun other sameKey => ?_⟩
  · intro before placement tableau nextId after installs entered
    rw [installs.result, Solver.get?_installed_record, if_pos rfl,
      (before.equationFor_made constraint).marker] at entered
    cases entered
    exact before.charged_eq constraint
  · obtain ⟨_, _, same, _⟩ := alike.solver
    have kept : right.solver.charges = left.solver.charges := by rw [same]
    have charge : left.solver.charges.get? constraint.key = constraint.chargeAt marker.id :=
      (charged constraint.key).trans (congrArg (Option.bind · _) found)
    rw [Solver.withdraw_refunds, kept, sameKey, charge]

/-- A weak demand that becomes strong only when it is overruled already. This counts for nothing:
both sides follow the medium one, return to the weak one without it, and charge for that as for a
weak one. Added anew, the demand is strong. -/
theorem alike_of_restrengthened_overruled :
    let requests : List (Call ℚ) := [.newVariable none 0,
      .make (.equal (.ofVariable ⟨1⟩) (.ofConstant 10) .weak),
      .make (.equal (.ofVariable ⟨1⟩) (.ofConstant 20) .medium), .add 0, .add 1]
    let left := (start (.withConfig .standard) (.memory [])).replay 8 requests
    let log := (start (.withConfig .standard) (.memory [])).reported 8 requests
    let changed := left.replay 8 [.setStrength 0 .strong]
    let right := { changed with solver := changed.solver.restrengthen 0 .strong }
    let strengths := fun session : Session ℚ => session.constraints.map (·.strength)
    let shown := fun session : Session ℚ => session.solver.value ⟨1⟩
    Restrengthened [0] log left right ∧ strengths left = [.weak, .medium] ∧
      strengths right = [.strong, .medium] ∧ left.Alike [0] right ∧
      (perform (.remove 1) 8 left).Parallel (Alike [0]) (Event.Alike [0])
        (perform (.remove 1) 8 right) ∧
      shown left = 20 ∧ shown right = 20 ∧ shown (left.replay 8 [.remove 1]) = 10 ∧
      shown (right.replay 8 [.remove 1]) = 10 ∧
      (right.solver.charges.get? 0).map (·.coefficient) = some (Strength.weak.unitCost 1) ∧
      shown (left.replay 8 [.remove 0, .add 0]) = 20 ∧
      shown (right.replay 8 [.remove 0, .add 0]) = 10 := by
  intro requests left log changed right strengths shown
  have isTen : (Demand.equal (.ofVariable ⟨1⟩) (.ofConstant 10) .weak : Demand ℚ).External := by
    decide +kernel
  have isTwenty : (Demand.equal (.ofVariable ⟨1⟩) (.ofConstant 20) .medium : Demand ℚ).External := by
    decide +kernel
  have recorded : Recorded left log := (Recorded.fresh .standard (.memory [])).replay
    ⟨trivial, isTen, isTwenty, trivial, trivial, trivial⟩
  have ends : (perform (.setStrength 0 .strong) 8 left).state? = some changed :=
    state?_of_returns (by decide +kernel)
  have run : Restrengthened [0] log left right :=
    .follow (.strengthen (.of_recorded recorded) (Option.some_get (by decide +kernel)).symm
      (by decide +kernel) ends) (by decide) .strong
  obtain ⟨alike, _, continues, _⟩ := alike_of_restrengthened run
  exact ⟨run, by decide +kernel, by decide +kernel, alike, continues 8 (.remove 1) id,
    by decide +kernel, by decide +kernel, by decide +kernel, by decide +kernel, by decide +kernel,
    by decide +kernel, by decide +kernel⟩

end Session

end SoftSimplex
