import SoftSimplex.Proofs.Calls
import SoftSimplex.Proofs.MirroredRows

/-!
The calls of a solver mirror themselves under new names. Only an addition gives out ids: the symbols
of its equation, and two more for an artificial row.
-/

namespace SoftSimplex

variable {K : Type}

def Renaming.solvers (names : Renaming) : Likeness (Solver K) where
  alike solver image := image = names.solver solver
  total _ := ⟨_, rfl⟩
  nextId := Solver.nextId

namespace Solver

variable {names : Renaming} {limit : Nat} (before : Solver K)

theorem mirrors_change {change mirror : Solver K → Solver K}
    (later : before.nextId ≤ (change before).nextId)
    (alike : mirror (names.solver before) = names.solver (change before)) :
    Mirrors names names.solvers id limit before (names.solver before)
      (Action.modify change : Action K (Solver K) Unit) (Action.modify mirror) :=
  mirrors_modify later alike

theorem mirrors_onTableau {α β : Type} {onValue : α → β} {action : Action K (Tableau K) α}
    {mirror : Action K (Tableau K) β}
    (mirrors : Mirrors names (names.tableaux before.nextId) onValue limit before.tableau
      (names.tableau before.tableau) action mirror) :
    Mirrors names names.solvers onValue limit before (names.solver before) (onTableau action)
      (onTableau mirror) := by
  refine mirrors_wrap mirrors rfl ?_ ?_
  · unfold onTableau Action.within
    cases action limit before.tableau <;> rfl
  · unfold onTableau Action.within
    rw [names.tableau_solver]
    generalize action limit before.tableau = outcome,
      mirror limit (names.tableau before.tableau) = mirrored
    intro echo
    cases echo with
    | done ends =>
      cases ends
      exact .done rfl
    | failed ends =>
      cases ends
      exact .failed rfl
    | unfinished => exact .unfinished

/-! Optimizing -/

section Optimizing

variable [Zero K]

theorem mirrors_publish :
    Mirrors names names.solvers id limit before (names.solver before)
      (publish : Action K (Solver K) Unit) publish := by
  have confused : (((names.solver before).tableau.parametricExternals.keys.filter
      (names.solver before).tableau.isBasic).filterMap (·.unknown?)).map
        (fun unknown => .diagnostic (.parametricIsBasic unknown)) =
      (((before.tableau.parametricExternals.keys.filter before.tableau.isBasic).filterMap
        (·.unknown?)).map fun unknown => (.diagnostic (.parametricIsBasic unknown) : Event K)).map
          names.event := by
    simp only [names.tableau_solver, names.parametricExternals_tableau, names.keys_set,
      List.filter_map, Function.comp_def, names.isBasic_tableau, names.unknowns_map_symbol,
      List.map_map]
    rfl
  refine mirrors_get_bind ?_
  dsimp only
  rw [confused]
  exact mirrors_report_bind _ (mirrors_change before (tidies_publishValues before).nextId
    (names.publishValues_solver before))

variable [One K] [Add K] [Neg K] [Mul K] [Div K] [LT K] [DecidableLT K] [Scalar K]

theorem mirrors_optimize :
    Mirrors names names.solvers id limit before (names.solver before)
      (optimize : Action K (Solver K) Unit) optimize := by
  have minimizes : Mirrors names (names.tableaux before.nextId) id limit before.tableau
      (names.tableau before.tableau) (Tableau.minimize .mainObjective : Action K (Tableau K) Unit)
        (Tableau.minimize (names.symbol .mainObjective)) :=
    Tableau.mirrors_minimize before.tableau .mainObjective
  rw [names.symbol_mainObjective] at minimizes
  exact mirrors_bind (mirrors_onTableau before minimizes) fun _ reached _ alike =>
    alike ▸ mirrors_publish reached

theorem mirrors_autoOptimize :
    Mirrors names names.solvers id limit before (names.solver before)
      (autoOptimize : Action K (Solver K) Unit) autoOptimize := by
  refine mirrors_get_bind ?_
  rw [names.config_solver]
  split
  · exact mirrors_optimize before
  · exact mirrors_pure rfl ()

theorem mirrors_solve :
    Mirrors names names.solvers id limit before (names.solver before)
      (solve : Action K (Solver K) Unit) solve := by
  refine mirrors_get_bind ?_
  rw [show (names.solver before).needsSolving = before.needsSolving from rfl]
  split
  · exact mirrors_optimize before
  · exact mirrors_pure rfl ()

end Optimizing

/-! Adding -/

section Calling

theorem mirrors_freshSymbol (kind : SymbolKind) :
    Mirrors names names.solvers names.symbol limit before (names.solver before)
      (freshSymbol kind : Action K (Solver K) Symbol) (freshSymbol kind) where
  grows _ found := Nat.le_trans (Nat.le_succ _) (Nat.le_of_eq (Option.some.inj found))
  echoes moves := by
    have moved : names.onId before.nextId = before.nextId + names.shift :=
      moves before.nextId (Nat.le_refl _) fun _ found =>
        Nat.lt_of_lt_of_eq (Nat.lt_succ_self _) (Option.some.inj found)
    have made : (⟨before.nextId + names.shift, kind⟩ : Symbol) = names.symbol ⟨before.nextId, kind⟩ :=
      congrArg (Symbol.mk · kind) moved.symm
    have counted : ({ names.solver before with
        nextId := before.nextId + names.shift + 1 } : Solver K) =
          names.solver { before with nextId := before.nextId + 1 } :=
      congrArg (fun nextId => { names.solver before with nextId }) (Nat.add_right_comm _ _ _)
    have mirrored : freshSymbol kind limit (names.solver before) =
        .done (names.symbol ⟨before.nextId, kind⟩) (names.solver { before with
          nextId := before.nextId + 1 }) ([] : List (Event K)) := by
      rw [← made, ← counted]
      rfl
    rw [mirrored]
    exact .done rfl

theorem mirrors_freshConstraint (demand : Demand K) :
    Mirrors names names.solvers names.constraint limit before (names.solver before)
      (freshConstraint demand) (freshConstraint (names.demand demand)) :=
  mirrors_get_bind (mirrors_modify_bind (Nat.le_refl _) (mirrors_pure rfl _))

variable [Zero K] [One K] [Add K] [Neg K] [Mul K] [Div K] [LT K] [DecidableLT K] [Scalar K]

theorem mirrors_placeByArtificial (restore : Tableau K) (row : Expression K) :
    Mirrors names names.solvers (names.ended id) limit before (names.solver before)
      (placeByArtificial restore row)
      (placeByArtificial (names.tableau restore) (names.expression row)) := by
  refine mirrors_bind (mirrors_freshSymbol before .artificial) ?_
  rintro artificial first _ rfl
  refine mirrors_bind (mirrors_freshSymbol first .objective) ?_
  rintro objective second _ rfl
  refine mirrors_bind (mirrors_attempt (mirrors_onTableau second
    (Tableau.mirrors_addByArtificial second.tableau artificial objective row))) ?_
  rintro outcome reached _ rfl
  cases outcome with
  | ok done => exact mirrors_pure rfl _
  | error fault => exact mirrors_modify_bind (Nat.le_refl _) (mirrors_pure rfl _)

theorem mirrors_place (equation : Equation K) (placement : Placement K) :
    Mirrors names names.solvers (names.ended id) limit before (names.solver before)
      (place equation placement) (place (names.equation equation) (names.placement placement)) := by
  refine mirrors_get_bind (mirrors_modify_bind (Nat.le_refl _) ?_)
  have charged : (names.solver before).setTableau (chargeObjective (names.equation equation).charge
      (names.solver before).tableau) =
        names.solver (before.setTableau (chargeObjective equation.charge before.tableau)) :=
    congrArg (names.solver before).setTableau
      (names.chargeObjective_tableau before.tableau equation.charge)
  rw [charged]
  cases placement with
  | direct subject row =>
    exact mirrors_attempt (mirrors_onTableau _ (Tableau.mirrors_addSolved _ subject row))
  | artificial row => exact mirrors_placeByArtificial _ before.tableau row

def placeIn (solver : Solver K) (constraint : Constraint K) (equation : Equation K) :
    Action K (Solver K) Unit := do
  match solver.tableau.choosePlacement? equation.row with
  | none =>
    Action.report [.contradicted constraint]
    Action.fail .requiredFailure
  | some placement =>
    match ← place equation placement with
    | .error fault =>
      Action.report [.refused constraint fault]
      Action.fail fault
    | .ok () =>
      Action.modify (·.record constraint equation)
      autoOptimize

theorem add_eq_placeIn (constraint : Constraint K) : add constraint = (do
    let solver ← Action.get
    match solver.objection? constraint with
    | some fault => Action.fail fault
    | none =>
      Action.report [.adding constraint]
      let equation := solver.equationFor constraint
      Action.modify ({ · with nextId := equation.nextId })
      solver.placeIn constraint equation) := rfl

theorem mirrors_placeIn (solver : Solver K) (constraint : Constraint K) (equation : Equation K) :
    Mirrors names names.solvers id limit before (names.solver before)
      (solver.placeIn constraint equation)
      ((names.solver solver).placeIn (names.constraint constraint) (names.equation equation)) := by
  unfold placeIn
  have chosen : (names.solver solver).tableau.choosePlacement? (names.equation equation).row =
      (solver.tableau.choosePlacement? equation.row).map names.placement :=
    names.choosePlacement?_tableau solver.tableau equation.row
  rw [chosen]
  cases solver.tableau.choosePlacement? equation.row with
  | none => exact mirrors_report_bind [.contradicted constraint] (mirrors_fail rfl .requiredFailure)
  | some placement =>
    refine mirrors_bind (mirrors_place before equation placement) ?_
    rintro outcome reached _ rfl
    cases outcome with
    | error fault => exact mirrors_report_bind [.refused constraint fault] (mirrors_fail rfl fault)
    | ok done =>
      exact mirrors_bind (mirrors_change reached (Nat.le_of_eq (ids_record _ _ _).1.symm)
        (names.record_solver reached _ _)) fun _ recorded _ alike =>
          alike ▸ mirrors_autoOptimize recorded

theorem mirrors_add (constraint : Constraint K) :
    Mirrors names names.solvers id limit before (names.solver before) (add constraint)
      (add (names.constraint constraint)) := by
  rw [add_eq_placeIn, add_eq_placeIn]
  refine mirrors_get_bind ?_
  rw [names.objection?_solver]
  cases before.objection? constraint with
  | some fault => exact mirrors_fail rfl fault
  | none =>
    refine mirrors_report_bind [.adding constraint] ?_
    have later := Nat.le_of_lt (before.equationFor_nextId constraint)
    let reserved : Solver K := { before with nextId := (before.equationFor constraint).nextId }
    have ⟨grows, echoes⟩ : Mirrors names names.solvers id limit reserved (names.solver reserved)
        (before.placeIn constraint (before.equationFor constraint))
        ((names.solver before).placeIn (names.constraint constraint)
          (names.equation (before.equationFor constraint))) :=
      mirrors_placeIn reserved before constraint (before.equationFor constraint)
    constructor
    · rw [Action.modify_bind]
      exact fun last found => Nat.le_trans later (grows last found)
    · rw [Action.modify_bind, Action.modify_bind]
      intro moves
      have drawn : ∀ id, before.nextId ≤ id → id < (before.equationFor constraint).nextId →
          names.onId id = id + names.shift := fun id old young =>
        moves.upTo grows id old fun _ found => Nat.lt_of_lt_of_eq young (Option.some.inj found)
      have formed : (names.solver before).equationFor (names.constraint constraint) =
          names.equation (before.equationFor constraint) :=
        names.equationOf_tableau before.tableau constraint.toDemand drawn
      rw [formed]
      exact echoes (moves.onFrom later)

theorem mirrors_tryAdd (constraint : Constraint K) :
    Mirrors names names.solvers id limit before (names.solver before) (tryAdd constraint)
      (tryAdd (names.constraint constraint)) := by
  refine mirrors_bind (mirrors_attempt (mirrors_add before constraint)) ?_
  rintro outcome reached _ rfl
  cases outcome with
  | ok done => exact mirrors_pure rfl true
  | error fault => cases fault <;> first | exact mirrors_pure rfl false | exact mirrors_fail rfl _

theorem mirrors_addNew (demand : Demand K) :
    Mirrors names names.solvers names.constraint limit before (names.solver before) (addNew demand)
      (addNew (names.demand demand)) := by
  refine mirrors_bind (mirrors_freshConstraint before demand) ?_
  rintro constraint reached _ rfl
  exact mirrors_bind (mirrors_add reached constraint) fun _ _ _ alike =>
    mirrors_pure alike constraint

theorem mirrors_addLowerBound (unknown : Variable) (lower : K) :
    Mirrors names names.solvers names.constraint limit before (names.solver before)
      (addLowerBound unknown lower) (addLowerBound (names.unknown unknown) lower) := by
  unfold addLowerBound
  rw [← names.ofVariable_expression, ← names.ofConstant_expression, ← names.atLeast_demand,
    names.ofConstant_expression]
  exact mirrors_addNew before _

theorem mirrors_addUpperBound (unknown : Variable) (upper : K) :
    Mirrors names names.solvers names.constraint limit before (names.solver before)
      (addUpperBound unknown upper) (addUpperBound (names.unknown unknown) upper) := by
  unfold addUpperBound
  rw [← names.ofVariable_expression, ← names.ofConstant_expression, ← names.atMost_demand,
    names.ofConstant_expression]
  exact mirrors_addNew before _

theorem mirrors_addBounds (unknown : Variable) (lower upper : K) :
    Mirrors names names.solvers (Prod.map names.constraint names.constraint) limit before
      (names.solver before) (addBounds unknown lower upper)
      (addBounds (names.unknown unknown) lower upper) := by
  refine mirrors_bind (mirrors_addLowerBound before unknown lower) ?_
  rintro below reached _ rfl
  refine mirrors_bind (mirrors_addUpperBound reached unknown upper) ?_
  exact fun above _ _ alike => mirrors_pure alike (below, above)

/-! Stays -/

theorem mirrors_addStay (unknown : Variable) (strength : Strength) (weight : K) :
    Mirrors names names.solvers names.constraint limit before (names.solver before)
      (addStay unknown strength weight) (addStay (names.unknown unknown) strength weight) := by
  refine mirrors_get_bind ?_
  rw [names.value_solver, ← names.stay_demand]
  exact mirrors_addNew before _

theorem mirrors_addVariable (unknown : Variable) :
    Mirrors names names.solvers id limit before (names.solver before)
      (addVariable unknown : Action K (Solver K) Unit) (addVariable (names.unknown unknown)) := by
  refine mirrors_get_bind ?_
  rw [names.containsVariable_solver]
  split
  · exact mirrors_pure rfl ()
  · refine mirrors_bind (mirrors_mapFault (mirrors_addStay before unknown .weak 1) ?_)
      fun _ _ _ alike => mirrors_pure alike ()
    exact names.replacing_fault rfl rfl

theorem mirrors_addPointStay (horizontal vertical : Variable) (weight : K) :
    Mirrors names names.solvers (Prod.map names.constraint names.constraint) limit before
      (names.solver before) (addPointStay horizontal vertical weight)
      (addPointStay (names.unknown horizontal) (names.unknown vertical) weight) := by
  refine mirrors_bind (mirrors_addStay before horizontal .weak weight) ?_
  rintro first reached _ rfl
  refine mirrors_bind (mirrors_addStay reached vertical .weak weight) ?_
  exact fun second _ _ alike => mirrors_pure alike (first, second)

theorem mirrors_addPointStaysFrom (weight : K) (points : List (Variable × Variable)) :
    Mirrors names names.solvers (List.map names.constraint) limit before (names.solver before)
      (addPointStaysFrom weight points)
      (addPointStaysFrom weight (points.map (Prod.map names.unknown names.unknown))) := by
  induction points generalizing before weight with
  | nil => exact mirrors_pure rfl []
  | cons point rest ih =>
    refine mirrors_bind (mirrors_addPointStay before point.1 point.2 weight) ?_
    rintro made reached _ rfl
    refine mirrors_get_bind ?_
    exact mirrors_bind (ih reached _) fun others _ _ alike =>
      mirrors_pure alike (made.1 :: made.2 :: others)

/-! Removing -/

theorem mirrors_remove (constraint : Constraint K) :
    Mirrors names names.solvers id limit before (names.solver before) (remove constraint)
      (remove (names.constraint constraint)) := by
  refine mirrors_get_bind ?_
  rw [names.key_constraint, names.get?_installed_solver, names.get?_charges_solver]
  cases before.installed.get? constraint.key with
  | none => exact mirrors_fail rfl _
  | some entry =>
    refine mirrors_report_bind [.removing constraint] ?_
    refine mirrors_bind (mirrors_change before ?_ (names.withdraw_solver before constraint)) ?_
    · exact Nat.le_refl _
    rintro _ withdrawn _ rfl
    refine mirrors_bind (mirrors_onTableau withdrawn
      (Tableau.mirrors_dropMarker withdrawn.tableau entry.marker)) ?_
    rintro _ dropped _ rfl
    refine mirrors_bind (mirrors_change dropped ?_ (names.clearAway_solver dropped constraint
      entry.marker (before.charges.get? constraint.key))) ?_
    · obtain ⟨_, _, _, writes⟩ := dropped.clearAway_writes constraint entry.marker
        (before.charges.get? constraint.key)
      rw [writes]
    · exact fun _ cleared _ alike => alike ▸ mirrors_autoOptimize cleared

/-! The edit protocol -/

theorem mirrors_addEdit (unknown : Variable) (strength : Strength) :
    Mirrors names names.solvers id limit before (names.solver before)
      (addEdit unknown strength : Action K (Solver K) Unit)
      (addEdit (names.unknown unknown) strength) := by
  refine mirrors_get_bind ?_
  rw [names.value_solver, ← names.edit_demand]
  refine mirrors_bind (mirrors_freshConstraint before _) ?_
  rintro constraint reached _ rfl
  exact mirrors_mapFault (mirrors_add reached constraint)
    (names.replacing_fault rfl rfl)

theorem mirrors_addDefaultEdit (unknown : Variable) :
    Mirrors names names.solvers id limit before (names.solver before)
      (addDefaultEdit unknown : Action K (Solver K) Unit)
      (addDefaultEdit (names.unknown unknown)) :=
  mirrors_get_bind (mirrors_addEdit before unknown before.config.editStrength)

theorem mirrors_removeEdit (unknown : Variable) :
    Mirrors names names.solvers id limit before (names.solver before)
      (removeEdit unknown : Action K (Solver K) Unit) (removeEdit (names.unknown unknown)) := by
  refine mirrors_get_bind ?_
  rw [names.get?_edits_solver]
  cases before.edits.get? unknown with
  | none => exact mirrors_fail rfl _
  | some info => exact mirrors_remove before info.constraint

omit [One K] [Add K] [Neg K] [Mul K] [Div K] [LT K] [DecidableLT K] [Scalar K] in
theorem mirrors_beginEdit :
    Mirrors names names.solvers id limit before (names.solver before)
      (beginEdit : Action K (Solver K) Unit) beginEdit := by
  refine mirrors_get_bind ?_
  rw [names.isEmpty_edits_solver, names.editCount_solver]
  split
  · exact mirrors_fail rfl _
  · refine mirrors_report_bind [.beginEdit before.editCount]
      (mirrors_change before (Nat.le_refl _) ?_)
    dsimp only
    rw [names.tableau_solver, names.clearInfeasible_tableau, names.setTableau_solver,
      names.settleStays_solver, names.editCount_solver]
    rfl

theorem mirrors_resolve [LE K] [DecidableLE K] :
    Mirrors names names.solvers id limit before (names.solver before)
      (resolve : Action K (Solver K) Unit) resolve := by
  have repairs : Mirrors names (names.tableaux before.nextId) id limit before.tableau
      (names.tableau before.tableau) (Tableau.repair .mainObjective : Action K (Tableau K) Unit)
        (Tableau.repair (names.symbol .mainObjective)) :=
    Tableau.mirrors_repair before.tableau .mainObjective
  rw [names.symbol_mainObjective] at repairs
  refine mirrors_bind (mirrors_onTableau before repairs) ?_
  rintro _ repaired _ rfl
  refine mirrors_bind (mirrors_publish repaired) ?_
  rintro _ published _ rfl
  refine mirrors_change published (Nat.le_refl _) ?_
  rw [names.tableau_solver, names.clearInfeasible_tableau, names.setTableau_solver,
    names.settleStays_solver]

theorem mirrors_trimEdits (count : Nat) :
    Mirrors names names.solvers id limit before (names.solver before)
      (trimEdits count : Action K (Solver K) Unit) (trimEdits count) := by
  refine mirrors_get_bind ?_
  have doomed : ((names.solver before).edits.entries.filter
      fun entry => count ≤ entry.2.index).map Prod.fst =
        ((before.edits.entries.filter fun entry => count ≤ entry.2.index).map Prod.fst).map
          names.unknown := by
    simp only [Renaming.solver, Table.entries_relabel, List.filter_map, List.map_map]
    rfl
  dsimp only
  rw [doomed]
  refine mirrors_bind (mirrors_forEach (fun unknown reached _ alike => ?_) _ rfl) ?_
  · exact alike ▸ mirrors_mapFault (mirrors_removeEdit reached unknown)
      (names.replacing_fault rfl rfl)
  · rintro _ trimmed _ rfl
    refine mirrors_get_bind ?_
    rw [names.editCount_solver]
    split
    · exact mirrors_pure rfl ()
    · exact mirrors_report rfl [.diagnostic (.editCountMismatch count trimmed.editCount)]

theorem mirrors_endEdit [LE K] [DecidableLE K] :
    Mirrors names names.solvers id limit before (names.solver before)
      (endEdit : Action K (Solver K) Unit) endEdit := by
  refine mirrors_get_bind ?_
  rw [names.isEmpty_edits_solver]
  rw [show (names.solver before).depths = before.depths from rfl]
  split
  · exact mirrors_fail rfl _
  split
  · exact mirrors_fail rfl _
  refine mirrors_bind (mirrors_resolve before) ?_
  rintro _ resolved _ rfl
  refine mirrors_modify_bind (Nat.le_refl _) (mirrors_get_bind ?_)
  exact mirrors_report_bind [.endEdit _] (mirrors_trimEdits _ _)

omit [One K] [Div K] [Scalar K] in
theorem mirrors_suggest [Sub K] (unknown : Variable) (target : K) :
    Mirrors names names.solvers id limit before (names.solver before) (suggest unknown target)
      (suggest (names.unknown unknown) target) := by
  refine mirrors_get_bind ?_
  rw [names.get?_edits_solver]
  cases before.edits.get? unknown with
  | none =>
    exact mirrors_report_bind [.diagnostic (.notAnEditVariable unknown)]
      (mirrors_fail rfl (.notAnEditVariable unknown))
  | some info =>
    refine mirrors_change before (Nat.le_refl _) ?_
    simp [Renaming.solver, Renaming.editInfo]

theorem mirrors_resolveAt [Sub K] [LE K] [DecidableLE K] (targets : List K) :
    Mirrors names names.solvers id limit before (names.solver before) (resolveAt targets)
      (resolveAt targets) := by
  refine mirrors_get_bind ?_
  have suggestions : ((names.solver before).edits.entries.filterMap fun entry =>
      targets[entry.2.index]?.map fun target => (entry.1, target)) =
        (before.edits.entries.filterMap fun entry =>
          targets[entry.2.index]?.map fun target => (entry.1, target)).map
            (Prod.map names.unknown id) := by
    refine filterMap_map_alike (fun entry => ?_) before.edits.entries
    rw [Option.map_map]
    rfl
  dsimp only
  rw [suggestions]
  refine mirrors_bind (mirrors_forEach (fun suggestion reached _ alike => ?_) _ rfl)
    fun _ reached _ alike => alike ▸ mirrors_resolve reached
  exact alike ▸ mirrors_suggest reached suggestion.1 suggestion.2

theorem mirrors_setEditedValue [Sub K] [LE K] [DecidableLE K] (unknown : Variable) (target : K) :
    Mirrors names names.solvers id limit before (names.solver before)
      (setEditedValue unknown target) (setEditedValue (names.unknown unknown) target) := by
  refine mirrors_get_bind ?_
  rw [names.containsVariable_solver, names.value_solver]
  split
  · exact mirrors_change before (Nat.le_refl _) (names.setValue_solver before unknown target)
  split
  · exact mirrors_pure rfl ()
  refine mirrors_bind (mirrors_addDefaultEdit before unknown) ?_
  rintro _ edited _ rfl
  refine mirrors_bind (mirrors_beginEdit edited) ?_
  rintro _ begun _ rfl
  refine mirrors_bind (mirrors_mapFault (mirrors_suggest begun unknown target) fun _ => rfl) ?_
  rintro _ suggested _ rfl
  exact mirrors_endEdit suggested

end Calling

end Solver

end SoftSimplex
