import SoftSimplex.Proofs.RenamedRows

/-!
Renaming the ids of a solver, with all that it keeps about its constraints. The equation of a
constraint carries over if the ids made for it move as the next id does; what is entered into the
books, taken out of them or published carries over as it is.
-/

namespace SoftSimplex

namespace Renaming

variable {K : Type} (names : Renaming) (tableau : Tableau K) (symbol : Symbol) (row : Expression K)

/-! Equations -/

def kind : ConstraintKind → ConstraintKind
  | .inequality => .inequality
  | .equality => .equality
  | .edit unknown => .edit (names.unknown unknown)
  | .stay unknown => .stay (names.unknown unknown)

def demand (demand : Demand K) : Demand K :=
  { demand with expression := names.expression demand.expression, kind := names.kind demand.kind }

def charge (charge : Charge K) : Charge K :=
  { charge with symbols := charge.symbols.map names.symbol }

def pair : Symbol × Symbol → Symbol × Symbol := Prod.map names.symbol names.symbol

def equation (equation : Equation K) : Equation K where
  row := names.expression equation.row
  marker := names.symbol equation.marker
  charge := equation.charge.map names.charge
  pair := equation.pair.map names.pair
  nextId := equation.nextId + names.shift

def placement : Placement K → Placement K
  | .direct subject row => .direct (names.symbol subject) (names.expression row)
  | .artificial row => .artificial (names.expression row)

variable (demand : Demand K)

@[simp]
theorem expression_demand :
    (names.demand demand).expression = names.expression demand.expression := rfl

@[simp]
theorem strength_demand : (names.demand demand).strength = demand.strength := rfl

@[simp]
theorem weight_demand : (names.demand demand).weight = demand.weight := rfl

@[simp]
theorem isInequality_demand : (names.demand demand).isInequality = demand.isInequality := by
  unfold Demand.isInequality Renaming.demand
  cases demand.kind <;> rfl

@[simp]
theorem isRequired_demand : (names.demand demand).isRequired = demand.isRequired := rfl

@[simp]
theorem isEdit_demand : (names.demand demand).isEdit = demand.isEdit := by
  unfold Demand.isEdit Renaming.demand
  cases demand.kind <;> rfl

@[simp]
theorem isStay_demand : (names.demand demand).isStay = demand.isStay := by
  unfold Demand.isStay Renaming.demand
  cases demand.kind <;> rfl

section Demanding

variable [Zero K] [One K] [Add K] [Neg K] [Mul K] [Scalar K] (unknown : Variable) (value : K)
  (strength : Strength)

theorem gap_expression :
    names.expression (Demand.gap unknown value) = Demand.gap (names.unknown unknown) value := by
  simp [Demand.gap]

@[simp]
theorem edit_demand :
    names.demand (.edit unknown value strength) = .edit (names.unknown unknown) value strength := by
  simp [Renaming.demand, Demand.edit, gap_expression, kind]

@[simp]
theorem stay_demand (weight : K) :
    names.demand (.stay unknown value strength weight) =
      .stay (names.unknown unknown) value strength weight := by
  simp [Renaming.demand, Demand.stay, gap_expression, kind]

omit [Zero K] in
@[simp]
theorem atLeast_demand (left right : Expression K) :
    names.demand (.atLeast left right strength) =
      .atLeast (names.expression left) (names.expression right) strength := by
  simp [Renaming.demand, Demand.atLeast, Demand.ofRelation, kind]

omit [Zero K] in
@[simp]
theorem atMost_demand (left right : Expression K) :
    names.demand (.atMost left right strength) =
      .atMost (names.expression left) (names.expression right) strength := by
  simp [Renaming.demand, Demand.atMost, Demand.ofRelation, kind]

end Demanding

section Forming

variable [Scalar K] [Add K] [Mul K]

theorem addReduced_tableau (entry : Symbol × K) :
    (names.tableau tableau).addReduced (names.expression row) (Prod.map names.symbol id entry) =
      names.expression (tableau.addReduced row entry) := by
  simp only [Tableau.addReduced, Prod.map_fst, Prod.map_snd, id_eq, row?_tableau]
  cases tableau.row? entry.1 <;> simp

@[simp]
theorem reduce_tableau (expression : Expression K) :
    (names.tableau tableau).reduce (names.expression expression) =
      names.expression (tableau.reduce expression) := by
  unfold Tableau.reduce
  rw [terms_expression, Table.entries_relabel, constant_expression, ← names.ofConstant_expression]
  exact foldl_map_alike names.expression
    (fun row entry => names.addReduced_tableau tableau row entry) _ _

variable [Zero K] [One K] [Neg K] [LT K] [DecidableLT K] {nextId : Nat}

omit [LT K] [DecidableLT K] in
theorem rawEquation_tableau
    (drawn : ∀ id, nextId ≤ id → id < (tableau.rawEquation nextId demand).nextId →
      names.onId id = id + names.shift) :
    (names.tableau tableau).rawEquation (nextId + names.shift) (names.demand demand) =
      names.equation (tableau.rawEquation nextId demand) := by
  have named : ∀ id kind, nextId ≤ id → id < (tableau.rawEquation nextId demand).nextId →
      (⟨id + names.shift, kind⟩ : Symbol) = names.symbol ⟨id, kind⟩ := fun id kind old young =>
    congrArg (Symbol.mk · kind) (drawn id old young).symm
  revert named
  unfold Tableau.rawEquation
  simp only [isInequality_demand, isRequired_demand, isEdit_demand, isStay_demand]
  have second := Nat.add_right_comm nextId names.shift 1
  have both := Nat.add_right_comm nextId names.shift 2
  cases demand.isInequality <;> cases demand.isRequired <;> intro named <;> dsimp only at named ⊢
  · by_cases paired : demand.isEdit = true ∨ demand.isStay = true <;>
      simp [equation, charge, pair, second, both, named, paired]
  · simp [equation, named, second]
  · simp [equation, charge, second, both, named]
  · simp [equation, named, second]

theorem equationOf_tableau
    (drawn : ∀ id, nextId ≤ id → id < (tableau.equationOf nextId demand).nextId →
      names.onId id = id + names.shift) :
    (names.tableau tableau).equationOf (nextId + names.shift) (names.demand demand) =
      names.equation (tableau.equationOf nextId demand) := by
  have same : (tableau.equationOf nextId demand).nextId =
      (tableau.rawEquation nextId demand).nextId := by
    unfold Tableau.equationOf
    dsimp only
    split <;> rfl
  rw [same] at drawn
  unfold Tableau.equationOf
  simp only [names.rawEquation_tableau tableau demand drawn]
  by_cases negative : (tableau.rawEquation nextId demand).row.constant < 0
  · simp [equation, negative]
  · simp [equation, negative]

end Forming

/-! Choosing a basic symbol -/

@[simp]
theorem isUnused_tableau :
    (names.tableau tableau).isUnused (names.symbol symbol) = tableau.isUnused symbol := by
  unfold Tableau.isUnused Renaming.tableau
  rw [Table.get?_relabel]
  cases tableau.columns.get? symbol with
  | none => rfl
  | some rows =>
    rw [Bool.eq_iff_iff, Option.map_some]
    simp [List.map_eq_singleton_iff]

def candidate : Tableau.Candidate → Tableau.Candidate
  | .nothing => .nothing
  | .restricted symbol => .restricted (names.symbol symbol)
  | .unrestricted symbol => .unrestricted (names.symbol symbol)
  | .settled symbol => .settled (names.symbol symbol)

@[simp]
theorem freshDummy?_tableau :
    (names.tableau tableau).freshDummy? (names.expression row) =
      (tableau.freshDummy? row).map (Prod.map names.symbol id) := by
  simp [Tableau.freshDummy?, List.filter_map, Function.comp_def]

section Placing

variable [Zero K] [LT K] [DecidableLT K]

theorem scanTerm_tableau (found : Tableau.Candidate) (entry : Symbol × K) :
    (names.tableau tableau).scanTerm (names.candidate found) (Prod.map names.symbol id entry) =
      names.candidate (tableau.scanTerm found entry) := by
  cases found with
  | settled held => rfl
  | unrestricted held =>
    simp only [Tableau.scanTerm, candidate, Prod.map_fst, isRestricted_symbol, hasColumn_tableau]
    split <;> rfl
  | restricted held =>
    by_cases restricted : entry.1.isRestricted = true <;>
      simp [Tableau.scanTerm, candidate, restricted]
  | nothing =>
    simp only [Tableau.scanTerm, candidate, Prod.map_fst, Prod.map_snd, id_eq, isRestricted_symbol,
      isDummy_symbol, isUnused_tableau]
    split
    · rfl
    · split <;> rfl

@[simp]
theorem readySubject?_tableau :
    (names.tableau tableau).readySubject? (names.expression row) =
      (tableau.readySubject? row).map names.symbol := by
  have scan : (row.terms.entries.map (Prod.map names.symbol id)).foldl
      (names.tableau tableau).scanTerm (names.candidate .nothing) =
        names.candidate (row.terms.entries.foldl tableau.scanTerm .nothing) :=
    foldl_map_alike names.candidate (names.scanTerm_tableau tableau) _ _
  unfold Tableau.readySubject?
  refine (congrArg Tableau.Candidate.symbol? scan).trans ?_
  cases row.terms.entries.foldl tableau.scanTerm .nothing <;> rfl

theorem choosePlacement?_tableau [One K] [Neg K] [Mul K] [Scalar K] :
    (names.tableau tableau).choosePlacement? (names.expression row) =
      (tableau.choosePlacement? row).map names.placement := by
  unfold Tableau.choosePlacement?
  simp only [readySubject?_tableau, symbols_expression, List.all_map, Function.comp_def,
    isDummy_symbol, constant_expression, freshDummy?_tableau]
  cases tableau.readySubject? row with
  | some subject => rfl
  | none =>
    simp only [Option.map_none]
    split
    · rfl
    · split
      · rfl
      · cases tableau.freshDummy? row with
        | none => rfl
        | some found => by_cases positive : 0 < found.2 <;> simp [placement, positive]

end Placing

/-! Costs and targets -/

@[simp]
theorem chargeObjective_tableau [Scalar K] (charge : Option (Charge K)) :
    Solver.chargeObjective (charge.map names.charge) (names.tableau tableau) =
      names.tableau (Solver.chargeObjective charge tableau) := by
  cases charge with
  | none => rfl
  | some charge =>
    refine foldl_map_alike names.tableau (fun current symbol => ?_) charge.symbols tableau
    simpa [Renaming.charge] using
      names.setTermInRow_tableau current .mainObjective symbol charge.coefficient

@[simp]
theorem refundError_tableau [Neg K] [Add K] [Mul K] [Scalar K] (coefficient : K) :
    Tableau.refundError coefficient (names.tableau tableau) (names.symbol symbol) =
      names.tableau (Tableau.refundError coefficient tableau symbol) := by
  unfold Tableau.refundError
  rw [row?_tableau]
  cases tableau.row? symbol with
  | none => simpa using names.addTermToRow_tableau tableau .mainObjective symbol (-coefficient)
  | some row => simpa using names.addScaledToRow_tableau tableau .mainObjective row (-coefficient)

section Targets

variable [Zero K] [Add K] [LT K] [DecidableLT K] (amount : K)

@[simp]
theorem shiftError_tableau :
    (names.tableau tableau).shiftError (names.symbol symbol) (names.expression row) amount =
      names.tableau (tableau.shiftError symbol row amount) := by
  unfold Tableau.shiftError
  simp only [increaseConstant_expression, setRow_tableau, constant_expression]
  split <;> simp

theorem shiftUse_tableau [Mul K] (minus basic : Symbol) :
    Tableau.shiftUse (names.symbol minus) amount (names.tableau tableau) (names.symbol basic) =
      names.tableau (Tableau.shiftUse minus amount tableau basic) := by
  unfold Tableau.shiftUse
  rw [row?_tableau]
  cases tableau.row? basic <;> simp

@[simp]
theorem shiftTarget_tableau [Neg K] [Sub K] [Mul K] (plus minus : Symbol) :
    (names.tableau tableau).shiftTarget (names.symbol plus) (names.symbol minus) amount =
      names.tableau (tableau.shiftTarget plus minus amount) := by
  unfold Tableau.shiftTarget
  simp only [row?_tableau]
  cases tableau.row? plus with
  | some row => simp
  | none =>
    cases tableau.row? minus with
    | some row => simp
    | none =>
      simp only [Option.map_none, column_tableau]
      exact foldl_map_alike names.tableau
        (fun current basic => names.shiftUse_tableau current amount minus basic) _ _

end Targets

/-! Solvers -/

def fault : Fault → Fault
  | .notAnEditVariable unknown => .notAnEditVariable (names.unknown unknown)
  | .duplicateEditVariable unknown => .duplicateEditVariable (names.unknown unknown)
  | .requiredEditVariable unknown => .requiredEditVariable (names.unknown unknown)
  | other => other

theorem fault_injective : Function.Injective names.fault := by
  intro left right same
  cases left <;> cases right <;> simp_all [fault]

theorem replacing_fault {old new : Fault} (oldFixed : names.fault old = old)
    (newFixed : names.fault new = new) (fault : Fault) :
    Fault.replacing old new (names.fault fault) = names.fault (Fault.replacing old new fault) := by
  have same : names.fault fault = old ↔ fault = old := by
    conv_lhs => rw [← oldFixed, names.fault_injective.eq_iff]
  unfold Fault.replacing
  simp only [same]
  split
  · exact newFixed.symm
  · rfl

def constraint (constraint : Constraint K) : Constraint K :=
  { names.demand constraint.toDemand with key := constraint.key }

def installed (entry : Installed K) : Installed K where
  constraint := names.constraint entry.constraint
  marker := names.symbol entry.marker

def editInfo (info : EditInfo K) : EditInfo K where
  constraint := names.constraint info.constraint
  plus := names.symbol info.plus
  minus := names.symbol info.minus
  target := info.target
  index := info.index

def solver (solver : Solver K) : Solver K where
  config := solver.config
  tableau := names.tableau solver.tableau
  unknowns := solver.unknowns.relabel names.unknown id
  installed := solver.installed.mapValues names.installed
  charges := solver.charges.mapValues names.charge
  stays := solver.stays.map names.pair
  edits := solver.edits.relabel names.unknown names.editInfo
  depths := solver.depths
  nextId := solver.nextId + names.shift
  nextKey := solver.nextKey
  needsSolving := solver.needsSolving

variable (solver : Solver K) (unknown : Variable)

section Reading

@[simp]
theorem toDemand_constraint (constraint : Constraint K) :
    (names.constraint constraint).toDemand = names.demand constraint.toDemand := rfl

@[simp]
theorem key_constraint (constraint : Constraint K) :
    (names.constraint constraint).key = constraint.key := rfl

@[simp]
theorem tableau_solver : (names.solver solver).tableau = names.tableau solver.tableau := rfl

@[simp]
theorem config_solver : (names.solver solver).config = solver.config := rfl

@[simp]
theorem value_solver [Zero K] :
    (names.solver solver).value (names.unknown unknown) = solver.value unknown := by
  simp [Solver.value, Renaming.solver]

@[simp]
theorem name?_solver : (names.solver solver).name? (names.unknown unknown) = solver.name? unknown := by
  simp [Solver.name?, Renaming.solver]

@[simp]
theorem findVariable?_solver (name : String) :
    (names.solver solver).findVariable? name = (solver.findVariable? name).map names.unknown := by
  have columns : (names.solver solver).tableau.columns.keys =
      solver.tableau.columns.keys.map names.symbol := Table.keys_relabel _
  have rows : (names.solver solver).tableau.rows.keys =
      solver.tableau.rows.keys.map names.symbol := Table.keys_relabel _
  unfold Solver.findVariable?
  rw [columns, rows, ← List.map_append, unknowns_map_symbol, List.find?_map]
  simp only [Function.comp_def, name?_solver]

@[simp]
theorem containsVariable_solver :
    (names.solver solver).containsVariable (names.unknown unknown) =
      solver.containsVariable unknown := by
  simp [Solver.containsVariable]

@[simp]
theorem get?_edits_solver :
    (names.solver solver).edits.get? (names.unknown unknown) =
      (solver.edits.get? unknown).map names.editInfo :=
  Table.get?_relabel solver.edits unknown

@[simp]
theorem get?_installed_solver (key : Nat) :
    (names.solver solver).installed.get? key =
      (solver.installed.get? key).map names.installed :=
  Table.get?_mapValues solver.installed names.installed key

@[simp]
theorem get?_charges_solver (key : Nat) :
    (names.solver solver).charges.get? key = (solver.charges.get? key).map names.charge :=
  Table.get?_mapValues solver.charges names.charge key

@[simp]
theorem editCount_solver : (names.solver solver).editCount = solver.editCount :=
  Table.size_relabel solver.edits

@[simp]
theorem isEmpty_edits_solver : (names.solver solver).edits.isEmpty = solver.edits.isEmpty :=
  Table.isEmpty_relabel solver.edits

@[simp]
theorem objection?_solver (constraint : Constraint K) :
    (names.solver solver).objection? (names.constraint constraint) =
      (solver.objection? constraint).map names.fault := by
  have present : (names.solver solver).hasConstraint (names.constraint constraint) =
      solver.hasConstraint constraint := by
    simp [Solver.hasConstraint, Table.contains]
  have kind : (names.constraint constraint).kind = names.kind constraint.kind := rfl
  unfold Solver.objection?
  rw [present, kind, toDemand_constraint, isRequired_demand]
  split
  · rfl
  · cases constraint.kind with
    | edit unknown =>
      have edited : (names.solver solver).edits.contains (names.unknown unknown) =
          solver.edits.contains unknown := Table.contains_relabel solver.edits unknown
      simp only [Renaming.kind, edited]
      split
      · rfl
      · split <;> rfl
    | _ => rfl

end Reading

section Writing

@[simp]
theorem setTableau_solver (tableau : Tableau K) :
    (names.solver solver).setTableau (names.tableau tableau) =
      names.solver (solver.setTableau tableau) := rfl

@[simp]
theorem setValue_solver (value : K) :
    (names.solver solver).setValue (names.unknown unknown) value =
      names.solver (solver.setValue unknown value) := by
  have unknowns : (solver.unknowns.upsert unknown ⟨none, value⟩ ({ · with value })).relabel
      names.unknown id = (solver.unknowns.relabel names.unknown id).upsert (names.unknown unknown)
        ⟨none, value⟩ ({ · with value }) :=
    Table.relabel_upsert (by intro; rfl) solver.unknowns unknown ⟨none, value⟩
  simp only [Solver.setValue, Renaming.solver, unknowns]

def basicValues (tableau : Tableau K) : List (Variable × K) :=
  tableau.basicExternals.keys.filterMap fun symbol =>
    match symbol.unknown?, tableau.row? symbol with
    | some unknown, some row => some (unknown, row.constant)
    | _, _ => none

theorem basicValues_tableau (tableau : Tableau K) :
    basicValues (names.tableau tableau) =
      (basicValues tableau).map (Prod.map names.unknown id) := by
  unfold basicValues
  rw [basicExternals_tableau, keys_set]
  refine filterMap_map_alike (fun symbol => ?_) _
  simp only [unknown?_symbol, row?_tableau]
  cases symbol.unknown? <;> cases tableau.row? symbol <;> rfl

@[simp]
theorem publishValues_solver [Zero K] :
    (names.solver solver).publishValues = names.solver solver.publishValues := by
  have zeroed : ∀ unknowns : List Variable,
      (unknowns.map names.unknown).foldl (fun current unknown => current.setValue unknown 0)
        (names.solver solver) =
      names.solver (unknowns.foldl (fun current unknown => current.setValue unknown 0) solver) :=
    fun unknowns => foldl_map_alike names.solver
      (fun current unknown => names.setValue_solver current unknown 0) unknowns solver
  have solved : ∀ (values : List (Variable × K)) (zeroed : Solver K),
      (values.map (Prod.map names.unknown id)).foldl
        (fun current entry => current.setValue entry.1 entry.2) (names.solver zeroed) =
      names.solver (values.foldl (fun current entry => current.setValue entry.1 entry.2) zeroed) :=
    foldl_map_alike names.solver fun current entry =>
      names.setValue_solver current entry.1 entry.2
  have parametric : ((names.solver solver).tableau.parametricExternals.keys.filter fun symbol =>
      !(names.solver solver).tableau.isBasic symbol).filterMap (·.unknown?) =
        ((solver.tableau.parametricExternals.keys.filter fun symbol =>
          !solver.tableau.isBasic symbol).filterMap (·.unknown?)).map names.unknown := by
    rw [← unknowns_map_symbol]
    simp [List.filter_map, Function.comp_def]
  unfold Solver.publishValues
  dsimp only
  rw [parametric, zeroed]
  exact congrArg (fun current : Solver K => { current with needsSolving := false })
    ((congrArg (List.foldl _ _) (names.basicValues_tableau solver.tableau)).trans (solved _ _))

@[simp]
theorem settleStays_solver [Zero K] :
    (names.solver solver).settleStays = names.solver solver.settleStays := by
  have step : ∀ (tableau : Tableau K) (pair : Symbol × Symbol),
      Solver.settleStay (names.tableau tableau) (names.pair pair) =
        names.tableau (Solver.settleStay tableau pair) := by
    intro tableau pair
    have rows : ∀ basic, (tableau.rows.modify basic (·.withConstant 0)).relabel names.symbol
        names.expression = (tableau.rows.relabel names.symbol names.expression).modify
          (names.symbol basic) (·.withConstant 0) := fun basic =>
      Table.relabel_modify (names.withConstant_expression · 0) tableau.rows basic
    simp only [Solver.settleStay, Renaming.pair, Prod.map_fst, Prod.map_snd, isBasic_tableau]
    split <;> simp [Renaming.tableau, rows]
  have settled : (solver.stays.map names.pair).foldl Solver.settleStay (names.tableau solver.tableau) =
      names.tableau (solver.stays.foldl Solver.settleStay solver.tableau) :=
    foldl_map_alike names.tableau step _ _
  exact congrArg (names.solver solver).setTableau settled

@[simp]
theorem withdraw_solver [Zero K] [Add K] [Neg K] [Mul K] [Scalar K] (constraint : Constraint K) :
    (names.solver solver).withdraw (names.constraint constraint) =
      names.solver (solver.withdraw constraint) := by
  unfold Solver.withdraw
  rw [settleStays_solver, key_constraint, get?_charges_solver]
  cases solver.charges.get? constraint.key with
  | none => simp [Renaming.solver]
  | some charge =>
    have refunded : (charge.symbols.map names.symbol).foldl (Tableau.refundError charge.coefficient)
        (names.tableau solver.settleStays.tableau) = names.tableau
          (charge.symbols.foldl (Tableau.refundError charge.coefficient)
            solver.settleStays.tableau) :=
      foldl_map_alike names.tableau
        (fun current symbol => names.refundError_tableau current symbol charge.coefficient) _ _
    simp [Renaming.solver, Renaming.charge, refunded]

theorem dropErrors_solver (marker : Symbol) (charge : Charge K) :
    (names.solver solver).dropErrors (names.symbol marker) (names.charge charge) =
      names.solver (solver.dropErrors marker charge) := by
  have others : (charge.symbols.map names.symbol).filter (· != names.symbol marker) =
      (charge.symbols.filter (· != marker)).map names.symbol := by
    rw [List.filter_map]
    refine congrArg (List.map names.symbol) (List.filter_congr fun symbol _ => ?_)
    simp [bne]
  have dropped : ((charge.symbols.filter (· != marker)).map names.symbol).foldl
      Tableau.removeColumn (names.tableau solver.tableau) = names.tableau
        ((charge.symbols.filter (· != marker)).foldl Tableau.removeColumn solver.tableau) :=
    foldl_map_alike names.tableau names.removeColumn_tableau _ _
  unfold Solver.dropErrors
  rw [← setTableau_solver, ← dropped, ← others]
  rfl

theorem dropStay_solver (charge : Charge K) :
    (names.solver solver).dropStay (names.charge charge) =
      names.solver (solver.dropStay charge) := by
  simp [Solver.dropStay, Renaming.solver, Renaming.charge, pair, List.filter_map,
    Function.comp_def]

theorem dropEdit_solver (constraint : Constraint K) :
    (names.solver solver).dropEdit (names.constraint constraint) (names.unknown unknown) =
      names.solver (solver.dropEdit constraint unknown) := by
  unfold Solver.dropEdit
  rw [get?_edits_solver]
  cases solver.edits.get? unknown with
  | none => rfl
  | some info =>
    have same : ((names.editInfo info).constraint == names.constraint constraint) =
        (info.constraint == constraint) := rfl
    have minus : (names.editInfo info).minus = names.symbol info.minus := rfl
    simp only [Option.map_some, same]
    split
    · simp [Renaming.solver, minus]
    · rfl

@[simp]
theorem clearAway_solver (constraint : Constraint K) (marker : Symbol) (charge : Option (Charge K)) :
    (names.solver solver).clearAway (names.constraint constraint) (names.symbol marker)
        (charge.map names.charge) =
      names.solver (solver.clearAway constraint marker charge) := by
  have kind : (names.constraint constraint).kind = names.kind constraint.kind := rfl
  unfold Solver.clearAway
  rw [kind]
  cases charge with
  | none => cases constraint.kind <;> simp [Renaming.kind, dropEdit_solver]
  | some charge =>
    cases constraint.kind <;>
      simp [Renaming.kind, dropErrors_solver, dropStay_solver, dropEdit_solver]

@[simp]
theorem record_solver (constraint : Constraint K) (equation : Equation K) :
    (names.solver solver).record (names.constraint constraint) (names.equation equation) =
      names.solver (solver.record constraint equation) := by
  have kind : (names.constraint constraint).kind = names.kind constraint.kind := rfl
  unfold Solver.record
  rw [kind]
  rcases equation with ⟨row, marker, charge, pair, nextId⟩
  cases charge <;> cases pair <;> cases constraint.kind <;>
    simp [Renaming.kind, Renaming.solver, Renaming.equation, Renaming.installed, Renaming.editInfo,
      Renaming.pair]

end Writing

end Renaming

end SoftSimplex
