import SoftSimplex.Proofs.Coupling
import SoftSimplex.Proofs.Editing
import SoftSimplex.Proofs.Optimality

/-!
Constraints whose targets have moved. What suggestions and settled stays do to the tableau is to put
other targets into edits and stays; with those targets the rows say what the constraints say,
without any offset.
-/

namespace SoftSimplex

variable {K : Type} [Field K] [LinearOrder K] {asked rested : Variable → Option K}

/-! Targets -/

namespace Demand

theorem valueAt_gap (unknown : Variable) (value : K) (assignment : Symbol → K) :
    (gap unknown value).valueAt assignment = value - assignment unknown.symbol := by
  refine (Expression.valueAt_addScaled _ _ _ _).trans ?_
  rw [Expression.valueAt_ofVariable, Expression.valueAt_ofConstant]
  ring

def Targeted (demand : Demand K) : Prop :=
  ∀ unknown, demand.unknown? = some unknown → ∃ value, demand.expression = gap unknown value

theorem targeted_edit (unknown : Variable) (value : K) (strength : Strength) :
    (Demand.edit unknown value strength).Targeted := by
  rintro _ ⟨⟩
  exact ⟨value, rfl⟩

theorem targeted_stay (unknown : Variable) (value : K) (strength : Strength) (weight : K) :
    (Demand.stay unknown value strength weight).Targeted := by
  rintro _ ⟨⟩
  exact ⟨value, rfl⟩

def retarget (demand : Demand K) (unknown : Variable) : Option K → Demand K
  | none => demand
  | some target => { demand with expression := gap unknown target }

/-- A demand with the target it has by now: for an edit what was asked last, for a stay the value at
which its variable came to rest. A required demand keeps its own. -/
def aimed (demand : Demand K) (asked rested : Variable → Option K) : Demand K :=
  if demand.isRequired then demand
  else
    match demand.kind with
    | .edit unknown => demand.retarget unknown (asked unknown)
    | .stay unknown => demand.retarget unknown (rested unknown)
    | .inequality | .equality => demand

theorem retarget_eq (demand : Demand K) (unknown : Variable) (target : Option K) :
    ∃ expression, demand.retarget unknown target = { demand with expression } ∧
      (demand.External → ∀ symbol ∈ expression.symbols, symbol.isExternal = true) := by
  cases target with
  | none => exact ⟨demand.expression, rfl, id⟩
  | some target => exact ⟨_, rfl, fun _ _ member => external_gap _ _ member⟩

theorem aimed_eq (demand : Demand K) (asked rested : Variable → Option K) :
    ∃ expression, demand.aimed asked rested = { demand with expression } ∧
      (demand.External → ∀ symbol ∈ expression.symbols, symbol.isExternal = true) := by
  unfold aimed
  split
  · exact ⟨demand.expression, rfl, id⟩
  · split
    · exact demand.retarget_eq _ _
    · exact demand.retarget_eq _ _
    · exact ⟨demand.expression, rfl, id⟩
    · exact ⟨demand.expression, rfl, id⟩

theorem aimed_of_required {demand : Demand K} (required : demand.isRequired = true) :
    demand.aimed asked rested = demand := if_pos required

theorem aimed_of_stay {demand : Demand K} (soft : demand.isRequired = false) {unknown : Variable}
    (isStay : demand.kind = .stay unknown) :
    demand.aimed asked rested = demand.retarget unknown (rested unknown) := by
  simp only [aimed, soft, isStay, Bool.false_eq_true, if_false]

theorem aimed_of_edit {demand : Demand K} (soft : demand.isRequired = false) {unknown : Variable}
    (isEdit : demand.kind = .edit unknown) :
    demand.aimed asked rested = demand.retarget unknown (asked unknown) := by
  simp only [aimed, soft, isEdit, Bool.false_eq_true, if_false]

theorem aimed_none (demand : Demand K) :
    demand.aimed (fun _ => none) (fun _ => none) = demand := by
  unfold aimed
  split
  · rfl
  · split <;> rfl

theorem constant_gap (unknown : Variable) (value : K) : (gap unknown value).constant = value := by
  have worth := valueAt_gap unknown value fun _ => 0
  rwa [Expression.valueAt_zero, sub_zero] at worth

theorem valueAt_retarget {demand : Demand K} {unknown : Variable} {value : K}
    (pins : demand.expression = gap unknown value) (target : Option K) (assignment : Symbol → K) :
    (demand.retarget unknown target).expression.valueAt assignment =
      target.getD demand.expression.constant - assignment unknown.symbol := by
  cases target with
  | none =>
    rw [retarget, pins, constant_gap]
    exact valueAt_gap _ _ _
  | some target => exact valueAt_gap _ _ _

theorem aimed_congr {demand : Demand K} {asked later : Variable → Option K}
    {rested settled : Variable → Option K}
    (rests : ∀ unknown, demand.kind = .stay unknown → rested unknown = settled unknown)
    (asks : ∀ unknown, demand.kind = .edit unknown → asked unknown = later unknown) :
    demand.aimed asked rested = demand.aimed later settled := by
  unfold aimed
  cases kind : demand.kind with
  | edit unknown =>
    dsimp only
    rw [asks unknown kind]
  | stay unknown =>
    dsimp only
    rw [rests unknown kind]
  | inequality => rfl
  | equality => rfl

end Demand

namespace Installed

def aimed (entry : Installed K) (asked rested : Variable → Option K) :
    Installed K :=
  { entry with constraint :=
    { entry.constraint with toDemand := entry.constraint.toDemand.aimed asked rested } }

variable (entry : Installed K)

theorem aimed_eq (asked rested : Variable → Option K) :
    ∃ expression, entry.aimed asked rested =
      ⟨⟨{ entry.constraint.toDemand with expression }, entry.constraint.key⟩, entry.marker⟩ ∧
        (entry.constraint.External → ∀ symbol ∈ expression.symbols, symbol.isExternal = true) := by
  obtain ⟨expression, same, external⟩ := entry.constraint.toDemand.aimed_eq asked rested
  exact ⟨expression, by rw [aimed, same], external⟩

theorem symbols_aimed : (entry.aimed asked rested).symbols = entry.symbols := by
  obtain ⟨expression, same, _⟩ := entry.aimed_eq asked rested
  rw [same]
  rfl

theorem balance_aimed (assignment : Symbol → K) :
    (entry.aimed asked rested).balance assignment = entry.balance assignment := by
  obtain ⟨expression, same, _⟩ := entry.aimed_eq asked rested
  rw [same]
  rfl

theorem errorCost_aimed (assignment : Symbol → K) :
    (entry.aimed asked rested).errorCost assignment = entry.errorCost assignment := by
  obtain ⟨expression, same, _⟩ := entry.aimed_eq asked rested
  rw [same]
  rfl

end Installed

namespace Solver

variable {solver before after : Solver K} {offsets : Nat → K}

def shown (solver : Solver K) (unknown : Variable) : Option K := some (solver.value unknown)

/-- The solver as if its constraints had come in with the targets that they have by now. -/
def aimed (solver : Solver K) (asked rested : Variable → Option K) : Solver K :=
  { solver with installed := solver.installed.mapValues (·.aimed asked rested) }

theorem get?_aimed {key : Nat} {entry : Installed K}
    (found : (solver.aimed asked rested).installed.get? key = some entry) :
    ∃ own, solver.installed.get? key = some own ∧ entry = own.aimed asked rested := by
  obtain ⟨own, isOwn, rfl⟩ := Option.map_eq_some_iff.mp
    ((solver.installed.get?_mapValues _ key).symm.trans found)
  exact ⟨own, isOwn, rfl⟩

theorem get?_aimed_of {key : Nat} {entry : Installed K}
    (found : solver.installed.get? key = some entry) :
    (solver.aimed asked rested).installed.get? key = some (entry.aimed asked rested) := by
  refine (solver.installed.get?_mapValues _ key).trans ?_
  rw [found]
  rfl

theorem pairs_aimed {key : Nat} {kind : ConstraintKind} {pair : Symbol × Symbol}
    (pairs : solver.ledger.Pairs key kind pair) :
    (solver.aimed asked rested).ledger.Pairs key kind pair := by
  obtain ⟨entry, found, sameKind, soft, samePair⟩ := pairs
  refine ⟨entry.aimed asked rested, get?_aimed_of found, ?_⟩
  obtain ⟨expression, same, _⟩ := entry.aimed_eq asked rested
  rw [same]
  exact ⟨sameKind, soft, samePair⟩

theorem aimed_sound (sound : solver.Sound) : (solver.aimed asked rested).Sound := by
  refine ⟨sound.fits, ?_, ?_, ?_, ?_, ?_⟩
  · intro key entry found
    obtain ⟨own, isOwn, rfl⟩ := get?_aimed found
    have enters := sound.books.entries key own isOwn
    obtain ⟨expression, same, external⟩ := own.aimed_eq asked rested
    rw [same]
    exact ⟨enters.sameKey, enters.older, external enters.external, enters.marker, enters.bound,
      enters.charge⟩
  · intro left right leftEntry rightEntry leftFound rightFound symbol inLeft inRight
    obtain ⟨leftOwn, isLeft, rfl⟩ := get?_aimed leftFound
    obtain ⟨rightOwn, isRight, rfl⟩ := get?_aimed rightFound
    rw [Installed.symbols_aimed] at inLeft inRight
    exact sound.books.apart left right leftOwn rightOwn isLeft isRight symbol inLeft inRight
  · intro key missing
    refine sound.books.uncharged key ?_
    cases found : solver.installed.get? key with
    | none => exact found
    | some entry =>
      have aimedFound : (solver.aimed asked rested).installed.get? key = none := missing
      rw [get?_aimed_of found] at aimedFound
      cases aimedFound
  · intro pair isStay
    obtain ⟨key, unknown, pairs⟩ := sound.books.stays pair isStay
    exact ⟨key, unknown, pairs_aimed pairs⟩
  · intro unknown info registered
    obtain ⟨isEdit, pairs⟩ := sound.books.edits unknown info registered
    exact ⟨isEdit, pairs_aimed pairs⟩

/-- Offsets that lead from the constraints' own targets to those they have by now. -/
def Aims (solver : Solver K) (offsets : Nat → K) (asked rested : Variable → Option K)
    : Prop :=
  ∀ key entry, solver.installed.get? key = some entry → ∀ assignment,
    (entry.aimed asked rested).constraint.expression.valueAt assignment =
      entry.constraint.expression.valueAt assignment + offsets key

theorem aims_none (solver : Solver K) :
    solver.Aims (fun _ => 0) (fun _ => none) fun _ => none := by
  intro key entry _ assignment
  rw [add_zero, Installed.aimed, Demand.aimed_none]

theorem Encodes.aimed (encodes : solver.Encodes offsets) (aims : solver.Aims offsets asked rested) :
    (solver.aimed asked rested).Encodes fun _ => 0 := by
  refine ⟨encodes.pruned, fun _ _ _ _ => rfl, fun assignment =>
    (encodes.solves assignment).trans ⟨?_, ?_⟩⟩
  · intro balanced key entry found
    obtain ⟨own, isOwn, rfl⟩ := get?_aimed found
    rw [aims key own isOwn, add_zero, Installed.balance_aimed]
    exact balanced key own isOwn
  · intro balanced key entry found
    have holds := balanced key _ (get?_aimed_of found)
    rwa [aims key entry found, add_zero, Installed.balance_aimed] at holds

theorem errorCost_aimed (assignment : Symbol → K) :
    (solver.aimed asked rested).errorCost assignment = solver.errorCost assignment := by
  unfold errorCost Table.total
  change (List.map _ (List.map _ solver.installed.entries)).sum = _
  rw [List.map_map]
  exact congrArg List.sum (List.map_congr_left fun item _ => item.2.errorCost_aimed assignment)

/-! Settling -/

omit [LinearOrder K] in
theorem shifts_settled (solver : Solver K) : solver.tableau.Shifts solver.settled.tableau
    fun basic row =>
      if basic ∈ solver.stays.map solver.tableau.stayRow then 0 else row.constant := by
  have shifts := solver.tableau.clearInfeasible.shifts_settleStays solver.stays
  exact ⟨shifts.rows, shifts.columns, shifts.basicExternals, shifts.parametricExternals,
    fun symbol member => (shifts.queued symbol member).elim nofun Or.inr⟩

theorem settled_errors (encodes : solver.Encodes offsets) (sound : solver.Sound) {key : Nat}
    {entry : Installed K} (found : solver.installed.get? key = some entry)
    (soft : entry.constraint.isRequired = false)
    (isStay : (entry.marker, entry.error) ∈ solver.stays) :
    solver.settled.tableau.basicSolution entry.marker = 0 ∧
      solver.settled.tableau.basicSolution entry.error = 0 := by
  have shifts := solver.shifts_settled
  have member : solver.tableau.stayRow (entry.marker, entry.error) ∈
      solver.stays.map solver.tableau.stayRow := List.mem_map_of_mem isStay
  rw [shifts.basicSolution, shifts.basicSolution]
  cases isBasic : solver.tableau.isBasic entry.marker with
  | true =>
    have parametric : solver.tableau.isBasic entry.error = false :=
      Bool.eq_false_iff.mpr fun alsoBasic =>
        (encodes.coupled sound found soft).oneBasic ⟨isBasic, alsoBasic⟩
    obtain ⟨row, isRow⟩ := (solver.tableau.isBasic_iff _).mp isBasic
    rw [Tableau.stayRow, if_pos isBasic] at member
    rw [isRow, Option.map_some, if_pos member, (solver.tableau.not_isBasic_iff _).mp parametric]
    exact ⟨rfl, rfl⟩
  | false =>
    rw [Tableau.stayRow, if_neg (by rw [isBasic]; exact Bool.false_ne_true)] at member
    rw [(solver.tableau.not_isBasic_iff _).mp isBasic]
    refine ⟨rfl, ?_⟩
    cases solver.tableau.row? entry.error with
    | none => rfl
    | some row => exact if_pos member

theorem Published.settled (published : solver.Published) (sound : solver.Sound) :
    solver.settled.Published := by
  have shifts := solver.shifts_settled
  intro unknown contained
  rw [containsVariable, shifts.hasColumn, shifts.isBasic] at contained
  refine (published unknown contained).trans ?_
  rw [shifts.basicSolution]
  cases found : solver.tableau.row? unknown.symbol with
  | none => exact Tableau.basicSolution_of_not_basic ((solver.tableau.not_isBasic_iff _).mpr found)
  | some row =>
    rw [Option.map_some, if_neg, Tableau.basicSolution_of_row found]
    · rfl
    · intro settles
      obtain ⟨pair, member, same⟩ := List.mem_map.mp settles
      have slack := stayRow_slack sound member
      rw [same] at slack
      cases slack

theorem Resolves.published [IsStrictOrderedRing K] (resolves : before.Resolves after)
    (repairable : before.RepairableEncoding) : after.Published := by
  obtain ⟨tableau, fits, keptByRepair, feasible, rfl⟩ := resolves
  have encoding := (repairable.mend keptByRepair fits feasible).tidy
    (tidies_publishValues (before.setTableau tableau))
  have published : (before.setTableau tableau).publishValues.Published :=
    published_publishValues fits.indexed
  exact published.settled encoding.sound

theorem Resolves.again (resolves : before.Resolves after) (feasible : before.tableau.Feasible)
    (published : before.Published) : after.value = before.value := by
  obtain ⟨tableau, fits, keptByRepair, _, rfl⟩ := resolves
  obtain ⟨rows, columns⟩ := keptByRepair.idle feasible
  exact published.again fits.indexed rows columns

/-- Every edit and every stay that is not required can be found by its variable and its symbols, and
the targets of the edits are those asked for. -/
structure Registers (solver : Solver K) (asked : Variable → Option K) : Prop where
  targeted : ∀ key entry, solver.installed.get? key = some entry → entry.constraint.Targeted
  stays : ∀ key entry unknown, solver.installed.get? key = some entry →
    entry.constraint.isRequired = false → entry.constraint.kind = .stay unknown →
    (entry.marker, entry.error) ∈ solver.stays
  edits : ∀ key entry unknown, solver.installed.get? key = some entry →
    entry.constraint.kind = .edit unknown →
    ∃ info, solver.edits.get? unknown = some info ∧ info.constraint.key = key ∧
      info.target = (asked unknown).getD entry.constraint.expression.constant

theorem Registers.of_same (registers : before.Registers asked) {after : Solver K}
    (installed : after.installed = before.installed) (stays : after.stays = before.stays)
    (edits : after.edits = before.edits) : after.Registers asked := by
  refine ⟨?_, ?_, ?_⟩
  · rw [installed]
    exact registers.targeted
  · rw [installed, stays]
    exact registers.stays
  · rw [installed, edits]
    exact registers.edits

theorem settled_sound (sound : solver.Sound) : solver.settled.Sound := by
  have reaches : Reaches (fun _ => False) solver solver.settled := settle_reaches solver
  exact reaches.sound sound

theorem settled_offset (published : solver.Published) (encodes : solver.Encodes offsets)
    (sound : solver.Sound) {later : Nat → K} (settled : solver.settled.Encodes later) {key : Nat}
    {entry : Installed K} (found : solver.installed.get? key = some entry)
    (soft : entry.constraint.isRequired = false)
    (isStay : (entry.marker, entry.error) ∈ solver.stays) {unknown : Variable} {value : K}
    (pins : entry.constraint.expression = Demand.gap unknown value) :
    later key = solver.value unknown - value := by
  have settledSound := settled_sound sound
  have indexed := settledSound.fits.indexed
  have publishedLater := published.settled sound
  obtain ⟨markerZero, errorZero⟩ := settled_errors encodes sound found soft isStay
  have enters := sound.books.entries key entry found
  have balanced := (settled.solves _).mp
    (Tableau.solves_completed indexed fun symbol =>
      if symbol.isExternal then solver.settled.value ⟨symbol.id⟩ else 0) key entry found
  change _ = entry.balance solver.settled.publishedSolution at balanced
  rw [Installed.balance, soft, if_neg Bool.false_ne_true,
    publishedLater.solution_internal indexed (enters.symbol_known entry.marker_mem_symbols).2.1,
    publishedLater.solution_internal indexed
      (enters.symbol_known (Installed.error_mem_symbols soft)).2.1,
    markerZero, errorZero, pins, Demand.valueAt_gap] at balanced
  have shown : solver.settled.publishedSolution unknown.symbol = solver.value unknown :=
    publishedLater.solution_variable indexed unknown
  change value - solver.settled.publishedSolution unknown.symbol + later key = _ at balanced
  linear_combination balanced + shown

theorem Aims.settle (registers : solver.Registers asked) (aims : solver.Aims offsets asked rested)
    (encodes : solver.Encodes offsets) (sound : solver.Sound) (published : solver.Published) :
    ∃ later, solver.settled.Encodes later ∧ solver.settled.Aims later asked solver.shown := by
  have cleared : (solver.setTableau solver.tableau.clearInfeasible).Encodes offsets :=
    encodes.of_same rfl rfl
  obtain ⟨later, settled, resettles⟩ := cleared.settleStays sound.clearInfeasible
  refine ⟨later, settled, ?_⟩
  intro key entry found assignment
  have others : entry.constraint.isStay = false →
      (entry.aimed asked solver.shown).constraint.expression.valueAt assignment =
        entry.constraint.expression.valueAt assignment + later key := by
    intro notStay
    rw [resettles key entry found notStay, ← aims key entry found]
    refine congrArg (fun demand : Demand K => demand.expression.valueAt assignment)
      (Demand.aimed_congr (fun unknown isStay => ?_) fun _ _ => rfl)
    rw [Demand.isStay, isStay] at notStay
    cases notStay
  cases required : entry.constraint.isRequired with
  | true =>
    rw [settled.required key entry found required, add_zero]
    exact congrArg (fun demand : Demand K => demand.expression.valueAt assignment)
      (Demand.aimed_of_required required)
  | false =>
    cases kind : entry.constraint.kind with
    | stay unknown =>
      have named : entry.constraint.unknown? = some unknown := by rw [Demand.unknown?, kind]
      obtain ⟨value, pins⟩ := registers.targeted key entry found unknown named
      rw [Installed.aimed, Demand.aimed_of_stay required kind, Demand.valueAt_retarget pins, shown,
        Option.getD_some, pins, Demand.valueAt_gap,
        settled_offset published encodes sound settled found required
          (registers.stays key entry unknown found required kind) pins]
      ring
    | _ => exact others (by rw [Demand.isStay, kind])

omit [LinearOrder K] in
theorem settled_rows (solver : Solver K) :
    solver.settled.tableau.rows = solver.settleStays.tableau.rows := by
  have same : ∀ (pairs : List (Symbol × Symbol)) (left right : Tableau K), left.rows = right.rows →
      (pairs.foldl settleStay left).rows = (pairs.foldl settleStay right).rows := by
    intro pairs
    induction pairs with
    | nil => exact fun _ _ same => same
    | cons pair rest ih =>
      rintro ⟨⟩ ⟨⟩ ⟨⟩
      exact ih _ _ rfl
  exact same solver.stays _ _ rfl

theorem aimed_optimal [IsStrictOrderedRing K] {surplus : K} (sound : solver.Sound)
    (encodes : solver.Encodes offsets) (aims : solver.Aims offsets asked rested)
    (prices : solver.PricesUpTo surplus) (feasible : solver.tableau.Feasible)
    (weighs : ∀ key entry, solver.installed.get? key = some entry →
      entry.constraint.isRequired = false → 0 ≤ entry.constraint.weight)
    (published : solver.Published) (dual : solver.tableau.DualFeasible .mainObjective) :
    (solver.aimed asked rested).Optimal := by
  have aimedPrices : (solver.aimed asked rested).PricesUpTo surplus := by
    intro costs assignment found solves
    rw [errorCost_aimed]
    exact prices costs assignment found solves
  refine aimedPrices.optimal (aimed_sound sound) (encodes.aimed aims) feasible ?_ published dual
  intro key entry found
  obtain ⟨own, isOwn, rfl⟩ := get?_aimed found
  obtain ⟨expression, same, _⟩ := own.aimed_eq asked rested
  rw [same]
  exact weighs key own isOwn

/-! Moving targets -/

section Moving

variable {unknown : Variable} {info : EditInfo K}

theorem Registers.retarget (registers : solver.Registers asked)
    (registered : solver.edits.get? unknown = some info) (target : K) :
    (solver.retargeted unknown info target).Registers
      (Function.update asked unknown (some target)) := by
  refine ⟨registers.targeted, registers.stays, fun key entry other found kind => ?_⟩
  obtain ⟨otherInfo, isRegistered, sameKey, targets⟩ := registers.edits key entry other found kind
  change ∃ _, Table.get? (solver.edits.insert unknown _) other = _ ∧ _
  rw [Table.get?_insert]
  by_cases same : unknown = other
  · subst same
    rw [registered] at isRegistered
    cases isRegistered
    rw [if_pos rfl, Function.update_self]
    exact ⟨_, rfl, sameKey, rfl⟩
  · rw [if_neg same, Function.update_of_ne (Ne.symm same)]
    exact ⟨otherInfo, isRegistered, sameKey, targets⟩

theorem Aims.retarget (aims : solver.Aims offsets asked rested)
    (registers : solver.Registers asked) (sound : solver.Sound)
    (registered : solver.edits.get? unknown = some info) (target : K) :
    (solver.retargeted unknown info target).Aims
      (Function.update offsets info.constraint.key
        (offsets info.constraint.key + (target - info.target)))
      (Function.update asked unknown (some target)) rested := by
  intro key entry found assignment
  by_cases same : key = info.constraint.key
  · subst same
    obtain ⟨own, isOwn, kind, soft, _⟩ := edit_symbols sound registered
    have sameEntry : entry = own := Option.some.inj (found.symm.trans isOwn)
    subst sameEntry
    have named : entry.constraint.unknown? = some unknown := by rw [Demand.unknown?, kind]
    obtain ⟨value, pins⟩ := registers.targeted _ entry isOwn unknown named
    obtain ⟨other, isRegistered, _, targets⟩ := registers.edits _ entry unknown isOwn kind
    rw [registered] at isRegistered
    cases isRegistered
    have wasAimed := aims _ entry isOwn assignment
    rw [Installed.aimed, Demand.aimed_of_edit soft kind, Demand.valueAt_retarget pins,
      ← targets] at wasAimed
    rw [Installed.aimed, Demand.aimed_of_edit soft kind, Demand.valueAt_retarget pins,
      Function.update_self, Function.update_self, Option.getD_some]
    linear_combination wasAimed
  · rw [Function.update_of_ne same, ← aims key entry found]
    refine congrArg (fun demand : Demand K => demand.expression.valueAt assignment)
      (Demand.aimed_congr (fun _ _ => rfl) fun other kind => ?_)
    refine Function.update_of_ne ?_ _ _
    rintro rfl
    obtain ⟨otherInfo, isRegistered, sameKey, _⟩ := registers.edits key entry other found kind
    rw [registered] at isRegistered
    cases isRegistered
    exact same sameKey.symm

end Moving

end Solver

end SoftSimplex
