import SoftSimplex.Proofs.Composition
import SoftSimplex.Proofs.Protocol

/-!
What the calls of a solver do, as chains of moves. A call adds only constraints with new keys, a
constraint of the caller apart, and what it makes agrees with the books.
-/

namespace SoftSimplex

section Demands

variable {K : Type} [Scalar K]

theorem Expression.mem_symbols_of_ofVariable [Zero K] [One K] {unknown : Variable} {symbol : Symbol}
    (member : symbol ∈ (ofVariable unknown : Expression K).symbols) : symbol = unknown.symbol :=
  (mem_symbols_of_setTerm member).resolve_right List.not_mem_nil

theorem Expression.mem_symbols_of_sub [One K] [Add K] [Neg K] [Mul K] {left right : Expression K}
    {symbol : Symbol} (member : symbol ∈ (left - right).symbols) :
    symbol ∈ left.symbols ∨ symbol ∈ right.symbols :=
  mem_symbols_of_addScaledReporting member

variable [Zero K] [One K] [Add K] [Neg K] [Mul K]

theorem Demand.mem_symbols_of_gap {unknown : Variable} {value : K} {symbol : Symbol}
    (member : symbol ∈ (Demand.gap unknown value).symbols) : symbol = unknown.symbol :=
  (Expression.mem_symbols_of_sub member).elim (fun constant => nomatch constant)
    Expression.mem_symbols_of_ofVariable

theorem Demand.external_gap (unknown : Variable) (value : K) {symbol : Symbol}
    (member : symbol ∈ (Demand.gap unknown value).symbols) : symbol.isExternal = true := by
  rw [Demand.mem_symbols_of_gap member]
  rfl

theorem Demand.external_edit (unknown : Variable) (value : K) (strength : Strength) :
    (Demand.edit unknown value strength).External :=
  fun _ member => Demand.external_gap unknown value member

theorem Demand.external_stay (unknown : Variable) (value : K) (strength : Strength) (weight : K) :
    (Demand.stay unknown value strength weight).External :=
  fun _ member => Demand.external_gap unknown value member

theorem Demand.external_lowerBound (unknown : Variable) (lower : K) (strength : Strength) :
    (Demand.atLeast (.ofVariable unknown) (.ofConstant lower) strength).External := by
  intro symbol member
  rcases Expression.mem_symbols_of_sub member with named | constant
  · rw [Expression.mem_symbols_of_ofVariable named]
    rfl
  · cases constant

theorem Demand.external_upperBound (unknown : Variable) (upper : K) (strength : Strength) :
    (Demand.atMost (.ofVariable unknown) (.ofConstant upper) strength).External :=
  fun _ member => Demand.external_gap unknown upper member

end Demands

namespace Solver

variable {K : Type} [Zero K] [One K] [Add K] [Sub K] [Neg K] [Mul K] [Div K] [LT K] [DecidableLT K]
  [Scalar K] {given : Constraint K → Prop} {before middle after : Solver K}
  {limit : Nat} {constraint : Constraint K}

/-! Chains -/

section Chains

def Evolves (before after : Solver K) : Prop :=
  Reaches (fun constraint => before.nextKey ≤ constraint.key) before after

theorem Evolves.refl (solver : Solver K) : solver.Evolves solver := Relation.ReflTransGen.refl

theorem Evolves.trans (first : before.Evolves middle) (second : middle.Evolves after) :
    before.Evolves after :=
  Relation.ReflTransGen.trans first
    (second.weaken fun _ later => Nat.le_trans first.nextKey_le later)

theorem Evolves.agrees (evolves : before.Evolves after) (agrees : before.Agrees constraint) :
    after.Agrees constraint := by
  refine Reaches.agrees evolves agrees ?_
  intro other later same
  have older := agrees.older
  omega

theorem reaches_of_improvements {objective : Symbol} {tableau : Tableau K}
    (improved : Relation.ReflTransGen (Tableau.Improves objective) before.tableau tableau) :
    Reaches given before (before.setTableau tableau) := by
  induction improved with
  | refl => exact .refl
  | tail _ improves ih =>
    obtain ⟨_, _, leaving, _, _, _, _, leaves, pivots⟩ := improves
    refine ih.tail (.pivot ?_ pivots)
    intro same
    have pivotable := (Tableau.leaving_mem leaves).2
    simp [Symbol.isPivotable, same, SymbolKind.isPivotable] at pivotable

theorem minimize_reaches (given : Constraint K → Prop) (indexed : before.tableau.Indexed) :
    (Tableau.minimize .mainObjective limit before.tableau).Meets
      (fun _ tableau => Reaches given before (before.setTableau tableau))
      (fun _ tableau => Reaches given before (before.setTableau tableau)) := by
  refine (Tableau.minimize_meets indexed).imp ?_ ?_
  · rintro _ tableau ⟨_, minimized⟩
    exact reaches_of_improvements minimized.improved
  · exact fun _ tableau met => reaches_of_improvements met.1

omit [One K] [Add K] [Sub K] [Neg K] [Mul K] [Div K] [LT K] [DecidableLT K] [Scalar K] in
theorem tidies_publishValues (solver : Solver K) : solver.Tidies solver.publishValues := by
  have kept : ∀ (values : List (Variable × K)) (current : Solver K), solver.Tidies current →
      solver.Tidies
        (values.foldl (fun current entry => current.setValue entry.1 entry.2) current) := by
    intro values
    induction values with
    | nil => exact fun _ tidies => tidies
    | cons entry rest ih =>
      intro current tidies
      exact ih _ ⟨tidies.tableau, tidies.installed, tidies.charges, tidies.stays, tidies.edits,
        tidies.nextId, tidies.nextKey⟩
  have zeroed : ∀ (unknowns : List Variable) (current : Solver K), solver.Tidies current →
      solver.Tidies
        (unknowns.foldl (fun current unknown => current.setValue unknown 0) current) := by
    intro unknowns current tidies
    have mapped := kept (unknowns.map fun unknown => (unknown, 0)) current tidies
    rwa [List.foldl_map] at mapped
  have start := Tidies.refl solver
  unfold publishValues
  dsimp only
  obtain ⟨tableau, installed, charges, stays, edits, nextId, nextKey⟩ :=
    kept _ _ (zeroed _ solver start)
  exact ⟨tableau, installed, charges, stays, edits, nextId, nextKey⟩

omit [Sub K] in
theorem Follows.tidies (follows : before.Follows after) :
    (before.setTableau after.tableau).Tidies after := by
  unfold Follows at follows
  split at follows
  · obtain ⟨least, tableau, _, rfl⟩ := follows
    have tidies := tidies_publishValues (before.setTableau tableau)
    rw [tidies.tableau]
    exact tidies
  · rw [follows]
    exact .refl before

theorem Publishes.reaches (publishes : before.Publishes after) : Reaches given before after := by
  obtain ⟨least, tableau, minimized, rfl⟩ := publishes
  exact (reaches_of_improvements minimized.improved).tail (.tidy (tidies_publishValues _))

theorem Escapes.reaches (escapes : before.Escapes after) : Reaches given before after := by
  obtain ⟨tableau, unbounded, rfl⟩ := escapes
  exact reaches_of_improvements unbounded.1

theorem Follows.reaches (follows : before.Follows after) : Reaches given before after := by
  unfold Follows at follows
  split at follows
  · exact follows.reaches
  · rw [follows]
    exact .refl

theorem Publishes.sound (publishes : before.Publishes after) (sound : before.Sound) :
    after.Sound := by
  have reaches : Reaches (fun _ => False) before after := publishes.reaches
  exact reaches.sound sound

theorem Escapes.sound (escapes : before.Escapes after) (sound : before.Sound) : after.Sound := by
  have reaches : Reaches (fun _ => False) before after := escapes.reaches
  exact reaches.sound sound

theorem Follows.sound (follows : before.Follows after) (sound : before.Sound) : after.Sound := by
  have reaches : Reaches (fun _ => False) before after := follows.reaches
  exact reaches.sound sound

omit [Zero K] [One K] [Add K] [Sub K] [Neg K] [Mul K] [Div K] [LT K] [DecidableLT K] [Scalar K] in
theorem tidies_nextId {nextId : Nat} (grows : before.nextId ≤ nextId) :
    before.Tidies { before with nextId } :=
  ⟨rfl, rfl, rfl, rfl, rfl, grows, Nat.le_refl _⟩

theorem AddFails.reaches {fault : Fault} (fails : before.AddFails constraint fault after)
    (isGiven : given constraint) (external : constraint.External)
    (older : constraint.key < before.nextKey) : Reaches given before after := by
  have grows := before.equationFor_nextId constraint
  cases fails with
  | objected _ => exact .refl
  | contradicted _ _ => exact .single (.tidy (tidies_nextId (Nat.le_of_lt grows)))
  | refused _ _ _ => exact .single (.tidy (tidies_nextId (by omega)))
  | unbounded installs _ escapes =>
    exact .head (.install isGiven external older installs) escapes.reaches

theorem RemoveFails.reaches {fault : Fault} (fails : before.RemoveFails constraint fault after)
    (sameKind : ∀ entry, before.installed.get? constraint.key = some entry →
      entry.constraint.kind = constraint.kind) : Reaches given before after := by
  cases fails with
  | missing _ => exact .refl
  | unbounded uninstalls _ escapes =>
    exact .head (.uninstall (sameKind _ uninstalls.found) uninstalls) escapes.reaches

inductive FindsUnbounded (before after : Solver K) : Prop
  | add {constraint : Constraint K} (external : constraint.External)
      (older : constraint.key < before.nextKey)
      (fails : before.AddFails constraint (.internal .objectiveUnbounded) after)
  | remove {constraint : Constraint K}
      (sameKind : ∀ entry, before.installed.get? constraint.key = some entry →
        entry.constraint.kind = constraint.kind)
      (fails : before.RemoveFails constraint (.internal .objectiveUnbounded) after)
  | optimize (escapes : before.Escapes after)

/-- A chain of moves that ends in a failure. If there is no least value, the chain leads to where
that was found. -/
structure ReachesFailure (given : Constraint K → Prop) (before : Solver K) (fault : Fault)
    (after : Solver K) : Prop where
  reaches : Reaches given before after
  findsUnbounded : fault = .internal .objectiveUnbounded →
    ∃ middle, Reaches given before middle ∧ middle.FindsUnbounded after

theorem Reaches.reachesFailure {fault : Fault} (reaches : Reaches given before after)
    (other : fault ≠ .internal .objectiveUnbounded) : ReachesFailure given before fault after :=
  ⟨reaches, fun same => absurd same other⟩

theorem ReachesFailure.prepend {fault : Fault} (failing : ReachesFailure given middle fault after)
    (reaches : Reaches given before middle) : ReachesFailure given before fault after := by
  refine ⟨reaches.trans failing.reaches, fun same => ?_⟩
  obtain ⟨last, chain, findsUnbounded⟩ := failing.findsUnbounded same
  exact ⟨last, reaches.trans chain, findsUnbounded⟩

theorem ReachesFailure.weaken {more : Constraint K → Prop} {fault : Fault}
    (failing : ReachesFailure given before fault after)
    (weaker : ∀ constraint, given constraint → more constraint) :
    ReachesFailure more before fault after := by
  refine ⟨failing.reaches.weaken weaker, fun same => ?_⟩
  obtain ⟨last, chain, findsUnbounded⟩ := failing.findsUnbounded same
  exact ⟨last, chain.weaken weaker, findsUnbounded⟩

theorem ReachesFailure.mapFault {change : Fault → Fault} (wraps : Fault.Wraps change) {fault : Fault}
    (failing : ReachesFailure given before fault after) :
      ReachesFailure given before (change fault) after :=
  ⟨failing.reaches, fun same => failing.findsUnbounded (wraps.unbounded same)⟩

theorem AddFails.reachesFailure {fault : Fault} (fails : before.AddFails constraint fault after)
    (isGiven : given constraint) (external : constraint.External)
    (older : constraint.key < before.nextKey) : ReachesFailure given before fault after := by
  refine ⟨fails.reaches isGiven external older, ?_⟩
  rintro rfl
  exact ⟨before, .refl, .add external older fails⟩

theorem RemoveFails.reachesFailure {fault : Fault} (fails : before.RemoveFails constraint fault after)
    (sameKind : ∀ entry, before.installed.get? constraint.key = some entry →
      entry.constraint.kind = constraint.kind) : ReachesFailure given before fault after := by
  refine ⟨fails.reaches sameKind, ?_⟩
  rintro rfl
  exact ⟨before, .refl, .remove sameKind fails⟩

omit [Sub K] in
theorem Installs.agrees {placement : Placement K} {tableau : Tableau K} {nextId : Nat}
    (installs : before.Installs constraint placement tableau nextId after)
    (external : constraint.External) (older : constraint.key < before.nextKey) :
    after.Agrees constraint := by
  rw [installs.result]
  refine ⟨external, ?_, ?_⟩
  · rw [(ids_record _ _ _).2]
    exact older
  · intro entry found
    rw [get?_installed_record, if_pos rfl] at found
    cases found
    rfl

end Chains

/-! Calls -/

section Calls

def EvolvesToFailure (before : Solver K) (fault : Fault) (after : Solver K) : Prop :=
  ReachesFailure (fun constraint => before.nextKey ≤ constraint.key) before fault after

theorem Evolves.evolvesToFailure {fault : Fault} (evolves : before.Evolves middle)
    (failing : middle.EvolvesToFailure fault after) : before.EvolvesToFailure fault after :=
  (failing.weaken fun _ later => Nat.le_trans evolves.nextKey_le later).prepend evolves

/-- A call that only brings in new constraints, with what its result meets. -/
def Evolving {α : Type} (action : Action K (Solver K) α) (limit : Nat) (before : Solver K)
    (returned : α → Solver K → Prop) : Prop :=
  (action limit before).Meets (fun value after => before.Evolves after ∧ returned value after)
    (fun fault after => before.EvolvesToFailure fault after)

theorem evolving_bind {α β : Type} {first : Action K (Solver K) α}
    {next : α → Action K (Solver K) β} (returned : α → Solver K → Prop)
    {finished : β → Solver K → Prop} (sound : before.Sound)
    (start : Evolving first limit before returned)
    (continued : ∀ value middle, before.Evolves middle → middle.Sound → returned value middle →
      Evolving (next value) limit middle finished) :
    Evolving (first >>= next) limit before finished := by
  refine (Action.meets_bind _ _ _).mpr (start.imp ?_ fun _ _ failing => failing)
  rintro value middle ⟨evolves, met⟩
  refine (continued value middle evolves (evolves.sound sound) met).imp ?_ ?_
  · rintro result after ⟨later, meets⟩
    exact ⟨evolves.trans later, meets⟩
  · exact fun _ after failing => evolves.evolvesToFailure failing

theorem evolving_get {α : Type} {next : Solver K → Action K (Solver K) α}
    {returned : α → Solver K → Prop} (continued : Evolving (next before) limit before returned) :
    Evolving (Action.get >>= next) limit before returned :=
  (Action.meets_bind _ _ _).mpr continued

theorem evolving_pure {α : Type} {value : α} {returned : α → Solver K → Prop}
    (met : returned value before) : Evolving (Pure.pure value) limit before returned :=
  ⟨Evolves.refl before, met⟩

theorem evolving_mapFault {α : Type} {action : Action K (Solver K) α} {change : Fault → Fault}
    {returned : α → Solver K → Prop} (wraps : Fault.Wraps change)
    (evolving : Evolving action limit before returned) :
    Evolving (action.mapFault change) limit before returned :=
  (Action.meets_mapFault _ _ _).mpr (Outcome.Meets.imp evolving (fun _ _ met => met)
    fun _ _ failing => failing.mapFault wraps)

theorem Evolving.imp {α : Type} {action : Action K (Solver K) α}
    {returned weaker : α → Solver K → Prop} (evolving : Evolving action limit before returned)
    (weaken : ∀ value after, returned value after → weaker value after) :
    Evolving action limit before weaker :=
  Outcome.Meets.imp evolving (fun value after met => ⟨met.1, weaken value after met.2⟩)
    fun _ _ failing => failing

def AlwaysEvolves {α : Type} (action : Action K (Solver K) α) : Prop :=
  ∀ limit before, before.Sound → Evolving action limit before fun _ _ => True

theorem compositional_alwaysEvolves {ω : Type} (sees : Solver K → ω) :
    Action.Compositional sees fun α => AlwaysEvolves (K := K) (α := α) where
  pure _ := fun _ _ _ => evolving_pure trivial
  fail fault expected := fun _ _ _ => Reaches.reachesFailure .refl fun same => by
    rw [same] at expected
    cases expected
  read _ continued := fun limit before sound => evolving_get (continued before limit before sound)
  bind evolves continued := fun limit before sound =>
    evolving_bind _ sound (evolves limit before sound)
      fun value middle _ middleSound _ => continued value limit middle middleSound
  mapFault _ wraps evolves := fun limit before sound =>
    evolving_mapFault wraps (evolves limit before sound)

theorem evolves_modify {change : Solver K → Solver K}
    (reached : ∀ before : Solver K, before.Evolves (change before)) :
    AlwaysEvolves (Action.modify change) := fun _ before _ => ⟨reached before, trivial⟩

theorem evolves_report (events : List (Event K)) :
    AlwaysEvolves (Action.report events : Action K (Solver K) Unit) :=
  fun _ before _ => ⟨Evolves.refl before, trivial⟩

theorem add_reaches (given : Constraint K → Prop) (sound : before.Sound)
    (external : constraint.External)
    (older : constraint.key < before.nextKey) (isGiven : given constraint) :
    (add constraint limit before).Meets
      (fun _ after => Reaches given before after ∧ after.Agrees constraint)
      (fun fault after => ReachesFailure given before fault after) := by
  refine (add_meets sound external older).imp ?_ ?_
  · rintro _ after ⟨placement, tableau, nextId, installed, installs, follows⟩
    have rest : Reaches (· = constraint) installed after := follows.reaches
    refine ⟨.head (.install isGiven external older installs) follows.reaches, ?_⟩
    exact rest.agrees (installs.agrees external older) fun other same _ => by rw [same]
  · exact fun _ _ fails => fails.reachesFailure isGiven external older

theorem tryAdd_reaches (given : Constraint K → Prop) (sound : before.Sound)
    (external : constraint.External)
    (older : constraint.key < before.nextKey) (isGiven : given constraint) :
    (tryAdd constraint limit before).Meets (fun _ after => Reaches given before after)
      (fun fault after => ReachesFailure given before fault after) := by
  unfold tryAdd
  rw [Action.meets_bind, Action.meets_attempt]
  refine (add_reaches given sound external older isGiven).imp ?_ ?_
  · exact fun _ _ met => met.1
  · intro fault after failing
    cases fault with
    | requiredFailure => exact failing.reaches
    | _ => exact failing

theorem remove_reaches (sound : before.Sound)
    (sameKind : ∀ entry, before.installed.get? constraint.key = some entry →
      entry.constraint.kind = constraint.kind) :
    (remove constraint limit before).Meets (fun _ after => Reaches given before after)
      (fun fault after => ReachesFailure given before fault after) := by
  refine (remove_meets sound sameKind).imp ?_ ?_
  · rintro _ after ⟨entry, dropped, removed, uninstalls, follows⟩
    exact .head (.uninstall (sameKind entry uninstalls.found) uninstalls) follows.reaches
  · exact fun _ _ fails => fails.reachesFailure sameKind

def withNextKey (solver : Solver K) : Solver K := { solver with nextKey := solver.nextKey + 1 }

omit [Zero K] [One K] [Add K] [Sub K] [Neg K] [Mul K] [Div K] [LT K] [DecidableLT K] [Scalar K] in
theorem tidies_withNextKey (solver : Solver K) : solver.Tidies solver.withNextKey :=
  ⟨rfl, rfl, rfl, rfl, rfl, Nat.le_refl _, Nat.le_succ _⟩

omit [Zero K] [One K] [Add K] [Sub K] [Neg K] [Mul K] [Div K] [LT K] [DecidableLT K] [Scalar K] in
theorem freshConstraint_bind {α : Type} (demand : Demand K)
    (next : Constraint K → Action K (Solver K) α) :
    (freshConstraint demand >>= next) limit before =
      next ⟨demand, before.nextKey⟩ limit before.withNextKey :=
  (Action.bind_done rfl).trans (Outcome.after_nil _)

omit [Sub K] in
theorem meets_addNew (demand : Demand K) (returned : Constraint K → Solver K → Prop)
    (broken : Fault → Solver K → Prop) :
    (addNew demand limit before).Meets returned broken ↔
      (add ⟨demand, before.nextKey⟩ limit before.withNextKey).Meets
        (fun _ after => returned ⟨demand, before.nextKey⟩ after) broken := by
  unfold addNew
  rw [freshConstraint_bind]
  exact Action.meets_bind (add ⟨demand, before.nextKey⟩) _ _

omit [Sub K] in
theorem meets_addEdit (unknown : Variable) (strength : Strength) (returned : Solver K → Prop)
    (broken : Fault → Solver K → Prop) :
    (addEdit unknown strength limit before).Meets (fun _ after => returned after) broken ↔
      (add ⟨.edit unknown (before.value unknown) strength, before.nextKey⟩ limit
        before.withNextKey).Meets (fun _ after => returned after)
        (fun fault after =>
          broken (Fault.replacing .requiredFailure (.internal .editRefused) fault) after) := by
  unfold addEdit
  rw [Action.meets_bind, Action.meets_get, freshConstraint_bind]
  exact Action.meets_mapFault _ _ _

theorem addFresh_meets (sound : before.Sound) {demand : Demand K} (external : demand.External) :
    (add ⟨demand, before.nextKey⟩ limit before.withNextKey).Meets
      (fun _ after => before.Evolves after ∧ after.Agrees ⟨demand, before.nextKey⟩)
      (fun fault after => before.EvolvesToFailure fault after) := by
  have tidies := before.tidies_withNextKey
  have first : Move (fun other : Constraint K => before.nextKey ≤ other.key) before
      before.withNextKey := .tidy tidies
  refine (add_reaches (fun other => before.nextKey ≤ other.key) (tidies.sound sound) external
    (Nat.lt_succ_self _) (Nat.le_refl before.nextKey)).imp ?_ ?_
  · exact fun _ after met => ⟨.head first met.1, met.2⟩
  · exact fun _ after failing => failing.prepend (.single first)

theorem addNew_evolves (sound : before.Sound) {demand : Demand K} (external : demand.External) :
    Evolving (addNew demand) limit before fun made after => after.Agrees made := by
  unfold Evolving
  rw [meets_addNew]
  exact addFresh_meets sound external

theorem addBounds_evolves (sound : before.Sound) (unknown : Variable) (lower upper : K) :
    Evolving (addBounds unknown lower upper) limit before
      fun made after => after.Agrees made.1 ∧ after.Agrees made.2 := by
  refine evolving_bind _ sound
    (addNew_evolves sound (Demand.external_lowerBound unknown lower .required)) ?_
  intro below middle _ middleSound belowAgrees
  refine evolving_bind (fun above after => after.Agrees below ∧ after.Agrees above)
    middleSound ?_ fun above after _ _ met => evolving_pure met
  refine Outcome.Meets.imp
    (addNew_evolves middleSound (Demand.external_upperBound unknown upper .required)) ?_
    fun _ _ failing => failing
  rintro above after ⟨evolves, aboveAgrees⟩
  exact ⟨evolves, evolves.agrees belowAgrees, aboveAgrees⟩

theorem addStay_evolves (sound : before.Sound) (unknown : Variable) (strength : Strength)
    (weight : K) :
    Evolving (addStay unknown strength weight) limit before fun made after => after.Agrees made :=
  evolving_get (addNew_evolves sound (Demand.external_stay unknown _ strength weight))

theorem addPointStay_evolves (sound : before.Sound) (horizontal vertical : Variable) (weight : K) :
    Evolving (addPointStay horizontal vertical weight) limit before
      fun made after => after.Agrees made.1 ∧ after.Agrees made.2 := by
  refine evolving_bind _ sound (addStay_evolves sound horizontal .weak weight) ?_
  intro first middle _ middleSound firstAgrees
  refine evolving_bind (fun second after => after.Agrees first ∧ after.Agrees second)
    middleSound ?_ fun second after _ _ met => evolving_pure met
  refine Outcome.Meets.imp (addStay_evolves middleSound vertical .weak weight) ?_
    fun _ _ failing => failing
  rintro second after ⟨evolves, secondAgrees⟩
  exact ⟨evolves, evolves.agrees firstAgrees, secondAgrees⟩

theorem addPointStaysFrom_evolves (sound : before.Sound) (weight : K)
    (points : List (Variable × Variable)) :
    Evolving (addPointStaysFrom weight points) limit before
      fun made after => ∀ constraint ∈ made, after.Agrees constraint := by
  induction points generalizing before weight with
  | nil => exact evolving_pure nofun
  | cons point rest ih =>
    refine evolving_bind _ sound (addPointStay_evolves sound point.1 point.2 weight) ?_
    rintro ⟨first, second⟩ middle _ middleSound ⟨firstAgrees, secondAgrees⟩
    refine evolving_get (evolving_bind (fun made after =>
      ∀ constraint ∈ first :: second :: made, after.Agrees constraint) middleSound ?_
        fun made after _ _ met => evolving_pure met)
    refine Outcome.Meets.imp (ih middleSound _) ?_ fun _ _ failing => failing
    rintro made after ⟨evolves, agree⟩
    refine ⟨evolves, List.forall_mem_cons.mpr ⟨evolves.agrees firstAgrees,
      List.forall_mem_cons.mpr ⟨evolves.agrees secondAgrees, agree⟩⟩⟩

theorem addVariable_evolves (sound : before.Sound) (unknown : Variable) :
    Evolving (addVariable unknown) limit before fun _ _ => True := by
  have stays : AlwaysEvolves (addStay unknown .weak 1 : Action K (Solver K) (Constraint K)) :=
    fun _ _ sound => (addStay_evolves sound unknown .weak 1).imp fun _ _ _ => trivial
  exact (compositional_alwaysEvolves outlook).closed (addVariableScript (.part stays)) _ _ sound

theorem addEdit_evolves (sound : before.Sound) (unknown : Variable) (strength : Strength) :
    Evolving (addEdit unknown strength) limit before fun _ _ => True := by
  have wraps : Fault.Wraps (Fault.replacing .requiredFailure (.internal .editRefused)) :=
    Fault.wraps_replacing (by decide)
  unfold Evolving
  rw [meets_addEdit]
  exact (addFresh_meets sound (Demand.external_edit unknown _ strength)).imp
    (fun _ _ met => ⟨met.1, trivial⟩) fun _ _ failing => failing.mapFault wraps

theorem remove_evolves (sound : before.Sound)
    (sameKind : ∀ entry, before.installed.get? constraint.key = some entry →
      entry.constraint.kind = constraint.kind) :
    Evolving (remove constraint) limit before fun _ _ => True :=
  (remove_reaches sound sameKind).imp (fun _ _ reaches => ⟨reaches, trivial⟩)
    fun _ _ failing => failing

omit [Sub K] [Neg K] [Div K] [LT K] [DecidableLT K] in
theorem Sound.edit_kind (sound : before.Sound) {unknown : Variable} {info : EditInfo K}
    (registered : before.edits.get? unknown = some info) :
    ∀ entry, before.installed.get? info.constraint.key = some entry →
      entry.constraint.kind = info.constraint.kind := by
  obtain ⟨isEdit, other, found, kind, _⟩ := sound.books.edits unknown info registered
  intro entry present
  have same : entry = other := Option.some.inj (present.symm.trans found)
  rw [same, kind, isEdit]

theorem removeEdit_evolves (sound : before.Sound) (unknown : Variable) :
    Evolving (removeEdit unknown) limit before fun _ _ => True := by
  refine (meets_removeEdit unknown).mpr ?_
  cases registered : before.edits.get? unknown with
  | none => exact Reaches.reachesFailure .refl nofun
  | some info => exact remove_evolves sound (sound.edit_kind registered)

theorem removeRegistered_evolves (sound : before.Sound) (unknown : Variable) :
    Evolving (removeRegistered unknown) limit before fun _ _ => True :=
  evolving_mapFault (Fault.wraps_replacing (by decide)) (removeEdit_evolves sound unknown)

theorem trimEdits_evolves (sound : before.Sound) (count : Nat) :
    Evolving (trimEdits count) limit before fun _ _ => True := by
  refine (compositional_alwaysEvolves outlook).closed (trimEditsScript ?_ ?_) limit before sound
  · exact fun unknown => .part fun _ _ sound => removeEdit_evolves sound unknown
  · exact fun _ => .part (evolves_report _)

theorem solve_evolves (sound : before.Sound) :
    Evolving solve limit before fun _ _ => True := by
  refine (solve_meets sound.fits).imp ?_ fun _ _ failure =>
    ⟨failure.2.reaches, fun _ => ⟨before, .refl, .optimize failure.2⟩⟩
  intro _ after result
  refine ⟨?_, trivial⟩
  split at result
  · exact result.reaches
  · rw [result]
    exact Evolves.refl before

theorem suggest_evolves (unknown : Variable) (target : K) :
    Evolving (suggest unknown target) limit before fun _ _ => True := by
  refine (meets_suggest unknown target).mpr ?_
  cases registered : before.edits.get? unknown with
  | none => exact Reaches.reachesFailure .refl nofun
  | some info => exact ⟨.single (.suggest registered target), trivial⟩

theorem settle_reaches (solver : Solver K) : Reaches given solver
    (solver.setTableau solver.tableau.clearInfeasible).settleStays :=
  .head (.requeue (requeues_clearInfeasible solver.tableau)) (.single (.settle _))

theorem opened_reaches (solver : Solver K) : Reaches given solver solver.opened :=
  (settle_reaches solver).tail (.tidy (tidies_depths _ _))

theorem beginEdit_evolves : Evolving beginEdit limit before fun _ _ => True := by
  refine meets_beginEdit.mpr ?_
  split
  · exact Reaches.reachesFailure .refl nofun
  · exact ⟨opened_reaches before, trivial⟩

section Repairing

variable [LE K] [DecidableLE K]

omit [DecidableLE K] in
theorem reaches_of_repairs {objective : Symbol} {tableau : Tableau K}
    (repaired : Relation.ReflTransGen (Tableau.Repairs objective) before.tableau tableau)
    (indexed : before.tableau.Indexed) :
    Reaches given before (before.setTableau tableau) := by
  have chain : Reaches given before (before.setTableau tableau) ∧ tableau.Indexed := by
    induction repaired with
    | refl => exact ⟨.refl, indexed⟩
    | @tail earlier later _ repairs ih =>
      refine ⟨?_, repairs.indexed ih.2⟩
      have taken : Move given (before.setTableau earlier) (before.setTableau earlier.dequeued) :=
        .requeue (requeues_dequeued earlier)
      cases repairs with
      | drop _ _ => exact ih.1.tail taken
      | @pivot _ _ leaving _ _ _ isLast _ _ _ pivots _ =>
        refine (ih.1.tail taken).tail (.pivot ?_ pivots)
        intro same
        have restricted := (ih.2.queued leaving (Table.mem_keys_of_lastKey? isLast)).1
        simp [Symbol.isRestricted, same, SymbolKind.isRestricted] at restricted
  exact chain.1

theorem repair_reaches (given : Constraint K → Prop) (indexed : before.tableau.Indexed) :
    (Tableau.repair .mainObjective limit before.tableau).Meets
      (fun _ tableau => Reaches given before (before.setTableau tableau))
      (fun fault tableau => Reaches given before (before.setTableau tableau) ∧
        fault ≠ .internal .objectiveUnbounded) := by
  refine (Tableau.repair_meets indexed).imp ?_ ?_
  · rintro _ tableau ⟨repaired, _⟩
    exact reaches_of_repairs repaired indexed
  · rintro _ _ ⟨reached, repaired, rfl, cause⟩
    have chain : Reaches given before (before.setTableau reached) :=
      reaches_of_repairs repaired indexed
    refine ⟨chain.tail (.requeue (requeues_dequeued reached)), ?_⟩
    rcases cause with rfl | rfl <;> exact nofun

theorem resolve_evolves (sound : before.Sound) :
    Evolving resolve limit before fun _ _ => True := by
  refine meets_resolve.mpr ((repair_reaches (fun constraint => before.nextKey ≤ constraint.key)
    sound.fits.indexed).imp ?_ ?_)
  · intro _ tableau reaches
    have published := reaches.tail (.tidy (tidies_publishValues _))
    exact ⟨published.trans (settle_reaches _), trivial⟩
  · exact fun _ _ met => met.1.reachesFailure met.2

theorem endEdit_evolves (sound : before.Sound) :
    Evolving endEdit limit before fun _ _ => True := by
  refine (compositional_alwaysEvolves outlook).closed
    (endEditScript (.part fun _ _ => resolve_evolves) ?_ ?_ ?_) limit before sound
  · exact .part (evolves_modify fun solver => .single (.tidy (tidies_depths solver _)))
  · exact fun _ => .part (evolves_report _)
  · exact fun count => .part fun _ _ sound => trimEdits_evolves sound count

theorem resolveAt_evolves (sound : before.Sound) (targets : List K) :
    Evolving (resolveAt targets) limit before fun _ _ => True := by
  refine (compositional_alwaysEvolves outlook).closed
    (resolveAtScript ?_ (.part fun _ _ => resolve_evolves) targets) limit before sound
  exact fun unknown target => .part fun _ _ _ => suggest_evolves unknown target

theorem setEditedValue_evolves (sound : before.Sound) (unknown : Variable) (target : K) :
    Evolving (setEditedValue unknown target) limit before fun _ _ => True := by
  have edits : AlwaysEvolves (addDefaultEdit unknown : Action K (Solver K) Unit) :=
    fun _ _ sound => evolving_get (addEdit_evolves sound unknown _)
  refine (compositional_alwaysEvolves outlook).closed
    (setEditedValueScript ?_ (editValueScript (.part edits) ?_ ?_ ?_)) limit before sound
  · exact .part (evolves_modify fun solver =>
      .single (.tidy ⟨rfl, rfl, rfl, rfl, rfl, Nat.le_refl _, Nat.le_refl _⟩))
  · exact .part fun _ _ _ => beginEdit_evolves
  · exact .part fun _ _ _ => suggest_evolves unknown target
  · exact .part fun _ _ => endEdit_evolves

end Repairing

end Calls

end Solver

end SoftSimplex
