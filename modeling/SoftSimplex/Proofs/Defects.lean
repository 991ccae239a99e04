import SoftSimplex.Proofs.Nesting
import SoftSimplex.Proofs.Refusal
import SoftSimplex.Proofs.Registration
import SoftSimplex.Proofs.Serving

/-!
Defects that no run shows. Each has a reason of its own: the index of the tableau, the objective row
that never leaves the basis, the edits that name installed constraints, and the new symbols of a
constraint that is not required. Only the loops of the optimization can go wrong, and then only by
what the numbers say.
-/

namespace SoftSimplex

/-- What goes wrong in no reachable state, whatever the numbers are. -/
def Defect.ruledOut : List Defect :=
  [.leavingNotBasic, .enteringNotInRow, .objectiveMissing, .artificialObjectiveMissing,
    .subjectMissing, .weakStayRefused, .editRefused, .editConstraintLost, .suggestionRefused]

def Fault.NotRuledOut (fault : Fault) : Prop := ∀ defect ∈ Defect.ruledOut, fault ≠ .internal defect

theorem Fault.notRuledOut_of_expected {fault : Fault} (expected : fault.isInternal = false) :
    fault.NotRuledOut := by
  rintro defect _ rfl
  cases expected

/-- The defects of the two loops of the optimization. Nothing but the numbers decides on them. -/
def Fault.Numeric (fault : Fault) : Prop :=
  fault = .internal .objectiveUnbounded ∨ fault = .internal .repairStuck

theorem Fault.Numeric.notRuledOut {fault : Fault} (numeric : fault.Numeric) : fault.NotRuledOut := by
  unfold NotRuledOut
  rcases numeric with rfl | rfl <;> decide

theorem Fault.Numeric.isInternal {fault : Fault} (numeric : fault.Numeric) :
    fault.isInternal = true := by
  rcases numeric with rfl | rfl <;> rfl

theorem Fault.replacing_of_ne {old new fault : Fault} (different : fault ≠ old) :
    Fault.replacing old new fault = fault := if_neg different

theorem Fault.regular_of_replacing {old fault : Fault} {defect : Defect}
    (regular : (Fault.replacing old (.internal defect) fault).isInternal = false) :
    fault.isInternal = false := by
  unfold Fault.replacing at regular
  split at regular
  · cases regular
  · exact regular

variable {K : Type} [Zero K] [One K] [Add K] [Neg K] [Mul K] [Div K] [LT K] [DecidableLT K]
  [Scalar K] {limit : Nat}

namespace Action

variable {σ α β : Type} {state : σ}

/-- The computation fails by no defect ruled out. -/
def AvoidsRuledOut (action : Action K σ α) (limit : Nat) (state : σ) : Prop :=
  (action limit state).Meets (fun _ _ => True) fun fault _ => fault.NotRuledOut

/-- The computation fails by what the numbers say, if at all. -/
def FailsByNumbers (action : Action K σ α) (limit : Nat) (state : σ) : Prop :=
  (action limit state).Meets (fun _ _ => True) fun fault _ => fault.Numeric

omit [Zero K] [One K] [Add K] [Neg K] [Mul K] [Div K] [LT K] [DecidableLT K] [Scalar K]

theorem FailsByNumbers.avoids {action : Action K σ α} (fails : action.FailsByNumbers limit state) :
    action.AvoidsRuledOut limit state :=
  Outcome.Meets.imp fails (fun _ _ _ => trivial) fun _ _ numeric => numeric.notRuledOut

theorem numeric_bind {first : Action K σ α} {next : α → Action K σ β} (returned : α → σ → Prop)
    (meets : (first limit state).Meets returned fun fault _ => fault.Numeric)
    (continued : ∀ value reached, returned value reached →
      (next value).FailsByNumbers limit reached) : (first >>= next).FailsByNumbers limit state :=
  (meets_bind _ _ _).mpr (meets.imp continued fun _ _ numeric => numeric)

end Action

namespace Tableau

variable [LE K] [DecidableLE K] {before after : Tableau K} {bound : Nat}

theorem repair_stuck (fits : before.Fits bound) :
    (repair .mainObjective limit before).Meets (fun _ after => after.Fits bound)
      (fun fault _ => fault = .internal .repairStuck) := by
  refine Action.meets_loop (fun current => current.Fits bound) ?_ fits
  intro current currentFits
  refine (repairLast_meets currentFits.indexed).imp ?_ ?_
  · intro again reached met
    cases again with
    | true => exact Repairs.fits met currentFits
    | false => exact met.1 ▸ currentFits
  · rintro fault reached ⟨_, ⟨_, missing⟩ | ⟨stuck, _⟩⟩
    · have present := currentFits.objective
      rw [(current.not_isBasic_iff _).mpr missing] at present
      cases present
    · exact stuck

end Tableau

namespace Solver

variable {before middle after : Solver K} {constraint : Constraint K} {fault : Fault}

/-! Single changes -/

section Changes

theorem AddFails.notRuledOut (fails : before.AddFails constraint fault after) : fault.NotRuledOut := by
  cases fails with
  | objected objects =>
    rcases objection_cases objects with rfl | ⟨unknown, rfl⟩ | ⟨unknown, rfl⟩ <;>
      exact Fault.notRuledOut_of_expected rfl
  | contradicted _ _ => exact Fault.notRuledOut_of_expected rfl
  | refused _ _ refuses =>
    cases refuses with
    | positive _ _ => exact Fault.notRuledOut_of_expected rfl
    | unbounded _ => exact Fault.Numeric.notRuledOut (.inl rfl)
    | stuck _ _ _ _ _ =>
      unfold Fault.NotRuledOut
      decide
  | unbounded _ _ _ => exact Fault.Numeric.notRuledOut (.inl rfl)

theorem add_avoids (sound : before.Sound) (external : constraint.External)
    (older : constraint.key < before.nextKey) : (add constraint).AvoidsRuledOut limit before :=
  (add_meets sound external older).imp (fun _ _ _ => trivial) fun _ _ fails => fails.notRuledOut

theorem tryAdd_avoids (sound : before.Sound) (external : constraint.External)
    (older : constraint.key < before.nextKey) : (tryAdd constraint).AvoidsRuledOut limit before := by
  unfold Action.AvoidsRuledOut tryAdd
  rw [Action.meets_bind, Action.meets_attempt]
  refine (add_avoids sound external older).imp (fun _ _ _ => trivial) ?_
  intro fault reached avoids
  cases fault with
  | requiredFailure => trivial
  | _ => exact avoids

theorem addNew_fails (sound : before.Sound) {demand : Demand K} (external : demand.External) :
    (addNew demand limit before).Meets (fun _ _ => True) fun fault after =>
      before.withNextKey.AddFails ⟨demand, before.nextKey⟩ fault after := by
  rw [meets_addNew]
  exact (add_meets (before.tidies_withNextKey.sound sound) external (Nat.lt_succ_self _)).imp
    (fun _ _ _ => trivial) fun _ _ fails => fails

theorem addNew_avoids (sound : before.Sound) {demand : Demand K} (external : demand.External) :
    (addNew demand).AvoidsRuledOut limit before :=
  (addNew_fails sound external).imp (fun _ _ _ => trivial) fun _ _ fails => fails.notRuledOut

theorem addEdit_registers (sound : before.Sound) (unknown : Variable) (strength : Strength) :
    (addEdit unknown strength limit before).Meets (fun _ after => after.edits.get? unknown ≠ none)
      (fun _ _ => True) := by
  rw [meets_addEdit unknown strength fun after => after.edits.get? unknown ≠ none]
  refine (add_meets (before.tidies_withNextKey.sound sound)
    (Demand.external_edit unknown _ strength) (Nat.lt_succ_self _)).imp ?_ fun _ _ _ => trivial
  rintro _ after ⟨_, _, _, installed, installs, follows⟩ missing
  have isEdit : (⟨.edit unknown (before.value unknown) strength, before.nextKey⟩ :
      Constraint K).kind = .edit unknown := rfl
  obtain ⟨info, registered, _⟩ := installs.registers isEdit
  rw [follows.tidies.edits] at missing
  exact absurd (missing.symm.trans registered) nofun

theorem addEdit_avoids (units : Scalar.Units K) (sound : before.Sound) (unknown : Variable)
    (strength : Strength) : (addEdit unknown strength).AvoidsRuledOut limit before := by
  refine (meets_addEdit unknown strength (fun _ => True) fun fault _ => fault.NotRuledOut).mpr ?_
  have reserved := before.tidies_withNextKey.sound sound
  have isEdit : (⟨.edit unknown (before.value unknown) strength, before.nextKey⟩ :
      Constraint K).kind = .edit unknown := rfl
  refine (add_meets reserved (Demand.external_edit unknown _ strength) (Nat.lt_succ_self _)).imp
    (fun _ _ _ => trivial) ?_
  intro fault after fails
  rw [Fault.replacing_of_ne (fails.not_refused units reserved.fits
    fun unobjected => (edit_of_unobjected isEdit unobjected).1)]
  exact fails.notRuledOut

omit [One K] [Add K] [Neg K] [Mul K] [Div K] [LT K] [DecidableLT K] [Scalar K] in
theorem beginEdit_avoids : beginEdit.AvoidsRuledOut limit before := by
  refine meets_beginEdit.mpr ?_
  split
  · exact Fault.notRuledOut_of_expected rfl
  · trivial

theorem RemoveFails.expected_or_numeric (fails : before.RemoveFails constraint fault after) :
    fault = .constraintNotFound ∧ before.installed.get? constraint.key = none ∧ after = before ∨
      fault.Numeric := by
  cases fails with
  | missing missing => exact .inl ⟨rfl, missing, rfl⟩
  | unbounded _ _ _ => exact .inr (.inl rfl)

theorem remove_avoids (sound : before.Sound)
    (sameKind : ∀ entry, before.installed.get? constraint.key = some entry →
      entry.constraint.kind = constraint.kind) : (remove constraint).AvoidsRuledOut limit before := by
  refine (remove_meets sound sameKind).imp (fun _ _ _ => trivial) fun fault _ fails => ?_
  rcases fails.expected_or_numeric with ⟨rfl, _⟩ | numeric
  · exact Fault.notRuledOut_of_expected rfl
  · exact numeric.notRuledOut

omit [Zero K] [One K] [Add K] [Neg K] [Mul K] [Div K] [LT K] [DecidableLT K]
  [Scalar K] in
theorem edits_cleared_of_ne {ledger : Ledger K} {charge : Option (Charge K)}
    {unknown other : Variable} (isEdit : constraint.kind = .edit unknown)
    (different : other ≠ unknown) :
    (ledger.cleared constraint charge).edits.get? other = ledger.edits.get? other := by
  unfold Ledger.cleared
  simp only [isEdit]
  unfold Ledger.editsWithout
  split
  · rfl
  · split
    · rw [Table.get?_erase, if_neg different.symm]
    · rfl

theorem removeEdit_meets (sound : before.Sound) (unknown : Variable) :
    (removeEdit unknown limit before).Meets
      (fun _ after => ∀ other ≠ unknown, after.edits.get? other = before.edits.get? other)
      (fun fault after => fault = .constraintNotFound ∧ before.edits.get? unknown = none ∧
        after = before ∨ fault.Numeric) := by
  rw [meets_removeEdit]
  cases registered : before.edits.get? unknown with
  | none => exact .inl ⟨rfl, rfl, rfl⟩
  | some info =>
    obtain ⟨isEdit, entry, found, _⟩ := sound.books.edits unknown info registered
    refine (remove_meets sound (sound.edit_kind registered)).imp ?_ ?_
    · rintro _ after ⟨_, _, removed, uninstalls, follows⟩ other different
      have ledger : removed.edits = _ := congrArg Ledger.edits uninstalls.ledger_after
      rw [follows.tidies.edits]
      exact (congrArg (·.get? other) ledger).trans (edits_cleared_of_ne isEdit different)
    · intro fault after fails
      refine .inr (fails.expected_or_numeric.resolve_left ?_)
      rintro ⟨_, missing, _⟩
      exact absurd (missing.symm.trans found) nofun

theorem removeEdit_avoids (sound : before.Sound) (unknown : Variable) :
    (removeEdit unknown).AvoidsRuledOut limit before := by
  refine (removeEdit_meets sound unknown).imp (fun _ _ _ => trivial) fun fault _ fails => ?_
  rcases fails with ⟨rfl, _⟩ | numeric
  · exact Fault.notRuledOut_of_expected rfl
  · exact numeric.notRuledOut

theorem solve_numeric (sound : before.Sound) : solve.FailsByNumbers limit before :=
  (solve_meets sound.fits).imp (fun _ _ _ => trivial) fun _ _ fails => .inl fails.1

theorem resolve_numeric [LE K] [DecidableLE K] (sound : before.Sound) :
    resolve.FailsByNumbers limit before :=
  meets_resolve.mpr ((Tableau.repair_stuck sound.fits).imp (fun _ _ _ => trivial)
    fun _ _ stuck => .inr stuck)

end Changes

/-! Sequences of changes -/

section Sequences

omit [Zero K] [One K] [Add K] [Neg K] [Mul K] [Div K] [LT K] [DecidableLT K] [Scalar K] in
theorem avoids_get {α : Type} {next : Solver K → Action K (Solver K) α}
    (continued : (next before).AvoidsRuledOut limit before) :
      (Action.get >>= next).AvoidsRuledOut limit before :=
  (Action.meets_bind _ _ _).mpr continued

theorem addDefaultEdit_avoids (units : Scalar.Units K) (sound : before.Sound)
    (unknown : Variable) : (addDefaultEdit unknown).AvoidsRuledOut limit before :=
  avoids_get (addEdit_avoids units sound unknown _)

theorem addStay_avoids (sound : before.Sound) (unknown : Variable) (strength : Strength)
    (weight : K) : (addStay unknown strength weight).AvoidsRuledOut limit before :=
  avoids_get (addNew_avoids sound (Demand.external_stay unknown _ strength weight))

variable [Sub K]

theorem avoids_bind {α β : Type} {first : Action K (Solver K) α} {next : α → Action K (Solver K) β}
    (returned : α → Solver K → Prop) (sound : before.Sound)
    (evolving : Evolving first limit before returned) (avoids : first.AvoidsRuledOut limit before)
    (continued : ∀ value middle, middle.Sound → returned value middle →
      (next value).AvoidsRuledOut limit middle) : (first >>= next).AvoidsRuledOut limit before := by
  refine (Action.meets_bind _ _ _).mpr ((Outcome.Meets.and evolving avoids).imp ?_ ?_)
  · rintro value middle ⟨⟨evolves, met⟩, _⟩
    exact continued value middle (evolves.sound sound) met
  · exact fun _ _ met => met.2

theorem addBounds_avoids (sound : before.Sound) (unknown : Variable) (lower upper : K) :
    (addBounds unknown lower upper).AvoidsRuledOut limit before := by
  have below := Demand.external_lowerBound unknown lower .required
  refine avoids_bind _ sound (addNew_evolves sound below) (addNew_avoids sound below) ?_
  intro _ middle middleSound _
  have above := Demand.external_upperBound unknown upper .required
  exact avoids_bind _ middleSound (addNew_evolves middleSound above) (addNew_avoids middleSound above)
    fun _ _ _ _ => trivial

theorem addPointStay_avoids (sound : before.Sound) (horizontal vertical : Variable) (weight : K) :
    (addPointStay horizontal vertical weight).AvoidsRuledOut limit before := by
  refine avoids_bind _ sound (addStay_evolves sound _ _ _)
    (addStay_avoids sound horizontal .weak weight) ?_
  intro _ middle middleSound _
  exact avoids_bind _ middleSound (addStay_evolves middleSound _ _ _)
    (addStay_avoids middleSound vertical .weak weight) fun _ _ _ _ => trivial

theorem addPointStaysFrom_avoids (sound : before.Sound) (weight : K)
    (points : List (Variable × Variable)) :
    (addPointStaysFrom weight points).AvoidsRuledOut limit before := by
  induction points generalizing before weight with
  | nil => trivial
  | cons point rest ih =>
    refine avoids_bind _ sound (addPointStay_evolves sound point.1 point.2 weight)
      (addPointStay_avoids sound point.1 point.2 weight) ?_
    rintro ⟨first, second⟩ middle middleSound _
    refine avoids_get (avoids_bind _ middleSound (addPointStaysFrom_evolves middleSound _ rest)
      (ih middleSound _) fun _ _ _ _ => trivial)

theorem addVariable_avoids (units : Scalar.Units K) (sound : before.Sound) (unknown : Variable) :
    (addVariable unknown).AvoidsRuledOut limit before := by
  refine avoids_get ?_
  split
  · trivial
  · have external := Demand.external_stay unknown (before.value unknown) .weak 1
    refine avoids_bind _ sound
      (evolving_mapFault (Fault.wraps_replacing (by decide)) (addStay_evolves sound unknown .weak 1)) ?_
      fun _ _ _ _ => trivial
    refine (Action.meets_mapFault _ _ _).mpr ((Action.meets_bind _ _ _).mpr ?_)
    refine (addNew_fails sound external).imp (fun _ _ _ => trivial) ?_
    intro fault after fails
    rw [Fault.replacing_of_ne
      (fails.not_refused units (before.tidies_withNextKey.sound sound).fits fun _ => rfl)]
    exact fails.notRuledOut

/-! What only the numbers stop -/

theorem forEach_removeRegistered_numeric (names : List Variable) (sound : before.Sound)
    (distinct : names.Nodup) (registered : ∀ unknown ∈ names, before.edits.get? unknown ≠ none) :
    (Action.forEach removeRegistered names).FailsByNumbers limit before := by
  induction names generalizing before with
  | nil => trivial
  | cons unknown rest ih =>
    obtain ⟨once, distinctRest⟩ := List.nodup_cons.mp distinct
    have removes : (removeRegistered unknown limit before).Meets
        (fun _ after => ∀ other ≠ unknown, after.edits.get? other = before.edits.get? other)
        (fun fault _ => fault.Numeric) := by
      refine (Action.meets_mapFault _ _ _).mpr ((removeEdit_meets sound unknown).imp
        (fun _ _ met => met) ?_)
      rintro fault _ (⟨_, missing, _⟩ | numeric)
      · exact absurd missing (registered unknown List.mem_cons_self)
      · rcases numeric with rfl | rfl
        · exact .inl rfl
        · exact .inr rfl
    refine Action.numeric_bind (fun _ reached => reached.Sound ∧
      ∀ other ≠ unknown, reached.edits.get? other = before.edits.get? other) ?_ ?_
    · exact (Outcome.Meets.and (removeRegistered_evolves sound unknown) removes).imp
        (fun _ _ met => ⟨met.1.1.sound sound, met.2⟩) fun _ _ met => met.2
    · rintro _ reached ⟨reachedSound, kept⟩
      refine ih reachedSound distinctRest ?_
      intro other member
      rw [kept other fun same => once (same ▸ member)]
      exact registered other (List.mem_cons_of_mem unknown member)

theorem trimEdits_numeric (sound : before.Sound) (count : Nat) :
    (trimEdits count).FailsByNumbers limit before := by
  have doomed : ((before.edits.entries.filter fun entry => count ≤ entry.2.index).map Prod.fst).Sublist
      before.edits.keys := List.filter_sublist.map Prod.fst
  refine (meets_trimEdits count).mpr
    (forEach_removeRegistered_numeric _ sound (before.edits.distinct.sublist doomed) ?_)
  intro unknown member missing
  exact (Table.not_mem_keys_iff _ _).mpr missing (doomed.subset member)

omit [One K] [Div K] [Scalar K] in
theorem edits_suggest (unknown : Variable) (target : K) :
    (suggest unknown target limit before).Meets
      (fun _ after => ∀ other, before.edits.get? other ≠ none → after.edits.get? other ≠ none)
      (fun fault after => before.edits.get? unknown = none ∧
        fault = .notAnEditVariable unknown ∧ after = before) := by
  rw [meets_suggest]
  cases registered : before.edits.get? unknown with
  | none => exact ⟨rfl, rfl, rfl⟩
  | some info =>
    intro other present
    change (before.edits.insert unknown { info with target }).get? other ≠ none
    rw [Table.get?_insert]
    split
    · rintro ⟨⟩
    · exact present

omit [One K] [Div K] [Scalar K] in
theorem suggest_avoids (unknown : Variable) (target : K) :
    (suggest unknown target).AvoidsRuledOut limit before := by
  refine (edits_suggest unknown target).imp (fun _ _ _ => trivial) ?_
  rintro _ _ ⟨_, rfl, _⟩
  exact Fault.notRuledOut_of_expected rfl

theorem suggestions_numeric (suggestions : List (Variable × K)) (sound : before.Sound)
    (registered : ∀ suggestion ∈ suggestions, before.edits.get? suggestion.1 ≠ none) :
    (Action.forEach (fun suggestion => suggest suggestion.1 suggestion.2) suggestions
      limit before).Meets (fun _ after => after.Sound) fun fault _ => fault.Numeric := by
  induction suggestions generalizing before with
  | nil => exact sound
  | cons suggestion rest ih =>
    refine (Action.meets_bind _ _ _).mpr ((Outcome.Meets.and
      (suggest_evolves suggestion.1 suggestion.2) (edits_suggest suggestion.1 suggestion.2)).imp
        ?_ ?_)
    · rintro _ after ⟨⟨evolves, _⟩, kept⟩
      exact ih (evolves.sound sound) fun other member =>
        kept other.1 (registered other (List.mem_cons_of_mem suggestion member))
    · rintro _ after ⟨_, missing, _⟩
      exact absurd missing (registered suggestion List.mem_cons_self)

theorem addDefaultEdit_registers (sound : before.Sound) (unknown : Variable) :
    (addDefaultEdit unknown limit before).Meets
      (fun _ added => added.Sound ∧ (before.Nested → added.Nested) ∧
        added.edits.get? unknown ≠ none) (fun _ _ => True) := by
  have evolves : Evolving (addDefaultEdit unknown) limit before fun _ _ => True :=
    evolving_get (addEdit_evolves sound unknown _)
  have registers : (addDefaultEdit unknown limit before).Meets
      (fun _ after => after.edits.get? unknown ≠ none) (fun _ _ => True) :=
    (Action.meets_bind _ _ _).mpr (addEdit_registers sound unknown _)
  refine ((Outcome.Meets.and evolves registers).and
    (level_addDefaultEdit unknown before.depths limit before rfl)).imp ?_ fun _ _ _ => trivial
  rintro _ added ⟨⟨⟨evolved, _⟩, registered⟩, same⟩
  refine ⟨evolved.sound sound, fun nested => ?_, registered⟩
  unfold Nested at nested ⊢
  rwa [same]

variable [LE K] [DecidableLE K]

theorem resolveAt_numeric (sound : before.Sound) (targets : List K) :
    (resolveAt targets).FailsByNumbers limit before := by
  refine (Action.meets_bind _ _ _).mpr (Action.numeric_bind (fun _ => Sound)
    (suggestions_numeric _ sound ?_) fun _ _ reachedSound => resolve_numeric reachedSound)
  intro suggestion member
  obtain ⟨⟨unknown, info⟩, isEntry, suggested⟩ := List.mem_filterMap.mp member
  obtain ⟨target, _, rfl⟩ := Option.map_eq_some_iff.mp suggested
  rw [(before.edits.mem_entries_iff unknown info).mp isEntry]
  exact nofun

theorem endEdit_numeric (sound : before.Sound) (registered : before.edits.isEmpty = false)
    (deep : ¬ before.depths.length < 2) : endEdit.FailsByNumbers limit before := by
  refine meets_endEdit.mpr ?_
  rw [if_neg (by rw [registered]; exact Bool.false_ne_true), if_neg deep]
  refine (Outcome.Meets.and (resolve_evolves sound) (resolve_numeric sound)).imp ?_
    fun _ _ met => met.2
  rintro _ resolved ⟨⟨evolves, _⟩, _⟩
  exact trimEdits_numeric ((tidies_depths resolved _).sound (evolves.sound sound)) _

theorem endEdit_cases (sound : before.Sound) (limit : Nat) :
    (∃ fault, fault.isInternal = false ∧ endEdit limit before = .failed fault before []) ∨
      endEdit.FailsByNumbers limit before := by
  cases registered : before.edits.isEmpty with
  | true =>
    refine .inl ⟨.noEditVariables, rfl, ?_⟩
    unfold endEdit
    rw [Action.get_bind, if_pos registered]
    rfl
  | false =>
    have present : ¬ before.edits.isEmpty = true := by
      rw [registered]
      exact Bool.false_ne_true
    by_cases deep : before.depths.length < 2
    · refine .inl ⟨.noEditSession, rfl, ?_⟩
      unfold endEdit
      rw [Action.get_bind, if_neg present, if_pos deep]
      rfl
    · exact .inr (endEdit_numeric sound registered deep)

theorem endEdit_avoids (sound : before.Sound) : endEdit.AvoidsRuledOut limit before := by
  rcases endEdit_cases sound limit with ⟨fault, expected, refused⟩ | numeric
  · unfold Action.AvoidsRuledOut
    rw [refused]
    exact Fault.notRuledOut_of_expected expected
  · exact numeric.avoids

theorem editing_numeric (sound : before.Sound) (nested : before.Nested) {unknown : Variable}
    (registered : before.edits.get? unknown ≠ none) (target : K) :
    Action.FailsByNumbers (do
      beginEdit
      (suggest unknown target).mapFault fun _ => .internal .suggestionRefused
      endEdit) limit before := by
  have present : ∀ {solver : Solver K}, solver.edits.get? unknown ≠ none →
      solver.edits.isEmpty = false := by
    intro solver isEdit
    rw [Bool.eq_false_iff]
    intro none
    rw [Table.get?, List.isEmpty_iff.mp none] at isEdit
    exact isEdit rfl
  have begins : (beginEdit limit before).Meets
      (fun _ begun => begun.edits.get? unknown ≠ none ∧ ¬ begun.depths.length < 2)
      (fun fault _ => fault.Numeric) := by
    rw [meets_beginEdit, present registered, if_neg Bool.false_ne_true]
    refine ⟨registered, ?_⟩
    have outer := List.length_pos_iff.mpr nested
    simp only [List.length_cons]
    omega
  have opens := (Outcome.Meets.and beginEdit_evolves begins).imp
    (fun _ _ met => And.intro (met.1.1.sound sound) met.2) fun _ _ met => met.2
  refine Action.numeric_bind _ opens ?_
  rintro _ begun ⟨begunSound, isEdit, deep⟩
  refine Action.numeric_bind (fun _ asked => asked.Sound ∧ asked.edits.get? unknown ≠ none ∧
    ¬ asked.depths.length < 2) ?_ fun _ asked met =>
      endEdit_numeric met.1 (present met.2.1) met.2.2
  have suggested := (Outcome.Meets.and (suggest_evolves unknown target)
    (edits_suggest unknown target)).and
      (level_suggest unknown target begun.depths limit begun rfl)
  refine (Action.meets_mapFault _ _ _).mpr (suggested.imp ?_ ?_)
  · rintro _ asked ⟨⟨⟨evolves, _⟩, kept⟩, sameDepths⟩
    exact ⟨evolves.sound begunSound, kept unknown isEdit, sameDepths ▸ deep⟩
  · rintro _ _ ⟨⟨_, missing, _⟩, _⟩
    exact absurd missing isEdit

theorem setEditedValue_avoids (units : Scalar.Units K) (sound : before.Sound)
    (nested : before.Nested) (unknown : Variable) (target : K) :
    (setEditedValue unknown target).AvoidsRuledOut limit before := by
  refine avoids_get ?_
  split
  · trivial
  split
  · trivial
  refine (Action.meets_bind _ _ _).mpr ((Outcome.Meets.and
    (addDefaultEdit_registers sound unknown) (addDefaultEdit_avoids units sound unknown)).imp
      ?_ fun _ _ met => met.2)
  rintro _ added ⟨⟨addedSound, addedNested, registered⟩, _⟩
  exact (editing_numeric addedSound (addedNested nested) registered target).avoids

end Sequences

end Solver

namespace Session

variable [Sub K] [LE K] [DecidableLE K] {session : Session K} {request : Call K}

theorem perform_avoids (units : Scalar.Units K) (sound : session.Sound)
    (nested : session.solver.Nested) : (perform request).AvoidsRuledOut limit session := by
  have solver := sound.solver
  refine meets_perform (fun _ => True) (fun fault _ => fault.NotRuledOut)
    (Fault.notRuledOut_of_expected rfl) fun serves => ?_
  cases serves with
  | newVariable | make | setStrength | setAutoSolve => trivial
  | add found =>
    have agrees := (sound.held _ _ found).2
    exact Solver.add_avoids solver agrees.external agrees.older
  | tryAdd found =>
    have agrees := (sound.held _ _ found).2
    exact Solver.tryAdd_avoids solver agrees.external agrees.older
  | remove found => exact Solver.remove_avoids solver (sound.held _ _ found).2.sameKind
  | addLowerBound unknown lower =>
    exact Solver.addNew_avoids solver (Demand.external_lowerBound unknown lower .required)
  | addUpperBound unknown upper =>
    exact Solver.addNew_avoids solver (Demand.external_upperBound unknown upper .required)
  | addBounds unknown lower upper => exact Solver.addBounds_avoids solver unknown lower upper
  | addStay unknown strength weight => exact Solver.addStay_avoids solver unknown strength weight
  | addPointStay horizontal vertical weight =>
    exact Solver.addPointStay_avoids solver horizontal vertical weight
  | addPointStays points => exact Solver.addPointStaysFrom_avoids solver 1 points
  | addVariable unknown => exact Solver.addVariable_avoids units solver unknown
  | addEdit unknown strength => exact Solver.addEdit_avoids units solver unknown strength
  | addDefaultEdit unknown => exact Solver.addDefaultEdit_avoids units solver unknown
  | removeEdit unknown => exact Solver.removeEdit_avoids solver unknown
  | trimEdits count => exact (Solver.trimEdits_numeric solver count).avoids
  | removeAllEdits => exact (Solver.trimEdits_numeric solver 0).avoids
  | beginEdit => exact Solver.beginEdit_avoids
  | endEdit => exact Solver.endEdit_avoids solver
  | suggest unknown target => exact Solver.suggest_avoids unknown target
  | resolve => exact (Solver.resolve_numeric solver).avoids
  | resolveAt targets => exact (Solver.resolveAt_numeric solver targets).avoids
  | setEditedValue unknown target =>
    exact Solver.setEditedValue_avoids units solver nested unknown target
  | solve => exact (Solver.solve_numeric solver).avoids
  | reset =>
    change Fault.NotRuledOut _
    unfold Fault.NotRuledOut
    decide

/-- Whatever the numbers are and whatever went wrong before, no call shows a defect ruled out. -/
theorem perform_avoids_ruledOut (units : Scalar.Units K) (reachable : session.Reachable)
    {defect : Defect} (ruledOut : defect ∈ Defect.ruledOut) :
    (perform request limit session).fault? ≠ some (.internal defect) := by
  have avoids : (perform request).AvoidsRuledOut limit session :=
    perform_avoids units reachable.sound reachable.nested
  revert avoids
  unfold Action.AvoidsRuledOut
  cases perform request limit session with
  | failed fault reached events =>
    intro avoids same
    exact avoids defect ruledOut (Option.some.inj same)
  | done reply reached events => exact fun _ => nofun
  | unfinished => exact fun _ => nofun

/-- A negative weight has left the objective without a least value. The edit that comes next fails
of that, and its suggestion is never reached. -/
theorem perform_avoids_ruledOut_unbounded :
    let session : Session ℚ := (start (.withConfig .standard) .log).replay 8
      [.newVariable none 0, .make (.ofRelation (.ofVariable ⟨1⟩) .atLeast .weak (-1)), .add 0]
    Scalar.Units ℚ ∧ session.Reachable ∧ .suggestionRefused ∈ Defect.ruledOut ∧
      (perform (.setEditedValue ⟨1⟩ 5) 8 session).fault? = some (.internal .objectiveUnbounded) ∧
      (perform (.setEditedValue ⟨1⟩ 5) 8 session).fault? ≠
        some (.internal .suggestionRefused) := by
  intro session
  have external : (Demand.ofRelation (.ofVariable ⟨1⟩) .atLeast .weak (-1) : Demand ℚ).External := by
    decide +kernel
  have reachable : session.Reachable :=
    (Runs.fresh _ _).replay ⟨trivial, external, trivial, trivial⟩
  have ruledOut : .suggestionRefused ∈ Defect.ruledOut := by decide
  exact ⟨Solver.exact_units, reachable, ruledOut, by decide +kernel,
    perform_avoids_ruledOut Solver.exact_units reachable ruledOut⟩

end Session

end SoftSimplex
