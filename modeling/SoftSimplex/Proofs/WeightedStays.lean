import SoftSimplex.Proofs.Books
import SoftSimplex.Proofs.Mentions
import SoftSimplex.Proofs.Steering

/-!
Variables with stays that count. Where every variable that a constraint names has one, no values but
those at which the stays rest are optimal; so what is published after a removal, which first lets the
stays rest at the values of before, is what was published before it, wherever the pivots of the
removal led in between.
-/

namespace SoftSimplex

variable {K : Type} [Field K] [LinearOrder K]

structure Demand.WeightedStay (demand : Demand K) (unknown : Variable) : Prop where
  soft : demand.isRequired = false
  weighs : 0 < demand.weight
  isStay : demand.kind = .stay unknown
  pins : ∃ value, demand.expression = gap unknown value

theorem Demand.weightedStay_iff (demand : Demand K) (unknown : Variable) :
    demand.WeightedStay unknown ↔ demand.isRequired = false ∧ 0 < demand.weight ∧
      demand.kind = .stay unknown ∧
      demand.expression.terms.entries = (gap unknown demand.expression.constant).terms.entries := by
  constructor
  · rintro ⟨soft, weighs, isStay, value, pins⟩
    exact ⟨soft, weighs, isStay, by rw [pins, constant_gap]⟩
  · rintro ⟨soft, weighs, isStay, same⟩
    refine ⟨soft, weighs, isStay, demand.expression.constant, ?_⟩
    exact congrArg₂ Expression.mk (constant_gap unknown _).symm (Table.eq_of_entries same)

instance (demand : Demand K) (unknown : Variable) : Decidable (demand.WeightedStay unknown) :=
  decidable_of_iff _ (demand.weightedStay_iff unknown).symm

theorem Demand.evaluate_gap (unknown : Variable) (value : K) (valueOf : Variable → K) :
    (gap unknown value).evaluate valueOf = value - valueOf unknown := by
  have evaluated : (gap unknown value).evaluate valueOf =
      (gap unknown value).valueAt fun symbol => valueOf ⟨symbol.id⟩ :=
    Expression.evaluate_eq_valueAt (fun _ => external_gap unknown value) fun _ => rfl
  exact evaluated.trans (valueAt_gap ..)

theorem Demand.WeightedStay.penalty_aimed {demand : Demand K} {unknown : Variable}
    (weighted : demand.WeightedStay unknown) (asked : Variable → Option K)
    (rested valueOf : Variable → K) :
    (demand.aimed asked fun other => some (rested other)).penalty valueOf =
      demand.strength.unitCost demand.weight * |rested unknown - valueOf unknown| := by
  have soft := weighted.soft
  have equality : (demand.kind == .inequality) = false := by rw [weighted.isStay]; rfl
  rw [aimed_of_stay soft weighted.isStay]
  unfold penalty violation isRequired isInequality retarget
  dsimp only
  rw [show demand.strength.isRequired = false from soft, equality, if_neg Bool.false_ne_true,
    if_neg Bool.false_ne_true, evaluate_gap]

namespace Solver

variable {solver before after later : Solver K} {unknown : Variable} {offsets : Nat → K}

def HasWeightedStay (solver : Solver K) (unknown : Variable) : Prop :=
  ∃ constraint ∈ solver.constraints, constraint.WeightedStay unknown

instance (solver : Solver K) (unknown : Variable) : Decidable (solver.HasWeightedStay unknown) :=
  inferInstanceAs (Decidable (∃ constraint ∈ solver.constraints, constraint.WeightedStay unknown))

/-- What is not required is a stay that counts, and every variable in a constraint has one. -/
structure EachVariableStayed (solver : Solver K) : Prop where
  kinds : ∀ constraint ∈ solver.constraints,
    constraint.isRequired = true ∨ ∃ unknown, constraint.WeightedStay unknown
  named : ∀ constraint ∈ solver.constraints, ∀ unknown : Variable,
    unknown.symbol ∈ constraint.expression.symbols → solver.HasWeightedStay unknown

theorem eachVariableStayed_iff (solver : Solver K) :
    solver.EachVariableStayed ↔ ∀ constraint ∈ solver.constraints,
    (constraint.isRequired = true ∨
      ∃ unknown ∈ constraint.unknown?.toList, constraint.WeightedStay unknown) ∧
    ∀ symbol ∈ constraint.expression.symbols, symbol.isExternal = true →
      solver.HasWeightedStay ⟨symbol.id⟩ := by
  constructor
  · intro stayed constraint member
    refine ⟨(stayed.kinds constraint member).imp_right ?_, fun symbol occurs isExternal => ?_⟩
    · rintro ⟨unknown, weighted⟩
      exact ⟨unknown, by simp [Demand.unknown?, weighted.isStay], weighted⟩
    · have named := (Symbol.unknown?_eq_some_iff symbol ⟨symbol.id⟩).mp
        (by rw [Symbol.unknown?, if_pos isExternal])
      exact stayed.named constraint member _ (named ▸ occurs)
  · intro checked
    refine ⟨fun constraint member => (checked constraint member).1.imp_right ?_, ?_⟩
    · rintro ⟨unknown, _, weighted⟩
      exact ⟨unknown, weighted⟩
    · exact fun constraint member unknown occurs => (checked constraint member).2 _ occurs rfl

instance (solver : Solver K) : Decidable solver.EachVariableStayed :=
  decidable_of_iff _ solver.eachVariableStayed_iff.symm

theorem hasWeightedStay_of_constraints (same : after.constraints = before.constraints) :
    after.HasWeightedStay unknown ↔ before.HasWeightedStay unknown := by
  unfold HasWeightedStay
  rw [same]

theorem EachVariableStayed.of_constraints (stayed : before.EachVariableStayed)
    (same : after.constraints = before.constraints) : after.EachVariableStayed := by
  refine ⟨same ▸ stayed.kinds, ?_⟩
  rw [same]
  exact fun constraint member unknown named =>
    (hasWeightedStay_of_constraints same).mpr (stayed.named constraint member unknown named)

theorem EachVariableStayed.weighs (stayed : solver.EachVariableStayed) {key : Nat} {entry : Installed K}
    (found : solver.installed.get? key = some entry)
    (soft : entry.constraint.isRequired = false) : 0 ≤ entry.constraint.weight := by
  rcases stayed.kinds _ (mem_constraints_iff.mpr ⟨key, entry, found, rfl⟩) with required | ⟨_, weighted⟩
  · rw [soft] at required
    cases required
  · exact weighted.weighs.le

/-! Optimal values -/

section Optima

variable [IsStrictOrderedRing K] {asked : Variable → Option K} {rested : Variable → K}

theorem EachVariableStayed.penalty_rested (stayed : solver.EachVariableStayed) {entry : Installed K}
    (member : entry.constraint ∈ solver.constraints) (valueOf : Variable → K) :
    let aimed := entry.aimed asked fun unknown => some (rested unknown)
    0 ≤ aimed.constraint.penalty valueOf ∧ aimed.constraint.penalty rested = 0 := by
  dsimp only [Installed.aimed]
  rcases stayed.kinds _ member with required | ⟨unknown, weighted⟩
  · rw [Demand.aimed_of_required required]
    unfold Demand.penalty
    simp only [required, if_true, le_refl, and_self]
  · rw [weighted.penalty_aimed, weighted.penalty_aimed, sub_self, abs_zero, mul_zero]
    exact ⟨mul_nonneg (Strength.unitCost_pos _ weighted.weighs).le (abs_nonneg _), rfl⟩

/-- No values but those at which the stays rest are optimal. -/
theorem EachVariableStayed.unmoved (stayed : solver.EachVariableStayed)
    (requirements : solver.RequirementsHold rested)
    (optimal : (solver.aimed asked fun unknown => some (rested unknown)).Optimal)
    (weighted : solver.HasWeightedStay unknown) : solver.value unknown = rested unknown := by
  have worth : ∀ item ∈ (solver.aimed asked fun unknown => some (rested unknown)).installed.entries,
      ∀ valueOf, 0 ≤ item.2.constraint.penalty valueOf ∧ item.2.constraint.penalty rested = 0 := by
    intro item listed valueOf
    obtain ⟨own, found, same⟩ := get?_aimed ((Table.mem_entries_iff _ item.1 item.2).mp listed)
    rw [same]
    exact stayed.penalty_rested (mem_constraints_iff.mpr ⟨_, own, found, rfl⟩) valueOf
  have holds : (solver.aimed asked fun unknown => some (rested unknown)).RequirementsHold rested := by
    intro key entry found required
    obtain ⟨own, isOwn, rfl⟩ := get?_aimed found
    obtain ⟨expression, same, _⟩ := own.aimed_eq asked fun unknown => some (rested unknown)
    have wasRequired : own.constraint.isRequired = true := by rwa [same] at required
    rw [Installed.aimed, Demand.aimed_of_required wasRequired]
    exact requirements key own isOwn wasRequired
  obtain ⟨constraint, member, isWeighted⟩ := weighted
  obtain ⟨key, entry, found, rfl⟩ := mem_constraints_iff.mp member
  have least := optimal.2 rested holds
  rw [show (solver.aimed asked fun unknown => some (rested unknown)).penalty rested = 0 from
    List.sum_eq_zero (List.forall_mem_map.mpr fun item listed => (worth item listed rested).2)]
    at least
  have isAimed : (solver.aimed asked fun unknown => some (rested unknown)).installed.get? key =
      some (entry.aimed asked fun unknown => some (rested unknown)) := get?_aimed_of found
  have listed := (Table.mem_entries_iff _ key _).mpr isAimed
  have part := List.single_le_sum (List.forall_mem_map.mpr fun item listed =>
    (worth item listed solver.value).1) _ (List.mem_map_of_mem listed)
  have none := part.trans least
  dsimp only [Installed.aimed] at none
  rw [isWeighted.penalty_aimed] at none
  have zero := (mul_nonpos_iff.mp none).resolve_right fun both =>
    absurd both.1 (not_le.mpr (Strength.unitCost_pos _ isWeighted.weighs))
  exact (sub_eq_zero.mp (abs_nonpos_iff.mp zero.2)).symm

end Optima

/-! Variables that no constraint names -/

section Unnamed

variable (unnamed : ∀ constraint ∈ solver.constraints,
  unknown.symbol ∉ constraint.expression.symbols)

include unnamed

theorem Encodes.not_basic_of_unnamed (encodes : solver.Encodes offsets) (sound : solver.Sound) :
    solver.tableau.isBasic unknown.symbol = false := by
  refine Tableau.not_basic_of_free sound.fits.indexed nofun fun assignment value => ?_
  rw [encodes.solves, encodes.solves]
  refine forall₂_congr fun key entry => forall_congr' fun found => ?_
  have missing := unnamed _ (mem_constraints_iff.mpr ⟨key, entry, found, rfl⟩)
  have notOwn : unknown.symbol ∉ entry.symbols := fun member => by
    have internal := ((sound.books.entries key entry found).symbol_known member).2.1
    cases internal
  rw [Tableau.valueAt_update_fresh missing, entry.balance_update notOwn]

theorem Published.value_of_unnamed (published : solver.Published) (encodes : solver.Encodes offsets)
    (sound : solver.Sound) (contained : solver.containsVariable unknown = true) :
    solver.value unknown = 0 :=
  (published unknown contained).trans
    (Tableau.basicSolution_of_not_basic (encodes.not_basic_of_unnamed unnamed sound))

end Unnamed

theorem Publishes.value_of_missing (publishes : before.Publishes after) (sound : before.Sound)
    (missing : after.containsVariable unknown = false) :
    after.value unknown = before.value unknown := by
  obtain ⟨least, tableau, minimized, rfl⟩ := publishes
  have indexed := Tableau.indexed_of_improvements minimized.improved sound.fits.indexed
  have same := (tidies_publishValues (before.setTableau tableau)).tableau
  unfold containsVariable at missing
  rw [same] at missing
  exact value_publishValues_of_missing indexed missing

/-! Removals -/

section Removing

variable {constraint : Constraint K} {entry : Installed K} {dropped : Tableau K}
  (uninstalls : before.Uninstalls constraint entry dropped after)

include uninstalls

theorem Uninstalls.value_after (unknown : Variable) : after.value unknown = before.value unknown := by
  obtain ⟨_, _, _, writes⟩ := Solver.clearAway_writes
    ((before.withdraw constraint).setTableau dropped) constraint entry.marker
    (before.charges.get? constraint.key)
  rw [uninstalls.result, writes]
  rfl

variable (sameKind : entry.constraint.kind = constraint.kind) (stayed : after.EachVariableStayed)
  (sound : before.Sound) (published : before.Published) (tallies : before.Tallies)

include sameKind stayed sound published tallies

theorem Uninstalls.aims (encodes : before.Encodes offsets) (asked : Variable → Option K) :
    ∃ later, after.Encodes later ∧ after.Aims later asked before.shown := by
  obtain ⟨later, settled, left⟩ := encodes.uninstall uninstalls sound sameKind
  refine ⟨later, left, fun key own found assignment => ?_⟩
  have wasThere := (uninstalls.get?_installed_iff.mp found).2
  rcases stayed.kinds _ (mem_constraints_iff.mpr ⟨key, own, found, rfl⟩) with
    required | ⟨unknown, weighted⟩
  · rw [left.required key own found required, add_zero, Installed.aimed,
      Demand.aimed_of_required required]
  · obtain ⟨value, pins⟩ := weighted.pins
    have isStay : (own.marker, own.error) ∈ before.stays := by
      rw [tallies.stays, List.mem_filterMap]
      refine ⟨own, List.mem_map.mpr ⟨_, (Table.mem_entries_iff _ key own).mpr wasThere, rfl⟩, ?_⟩
      exact (own.stayPair?_eq_some_iff _).mpr
        ⟨by rw [Demand.isStay, weighted.isStay], weighted.soft, rfl⟩
    have rests : before.settled.Encodes later := settled.of_same before.settled_rows rfl
    rw [Installed.aimed, Demand.aimed_of_stay weighted.soft weighted.isStay,
      Demand.valueAt_retarget pins,
      shown, Option.getD_some, pins, Demand.valueAt_gap,
      settled_offset published encodes sound rests wasThere weighted.soft isStay pins]
    ring

variable [IsStrictOrderedRing K] (requirements : before.RequirementsHold before.value)
  (priced : before.Priced) (encoding : after.FeasibleEncoding)

include requirements priced encoding

theorem Uninstalls.stayed_unmoved (publishes : after.Publishes later)
    (weighted : after.HasWeightedStay unknown) :
    later.value unknown = before.value unknown := by
  obtain ⟨offsets, encodes⟩ := priced.encodes
  obtain ⟨rests, left, aims⟩ :=
    uninstalls.aims sameKind stayed sound published tallies encodes fun _ => none
  have move : Move (fun _ => True) before after := .uninstall sameKind uninstalls
  obtain ⟨surplus, prices⟩ := (priced.move move sound).prices
  have installed := publishes.installed
  have settled := publishes.settled encoding.sound
  have constraints : later.constraints = after.constraints := by
    unfold Solver.constraints
    rw [installed]
  have laterStayed := stayed.of_constraints constraints
  have laterAims : later.Aims rests (fun _ => none) before.shown := by
    unfold Aims
    rw [installed]
    exact aims
  have optimal : (later.aimed (fun _ => none) before.shown).Optimal :=
    aimed_optimal (publishes.sound encoding.sound)
      (publishes.encodes encoding.sound left) laterAims
      (publishes.prices encoding.sound left.pruned prices)
      (publishes.feasible encoding.sound left.pruned encoding.feasible)
      (fun _ _ => laterStayed.weighs) settled.published settled.dual
  refine laterStayed.unmoved (fun key own found => ?_) optimal
    ((hasWeightedStay_of_constraints constraints).mpr weighted)
  exact requirements key own (uninstalls.get?_installed_iff.mp (installed ▸ found)).2

theorem Uninstalls.unmoved (follows : after.Follows later)
    (named : ∀ other ∈ before.constraints, ∀ unknown : Variable,
      unknown.symbol ∈ other.expression.symbols → after.HasWeightedStay unknown) (unknown : Variable) :
    later.value unknown = before.value unknown := by
  unfold Follows at follows
  split at follows
  case isFalse => rw [follows, uninstalls.value_after]
  by_cases weighted : after.HasWeightedStay unknown
  · exact uninstalls.stayed_unmoved sameKind stayed sound published tallies requirements priced encoding
      follows weighted
  obtain ⟨offsets, encodes⟩ := priced.encodes
  obtain ⟨_, left, _⟩ :=
    uninstalls.aims sameKind stayed sound published tallies encodes fun _ => none
  have unnamed : ∀ other ∈ before.constraints, unknown.symbol ∉ other.expression.symbols :=
    fun other member occurs => weighted (named other member unknown occurs)
  have unnamedLater : ∀ other ∈ later.constraints, unknown.symbol ∉ other.expression.symbols := by
    intro other member
    obtain ⟨key, own, found, rfl⟩ := mem_constraints_iff.mp member
    have wasThere := (uninstalls.get?_installed_iff.mp (follows.installed ▸ found)).2
    exact unnamed _ (mem_constraints_iff.mpr ⟨key, own, wasThere, rfl⟩)
  cases contained : later.containsVariable unknown with
  | false => rw [follows.value_of_missing encoding.sound contained, uninstalls.value_after]
  | true =>
    have wasContained : before.containsVariable unknown = true := by
      by_contra missing
      unfold containsVariable at contained missing
      rw [Bool.or_eq_true] at contained missing
      have without : before.tableau.Within (· ≠ unknown.symbol) := by
        rintro symbol present rfl
        exact missing present.symm
      refine Tableau.within_of_improvements follows.improved encoding.sound.fits.indexed
        (uninstalls.within sound sameKind without ?_) unknown.symbol contained.symm rfl
      rintro symbol member rfl
      have internal := ((sound.books.entries _ entry uninstalls.found).symbol_known member).2.1
      cases internal
    rw [(follows.settled encoding.sound).published.value_of_unnamed unnamedLater
        (follows.encodes encoding.sound left)
        (follows.sound encoding.sound) contained,
      published.value_of_unnamed unnamed encodes sound wasContained]

end Removing

end Solver

end SoftSimplex
