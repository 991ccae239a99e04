import SoftSimplex.Proofs.OnlyAdditions
import SoftSimplex.Proofs.WeightedStays
import SoftSimplex.Proofs.OneShot

/-!
What a session with a new edit leaves behind. A solver whose variables all have stays that count gets
an edit, a session begins, and targets are suggested and resolved, whatever they are. The end of the
session takes the edit out again, and neither the values that the last resolution published nor
anything in the books shows that.
-/

namespace SoftSimplex

variable {K : Type} [Field K] [LinearOrder K]

namespace Solver

variable {before middle now after : Solver K} {unknown : Variable} {limit : Nat}

structure OneMoreEdit (before : Solver K) (unknown : Variable) (now : Solver K) : Prop where
  repairable : now.RepairableEncoding
  tallied : now.Tallied
  priced : now.Priced
  stands : ∃ info, before.Appends unknown info now ∧
    ∃ value, info.constraint.expression = Demand.gap unknown value

theorem Priced.evolves (priced : before.Priced) (sound : before.Sound)
    (evolves : before.Evolves after) : after.Priced :=
  (Reaches.keeps Priced evolves (fun _ _ move moveSound => Priced.move move moveSound) sound
    priced).2

theorem OneMoreEdit.of_same (oneMore : before.OneMoreEdit unknown middle)
    (repairable : after.RepairableEncoding)
    (evolves : middle.Evolves after) (edits : after.edits = middle.edits)
    (installed : after.installed = middle.installed) : before.OneMoreEdit unknown after := by
  obtain ⟨info, appends, pins⟩ := oneMore.stands
  exact ⟨repairable, oneMore.tallied.evolves evolves,
    oneMore.priced.evolves oneMore.tallied.sound evolves,
    info, appends.of_same edits installed, pins⟩

theorem OneMoreEdit.deepen (oneMore : before.OneMoreEdit unknown now) (depths : List Nat) :
    before.OneMoreEdit unknown { now with depths } :=
  oneMore.of_same (oneMore.repairable.tidy (tidies_depths now depths))
    (.single (.tidy (tidies_depths now depths))) rfl rfl

variable [IsStrictOrderedRing K]

omit [IsStrictOrderedRing K] in
theorem addEdit_pins (sound : before.Sound) (unknown : Variable) (strength : Strength) :
    (addEdit unknown strength limit before).Meets
      (fun _ after => ∀ info, after.edits.get? unknown = some info →
        ∃ value, info.constraint.expression = Demand.gap unknown value) (fun _ _ => True) := by
  rw [meets_addEdit unknown strength fun after => ∀ info, after.edits.get? unknown = some info →
    ∃ value, info.constraint.expression = Demand.gap unknown value]
  refine (add_meets (before.tidies_withNextKey.sound sound)
    (Demand.external_edit unknown _ strength) (Nat.lt_succ_self _)).imp ?_ fun _ _ _ => trivial
  rintro _ after ⟨_, _, _, installed, installs, follows⟩ info registered
  obtain ⟨own, isOwn, same, _⟩ := installs.registers rfl
  have edits : after.edits = installed.edits := congrArg Records.edits follows.records
  rw [edits, isOwn] at registered
  obtain rfl := Option.some.inj registered
  rw [same]
  exact ⟨_, rfl⟩

theorem addEdit_oneMoreEdit (encoding : before.FeasibleEncoding) (tallied : before.Tallied)
    (priced : before.Priced) (unknown : Variable) (strength : Strength) :
    (addEdit unknown strength limit before).Meets
      (fun _ after => after.depths = before.depths ∧ after.FeasibleEncoding ∧
        before.OneMoreEdit unknown after)
      (fun _ _ => True) := by
  refine (Outcome.Meets.and (Outcome.Meets.and (encoding.addEdit unknown strength)
    (addEdit_evolves encoding.sound unknown strength)) (Outcome.Meets.and
      (addEdit_registersEdit encoding.sound unknown strength)
      (addEdit_pins encoding.sound unknown strength))).imp ?_ fun _ _ _ => trivial
  rintro _ after ⟨⟨encodingAfter, evolves, _⟩, ⟨depths, info, appends⟩, pins⟩
  exact ⟨depths, encodingAfter, encodingAfter.repairable, tallied.evolves evolves,
    priced.evolves encoding.sound evolves, info, appends, pins info appends.registered⟩

theorem OneMoreEdit.beginEdit (oneMore : before.OneMoreEdit unknown middle)
    (encoding : middle.FeasibleEncoding) :
    (beginEdit limit middle).Meets
      (fun _ after => after.depths.tail = middle.depths ∧ before.OneMoreEdit unknown after)
      (fun _ _ => False) := by
  obtain ⟨info, appends, pins⟩ := oneMore.stands
  rw [meets_beginEdit, appends.not_isEmpty, if_neg Bool.false_ne_true]
  have settled : before.OneMoreEdit unknown middle.settled :=
    oneMore.of_same encoding.settled.repairable (settle_reaches middle) rfl rfl
  exact ⟨rfl, settled.deepen (middle.editCount :: middle.depths)⟩

omit [IsStrictOrderedRing K] in
theorem OneMoreEdit.suggest (oneMore : before.OneMoreEdit unknown now) (target : K) :
    (suggest unknown target limit now).Meets
      (fun _ after => after.depths = now.depths ∧ before.OneMoreEdit unknown after)
      (fun _ _ => False) := by
  obtain ⟨info, appends, pins⟩ := oneMore.stands
  have registered := appends.registered
  have evolves : now.Evolves (now.retargeted unknown info target) :=
    .single (.suggest registered target)
  rw [meets_suggest, registered]
  exact ⟨rfl, oneMore.repairable.retargeted registered target, oneMore.tallied.evolves evolves,
    oneMore.priced.evolves oneMore.tallied.sound evolves, _, appends.retarget target, pins⟩

theorem OneMoreEdit.resolve (oneMore : before.OneMoreEdit unknown now) :
    (resolve limit now).Meets
      (fun _ after => after.depths = now.depths ∧ now.Resolves after ∧
        before.OneMoreEdit unknown after) (fun _ _ => False) := by
  refine (Outcome.Meets.and (Outcome.Meets.and oneMore.repairable.resolve
    (resolve_evolves oneMore.tallied.sound)) (unrecorded_resolve now.records limit now rfl)).imp ?_
      fun _ _ met => met.1.1
  rintro _ after ⟨⟨resolves, evolves, _⟩, same⟩
  exact ⟨congrArg Records.depths same, resolves,
    oneMore.of_same (resolves.encoding oneMore.repairable).1.repairable evolves
      (congrArg Records.edits same)
      (congrArg Records.installed same)⟩

/-! The way back -/

structure PublishedEncoding (solver : Solver K) : Prop where
  encoding : solver.FeasibleEncoding
  published : solver.Published
  requirements : solver.RequirementsHold solver.value

omit [IsStrictOrderedRing K] in
theorem PublishedEncoding.deepen (atRest : now.PublishedEncoding) (depths : List Nat) :
    ({ now with depths } : Solver K).PublishedEncoding :=
  ⟨atRest.encoding.tidy (tidies_depths now depths), atRest.published, atRest.requirements⟩

theorem Resolves.publishedEncoding (resolves : before.Resolves after)
    (repairable : before.RepairableEncoding) :
    after.PublishedEncoding :=
  ⟨(resolves.encoding repairable).1, resolves.published repairable, (resolves.encoding repairable).2⟩

section Returning

variable (stayed : before.EachVariableStayed) (weighted : before.HasWeightedStay unknown)
  (oneMore : before.OneMoreEdit unknown now)
  (tallies : before.Tallies)

include stayed weighted oneMore tallies

theorem OneMoreEdit.removeEdit (atRest : now.PublishedEncoding) :
    (removeEdit unknown limit now).Meets (fun _ after => after.value = now.value)
      (fun _ _ => False) := by
  obtain ⟨info, appends, value, pins⟩ := oneMore.stands
  have registered := appends.registered
  have sound := oneMore.tallied.sound
  have sameKind := sound.edit_kind registered
  have kept : ∀ {entry dropped left}, now.Uninstalls info.constraint entry dropped left →
      left.FeasibleEncoding ∧ left.Priced ∧ left.constraints = before.constraints := by
    intro entry dropped left uninstalls
    have move : Move (fun _ => True) now left :=
      .uninstall (sameKind entry uninstalls.found) uninstalls
    refine ⟨atRest.encoding.uninstallEdit registered uninstalls, oneMore.priced.move move sound, ?_⟩
    rw [(uninstalls.removesEdits oneMore.tallied registered).constraints,
      appends.constraints_shed tallies]
  rw [meets_removeEdit, registered]
  refine (remove_meets sound sameKind).imp ?_ ?_
  · rintro _ after ⟨entry, dropped, left, uninstalls, follows⟩
    obtain ⟨encoding, _, constraints⟩ := kept uninstalls
    refine funext fun other => uninstalls.unmoved (sameKind entry uninstalls.found)
      (stayed.of_constraints constraints) sound atRest.published oneMore.tallied.tallies
      atRest.requirements oneMore.priced encoding follows ?_ other
    intro constraint member named occurs
    rw [hasWeightedStay_of_constraints constraints]
    rw [appends.constraints, List.mem_append] at member
    rcases member with earlier | isNew
    · exact stayed.named constraint earlier named occurs
    · rw [List.mem_singleton.mp isNew, pins] at occurs
      rw [Variable.symbol_injective (Demand.mem_symbols_of_gap occurs)]
      exact weighted
  · intro fault after fails
    cases fails with
    | missing missing =>
      obtain ⟨entry, found, _⟩ := oneMore.tallied.tallies.named unknown info registered
      rw [found] at missing
      cases missing
    | unbounded uninstalls _ escapes =>
      obtain ⟨encoding, priced, constraints⟩ := kept uninstalls
      exact priced.not_escapes encoding.sound
        (fun _ _ => (stayed.of_constraints constraints).weighs) escapes

theorem OneMoreEdit.endEdit (atRest : now.PublishedEncoding) (outermost : before.depths = [0])
    (unregistered : before.edits.entries = []) (begun : now.depths.tail = before.depths) :
    (endEdit limit now).Meets (fun _ after => after.value = now.value) (fun _ _ => False) := by
  obtain ⟨info, appends, pins⟩ := oneMore.stands
  have nested : ¬ now.depths.length < 2 := by
    have length := congrArg List.length (begun.trans outermost)
    rw [List.length_tail, List.length_singleton] at length
    omega
  rw [meets_endEdit, appends.not_isEmpty, if_neg Bool.false_ne_true, if_neg nested]
  refine oneMore.resolve.imp ?_ fun _ _ => id
  rintro _ resolved ⟨depths, resolves, strayed⟩
  have same := resolves.again atRest.encoding.feasible atRest.published
  have closed := strayed.deepen resolved.depths.tail
  have closedAtRest := (resolves.publishedEncoding oneMore.repairable).deepen resolved.depths.tail
  obtain ⟨own, stands, _⟩ := closed.stands
  have doomed : (({ resolved with depths := resolved.depths.tail } : Solver K).edits.entries.filter
      fun entry => 0 ≤ entry.2.index).map Prod.fst = [unknown] := by
    rw [stands.edits, unregistered]
    simp
  rw [depths, begun, outermost, List.headD_cons, meets_trimEdits]
  rw [depths, begun, outermost] at doomed closed closedAtRest
  rw [doomed]
  refine (Action.meets_bind _ _ _).mpr ((Action.meets_mapFault _ _ _).mpr ?_)
  refine (closed.removeEdit stayed weighted tallies closedAtRest).imp (fun _ after kept => ?_)
    fun _ _ => id
  exact (Action.meets_pure _ _).mpr (kept.trans same)

end Returning

omit [IsStrictOrderedRing K] in
theorem EachVariableStayed.unregistered (stayed : before.EachVariableStayed) (sound : before.Sound) :
    before.edits.entries = [] := by
  refine List.eq_nil_iff_forall_not_mem.mpr fun item member => ?_
  obtain ⟨entry, found, isEdit, soft, _⟩ :=
    edit_symbols sound ((before.edits.mem_entries_iff item.1 item.2).mp member)
  rcases stayed.kinds _ (mem_constraints_iff.mpr ⟨_, entry, found, rfl⟩) with required | ⟨_, weighted⟩
  · rw [soft] at required
    cases required
  · have isStay := weighted.isStay
    rw [isEdit] at isStay
    cases isStay

end Solver

namespace Session

open Solver

variable {session moved resolved : Session K} {unknown : Variable} {limit : Nat}

/-- An edit comes in, a session begins, and then targets are suggested and resolved. -/
inductive EditSession (session : Session K) (unknown : Variable) : Session K → Prop
  | begin {edited begun : Session K} {strength : Strength} {limit later : Nat}
      (adds : (perform (.addEdit unknown strength) limit session).state? = some edited)
      (clean : (perform (.addEdit unknown strength) limit session).fault? = none)
      (begins : (perform .beginEdit later edited).state? = some begun) :
      EditSession session unknown begun
  | suggest {moved next : Session K} {target : K} {limit : Nat}
      (earlier : EditSession session unknown moved)
      (returns : (perform (.suggest unknown target) limit moved).state? = some next) :
      EditSession session unknown next
  | resolve {moved next : Session K} {limit : Nat} (earlier : EditSession session unknown moved)
      (returns : (perform .resolve limit moved).state? = some next) : EditSession session unknown next

variable [IsStrictOrderedRing K]

theorem resolve_oneMoreEdit (limit : Nat)
    (oneMore : session.solver.OneMoreEdit unknown moved.solver) :
    (perform .resolve limit moved).Meets
      (fun _ next => next.solver.depths = moved.solver.depths ∧ next.solver.PublishedEncoding ∧
        session.solver.OneMoreEdit unknown next.solver) (fun _ _ => False) :=
  (meets_silent oneMore.resolve).imp
    (fun _ _ met => ⟨met.1.1, met.1.2.1.publishedEncoding oneMore.repairable, met.1.2.2⟩)
      fun _ _ met => met.1

theorem EditSession.oneMoreEdit (editing : session.EditSession unknown moved)
    (onlyAddedTo : OnlyAddedTo session) :
    moved.solver.depths.tail = session.solver.depths ∧
      session.solver.OneMoreEdit unknown moved.solver := by
  obtain ⟨sound, outside⟩ := onlyAddedTo.outermostEncoding
  have reachable := onlyAddedTo.reachable
  induction editing with
  | @begin edited begun strength limit later adds clean begins =>
    obtain ⟨_, ⟨depths, encoding, oneMore⟩, _⟩ := (meets_silent (addEdit_oneMoreEdit outside.encoding
      reachable.tallied reachable.priced.2 unknown strength)).of_clean adds clean
    obtain ⟨_, ⟨same, oneMore⟩, _⟩ :=
      ((meets_silent (oneMore.beginEdit encoding)).imp (fun _ _ met => met) fun _ _ met =>
        met.1).of_sure
        begins
    exact ⟨same.trans depths, oneMore⟩
  | @suggest moved next target limit earlier returns ih =>
    obtain ⟨_, ⟨same, oneMore⟩, _⟩ :=
      ((meets_silent (ih.2.suggest target)).imp (fun _ _ met => met) fun _ _ met => met.1).of_sure
        returns
    exact ⟨same ▸ ih.1, oneMore⟩
  | @resolve moved next limit earlier returns ih =>
    obtain ⟨_, same, _, oneMore⟩ := (resolve_oneMoreEdit limit ih.2).of_sure returns
    exact ⟨same ▸ ih.1, oneMore⟩

/-- Where every variable has a stay that counts, the end of a session with a new edit cannot fail. It
leaves every value as the last resolution published it, and the edits, the open sessions and the
constraints as they were before the edit came in. -/
theorem endEdit_restores (onlyAddedTo : OnlyAddedTo session)
    (stayed : session.solver.EachVariableStayed)
    (weighted : session.solver.HasWeightedStay unknown) (editing : session.EditSession unknown moved)
    (returns : (perform .resolve limit moved).state? = some resolved) (later : Nat) :
    (perform .endEdit later resolved).Meets
      (fun _ next => (∀ other, next.solver.value other = resolved.solver.value other) ∧
        session.solver.Untraced next.solver) (fun _ _ => False) := by
  obtain ⟨sound, outside⟩ := onlyAddedTo.outermostEncoding
  have tallied := onlyAddedTo.reachable.tallied
  obtain ⟨begun, oneMore⟩ := editing.oneMoreEdit onlyAddedTo
  obtain ⟨_, depths, atRest, strayed⟩ := (resolve_oneMoreEdit limit oneMore).of_sure returns
  have tail : resolved.solver.depths.tail = session.solver.depths := depths ▸ begun
  obtain ⟨info, appends, _⟩ := strayed.stands
  have unregistered := stayed.unregistered sound.solver
  have inherited : session.solver.Inherited := by
    unfold Inherited innermostDepth
    rw [unregistered, outside.outermost]
    exact ⟨nofun, Nat.zero_le _⟩
  have closes : (Solver.endEdit later resolved.solver).Meets _ _ := endEdit_closes strayed.tallied
  have ends := Outcome.Meets.and
    (strayed.endEdit stayed weighted tallied.tallies atRest outside.outermost unregistered tail)
    closes
  refine (meets_silent (ends.imp (fun _ _ met => met) fun _ _ met => met.1)).imp ?_
    fun _ _ met => met.1
  rintro _ next ⟨⟨same, closes⟩, _⟩
  have leaves : session.solver.Leaves unknown next.solver := ⟨info, _, appends, tail, closes⟩
  exact ⟨congrFun same, (leaves.untraced_iff tallied.tallies).mpr inherited⟩

/-- A variable that must not exceed ten is wanted at twenty and pushes another one before it. Both
stay where they have been pushed when the session ends. -/
theorem endEdit_restores_pushed :
    let session : Session ℚ := (start (.withConfig .standard) .log).replay 8
      [.newVariable none 0, .newVariable none 5, .addStay ⟨1⟩ .weak 1, .addStay ⟨2⟩ .medium 2,
        .addUpperBound ⟨1⟩ 10,
        .make (.atLeast (.ofVariable ⟨2⟩) (.ofVariable ⟨1⟩) .required), .add 3]
    let edited := session.replay 8 [.addEdit ⟨1⟩ .strong]
    let begun := edited.replay 8 [.beginEdit]
    let moved := begun.replay 8 [.suggest ⟨1⟩ 20]
    let resolved := moved.replay 8 [.resolve]
    (session.solver.value ⟨1⟩, session.solver.value ⟨2⟩) = (0, 5) ∧
      (resolved.solver.value ⟨1⟩, resolved.solver.value ⟨2⟩) = (10, 10) ∧
      (perform .endEdit 8 resolved).state?.map (fun next => (next.solver.value ⟨1⟩,
        next.solver.value ⟨2⟩)) = some (10, 10) ∧
      (perform .endEdit 8 resolved).Meets
        (fun _ next => (∀ other, next.solver.value other = resolved.solver.value other) ∧
          session.solver.Untraced next.solver) (fun _ _ => False) := by
  intro session edited begun moved resolved
  have onlyAddedTo : OnlyAddedTo session :=
    (Runs.fresh _ _).replay ⟨trivial, trivial, trivial, trivial, trivial,
      show Demand.External _ from by decide +kernel, trivial, trivial⟩
  have adds : (perform (.addEdit ⟨1⟩ .strong) 8 session).state? = some edited :=
    state?_of_returns (by decide +kernel)
  have clean : (perform (.addEdit ⟨1⟩ .strong) 8 session).fault? = none := by decide +kernel
  have begins : (perform .beginEdit 8 edited).state? = some begun :=
    state?_of_returns (by decide +kernel)
  have suggests : (perform (.suggest ⟨1⟩ 20) 8 begun).state? = some moved :=
    state?_of_returns (by decide +kernel)
  have resolves : (perform .resolve 8 moved).state? = some resolved :=
    state?_of_returns (by decide +kernel)
  have stayed : session.solver.EachVariableStayed := by decide +kernel
  have weighted : session.solver.HasWeightedStay ⟨1⟩ := by decide +kernel
  refine ⟨by decide +kernel, by decide +kernel, by decide +kernel, ?_⟩
  clear_value session edited begun moved resolved
  exact endEdit_restores onlyAddedTo stayed weighted (.suggest (.begin adds clean begins) suggests)
    resolves 8

end Session

end SoftSimplex
