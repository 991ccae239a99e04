import SoftSimplex.Proofs.Bases
import SoftSimplex.Proofs.Books
import SoftSimplex.Proofs.Renaming
import SoftSimplex.Proofs.Requirements

/-!
Suggestions one after the other. They shift the constants of rows and leave all else of the tableau
as it is. In every reachable state the rows hold each registered edit at its present target, so
after any number of suggestions they say what the constraints say with the targets suggested last.
-/

namespace SoftSimplex

namespace Tableau

/-! The shape of the rows -/

section Shape

variable {K : Type} {tableau : Tableau K} {basic : Symbol} {row next : Expression K}

def shape (tableau : Tableau K) : Table Symbol (Table Symbol K) := tableau.rows.mapValues (·.terms)

theorem get?_shape (tableau : Tableau K) (basic : Symbol) :
    tableau.shape.get? basic = (tableau.row? basic).map (·.terms) :=
  Table.get?_mapValues ..

theorem isBasic_eq_of_shape {left right : Tableau K} (same : left.shape = right.shape)
    (basic : Symbol) : left.isBasic basic = right.isBasic basic := by
  have listed : left.shape.contains basic = right.shape.contains basic := by rw [same]
  rwa [shape, shape, Table.contains_mapValues, Table.contains_mapValues] at listed

theorem shape_setRow (found : tableau.row? basic = some row) (same : next.terms = row.terms) :
    (tableau.setRow basic next).shape = tableau.shape := by
  refine (Table.mapValues_insert ..).trans (Table.insert_eq_self ?_)
  exact (tableau.get?_shape basic).trans (by rw [found, Option.map_some, same])

variable [Zero K] [Add K] [Mul K] [LT K] [DecidableLT K]

omit [Mul K] in
theorem shape_shiftError (found : tableau.row? basic = some row) (amount : K) :
    (tableau.shiftError basic row amount).shape = tableau.shape := by
  have shifted : (tableau.setRow basic (row.increaseConstant amount)).shape = tableau.shape :=
    shape_setRow found rfl
  unfold shiftError
  dsimp only
  split <;> exact shifted

theorem shape_shiftUse (tableau : Tableau K) (minus : Symbol) (delta : K) (basic : Symbol) :
    (tableau.shiftUse minus delta basic).shape = tableau.shape := by
  unfold shiftUse
  cases found : tableau.row? basic with
  | none => rfl
  | some row =>
    have shifted : (tableau.setRow basic
        (row.increaseConstant (row.coefficient minus * delta))).shape = tableau.shape :=
      shape_setRow found rfl
    unfold checkFeasible
    dsimp only
    split <;> exact shifted

theorem shape_foldl_shiftUse (tableau : Tableau K) (minus : Symbol) (delta : K)
    (users : List Symbol) : (users.foldl (shiftUse minus delta) tableau).shape = tableau.shape := by
  induction users generalizing tableau with
  | nil => rfl
  | cons user rest ih =>
    exact (ih (tableau.shiftUse minus delta user)).trans (tableau.shape_shiftUse minus delta user)

theorem shape_shiftTarget [Neg K] [Sub K] (tableau : Tableau K) (plus minus : Symbol) (delta : K) :
    (tableau.shiftTarget plus minus delta).shape = tableau.shape := by
  unfold shiftTarget
  split
  · rename_i row _ found
    exact shape_shiftError found delta
  · rename_i row _ found
    exact shape_shiftError found (-delta)
  · exact tableau.shape_foldl_shiftUse minus delta _

end Shape

theorem RowsFor.row?_eq {K : Type} [Field K] {left right : Tableau K}
    {system : (Symbol → K) → Prop} (rowsFor : left.RowsFor system) (linked : right.Linked)
    (solves : ∀ assignment, right.Solves assignment ↔ system assignment)
    (shape : left.shape = right.shape) {basic : Symbol} (notObjective : basic.kind ≠ .objective) :
    left.row? basic = right.row? basic := by
  have coincides := rowsFor.unique right linked
    (fun symbol => (isBasic_eq_of_shape shape symbol).symm) solves basic notObjective
  have terms : (left.row? basic).map (·.terms) = (right.row? basic).map (·.terms) := by
    rw [← get?_shape, ← get?_shape, shape]
  generalize left.row? basic = leftRow, right.row? basic = rightRow at coincides terms
  cases coincides with
  | none => rfl
  | @some first second rows =>
    cases first
    cases second
    rw [Option.some.injEq, Expression.mk.injEq]
    exact ⟨rows.constant, Option.some.inj terms⟩

end Tableau

/-! Targets -/

variable {K : Type}

def Demand.suggested? (demand : Demand K) (asked : Variable → Option K) : Option K :=
  match demand.kind with
  | .edit unknown => asked unknown
  | _ => none

theorem Demand.suggested?_of_edit {demand : Demand K} {unknown : Variable}
    (isEdit : demand.kind = .edit unknown) (asked : Variable → Option K) :
    demand.suggested? asked = asked unknown := by
  rw [suggested?, isEdit]

theorem Demand.suggested?_none (demand : Demand K) : demand.suggested? (fun _ => none) = none := by
  unfold suggested?
  split <;> rfl

theorem Demand.suggested?_or (demand : Demand K) (again asked : Variable → Option K) :
    demand.suggested? (fun unknown => (again unknown).or (asked unknown)) =
      (demand.suggested? again).or (demand.suggested? asked) := by
  unfold suggested?
  split <;> rfl

def lastTarget? : List (Variable × K) → Variable → Option K
  | [], _ => none
  | (other, target) :: rest, unknown =>
    (lastTarget? rest unknown).or (if other = unknown then some target else none)

namespace Solver

section Offsets

variable [Field K]

/-- With its offset every registered edit has its present target for a constant. -/
def AtTargets (solver : Solver K) (offsets : Nat → K) : Prop :=
  ∀ unknown info, solver.edits.get? unknown = some info →
    info.constraint.expression.constant + offsets info.constraint.key = info.target

/-- Offsets by which the edits of some variables get other constants, and nothing else does. -/
def redirected (solver : Solver K) (asked : Variable → Option K) (offsets : Nat → K)
    (key : Nat) : K :=
  ((solver.installed.get? key).bind fun entry =>
    (entry.constraint.suggested? asked).map (· - entry.constraint.expression.constant)).getD
      (offsets key)

end Offsets

variable [Field K] [LinearOrder K] {solver before middle after : Solver K}
  {offsets later : Nat → K} {asked : Variable → Option K} {unknown : Variable} {info : EditInfo K}

/-! Every change keeps edits at their targets -/

section Moving

omit [LinearOrder K] in
theorem Encodes.congr (encodes : solver.Encodes offsets)
    (same : ∀ key entry, solver.installed.get? key = some entry → later key = offsets key) :
    solver.Encodes later := by
  refine ⟨encodes.pruned, fun key entry found required => ?_, fun assignment => ?_⟩
  · rw [same key entry found, encodes.required key entry found required]
  · refine (encodes.solves assignment).trans ?_
    exact forall_congr' fun key => forall_congr' fun entry => forall_congr' fun found => by
      rw [same key entry found]

theorem Encodes.offset_unique (encodes : solver.Encodes offsets) (other : solver.Encodes later)
    (sound : solver.Sound) {key : Nat} {entry : Installed K}
    (found : solver.installed.get? key = some entry) : later key = offsets key := by
  have solution := Tableau.solves_completed sound.fits.indexed fun _ => (0 : K)
  have first := (encodes.solves _).mp solution key entry found
  have second := (other.solves _).mp solution key entry found
  exact add_left_cancel (second.trans first.symm)

omit [LinearOrder K] in
theorem AtTargets.of_same (targets : before.AtTargets offsets) (edits : after.edits = before.edits) :
    after.AtTargets offsets := by
  unfold AtTargets
  rw [edits]
  exact targets

theorem AtTargets.congr (targets : solver.AtTargets offsets) (sound : solver.Sound)
    (same : ∀ key entry unknown, solver.installed.get? key = some entry →
      entry.constraint.kind = .edit unknown → later key = offsets key) : solver.AtTargets later := by
  intro unknown info registered
  obtain ⟨entry, found, isEdit, _⟩ := edit_symbols sound registered
  rw [same _ entry unknown found isEdit]
  exact targets unknown info registered

theorem AtTargets.resettle (targets : before.AtTargets offsets) (sound : before.Sound)
    (resettles : before.Resettles offsets later) : before.AtTargets later :=
  targets.congr sound fun key entry _ found isEdit =>
    resettles key entry found (by rw [Demand.isStay, isEdit])

theorem AtTargets.retarget (targets : before.AtTargets offsets) (sound : before.Sound)
    (registered : before.edits.get? unknown = some info) (target : K) :
    (before.retargeted unknown info target).AtTargets (Function.update offsets info.constraint.key
      (offsets info.constraint.key + (target - info.target))) := by
  intro other changed present
  change (before.edits.insert unknown { info with target }).get? other = some changed at present
  rw [Table.get?_insert] at present
  split at present
  · cases present
    rw [Function.update_self]
    linear_combination targets unknown info registered
  · rename_i different
    have apart : changed.constraint.key ≠ info.constraint.key := by
      intro sameKey
      obtain ⟨entry, found, isEdit, _⟩ := edit_symbols sound registered
      obtain ⟨same, foundSame, otherEdit, _⟩ := edit_symbols sound present
      rw [sameKey, found] at foundSame
      cases foundSame
      rw [isEdit] at otherEdit
      exact different (ConstraintKind.edit.inj otherEdit)
    rw [Function.update_of_ne apart]
    exact targets other changed present

theorem AtTargets.install (targets : before.AtTargets offsets) (sound : before.Sound)
    {constraint : Constraint K} {placement : Placement K} {tableau : Tableau K} {nextId : Nat}
    (installs : before.Installs constraint placement tableau nextId after) :
    after.AtTargets (Function.update offsets constraint.key 0) := by
  have kept : ∀ other info, before.edits.get? other = some info →
      info.constraint.expression.constant +
        Function.update offsets constraint.key 0 info.constraint.key = info.target := by
    intro other info registered
    obtain ⟨entry, found, _⟩ := edit_symbols sound registered
    rw [Function.update_of_ne]
    · exact targets other info registered
    · intro same
      rw [same, installs.fresh] at found
      cases found
  intro other info registered
  by_cases isEdit : ∃ unknown, constraint.kind = .edit unknown
  · obtain ⟨unknown, isEdit⟩ := isEdit
    rw [(installs.edits_eq isEdit).2, Table.get?_insert] at registered
    split at registered
    · cases registered
      rw [Function.update_self, add_zero]
    · exact kept other info registered
  · rw [installs.edits_same (not_exists.mp isEdit)] at registered
    exact kept other info registered

theorem AtTargets.uninstall (targets : before.AtTargets offsets) (encodes : before.Encodes offsets)
    (sound : before.Sound) {constraint : Constraint K} {entry : Installed K} {dropped : Tableau K}
    (uninstalls : before.Uninstalls constraint entry dropped after)
    (settled : before.settleStays.Encodes later) : after.AtTargets later := by
  obtain ⟨other, otherSettled, resettles⟩ := encodes.settleStays sound
  have kept := targets.resettle sound resettles
  intro unknown info registered
  have ledger : after.edits = _ := congrArg Ledger.edits uninstalls.ledger_after
  rw [ledger] at registered
  have present : before.edits.get? unknown = some info := (Ledger.mem_edits_cleared registered).1
  obtain ⟨own, found, _⟩ := edit_symbols sound present
  rw [otherSettled.offset_unique settled sound.settleStays found]
  exact kept unknown info present

theorem AtTargets.move {given : Constraint K → Prop} (move : Move given before after)
    (sound : before.Sound) (encodes : ∃ offsets, before.Encodes offsets ∧ before.AtTargets offsets) :
    ∃ offsets, after.Encodes offsets ∧ after.AtTargets offsets := by
  obtain ⟨offsets, encodes, targets⟩ := encodes
  cases move with
  | tidy tidies =>
    exact ⟨offsets, encodes.of_same (congrArg Tableau.rows tidies.tableau) tidies.installed,
      targets.of_same tidies.edits⟩
  | requeue requeues => exact ⟨offsets, encodes.of_same requeues.rows rfl, targets.of_same rfl⟩
  | pivot leaves pivots =>
    exact ⟨offsets, encodes.pivot sound.fits leaves pivots, targets.of_same rfl⟩
  | settle =>
    obtain ⟨later, settled, resettles⟩ := encodes.settleStays sound
    exact ⟨later, settled, targets.resettle sound resettles⟩
  | suggest registered target =>
    exact ⟨_, encodes.retarget sound registered target, targets.retarget sound registered target⟩
  | install _ external _ installs =>
    exact ⟨_, encodes.install sound external installs, targets.install sound installs⟩
  | uninstall sameKind uninstalls =>
    obtain ⟨later, settled, left⟩ := encodes.uninstall uninstalls sound sameKind
    exact ⟨later, left, targets.uninstall encodes sound uninstalls settled⟩

end Moving

/-! Suggestions -/

/-- Only edits and rows differ, rows differ in their constants alone, and they say of the constraints
what they said, with the targets asked for as the constants of their edits. -/
structure Redirects (before after : Solver K) (asked : Variable → Option K) : Prop where
  rest : ∃ edits tableau, after = { before with edits, tableau }
  shape : after.tableau.shape = before.tableau.shape
  columns : after.tableau.columns = before.tableau.columns
  encodes : ∀ offsets, before.Encodes offsets → before.AtTargets offsets →
    after.Encodes (before.redirected asked offsets) ∧
      after.AtTargets (before.redirected asked offsets)

omit [LinearOrder K] in
theorem redirected_none (solver : Solver K) (offsets : Nat → K) :
    solver.redirected (fun _ => none) offsets = offsets := by
  funext key
  simp only [redirected, Demand.suggested?_none, Option.map_none, Option.bind_fun_none,
    Option.getD_none]

omit [LinearOrder K] in
theorem redirected_redirected (installed : middle.installed = before.installed)
    (asked again : Variable → Option K) (offsets : Nat → K) :
    middle.redirected again (before.redirected asked offsets) =
      before.redirected (fun unknown => (again unknown).or (asked unknown)) offsets := by
  funext key
  unfold redirected
  rw [installed]
  cases before.installed.get? key with
  | none => rfl
  | some entry =>
    simp only [Option.bind_some, Demand.suggested?_or]
    cases entry.constraint.suggested? again <;> rfl

omit [LinearOrder K] in
theorem Redirects.refl (solver : Solver K) : solver.Redirects solver fun _ => none where
  rest := ⟨_, _, rfl⟩
  shape := rfl
  columns := rfl
  encodes offsets encodes targets := by
    rw [redirected_none]
    exact ⟨encodes, targets⟩

omit [LinearOrder K] in
theorem Redirects.installed (redirects : before.Redirects after asked) :
    after.installed = before.installed := by
  obtain ⟨edits, tableau, same⟩ := redirects.rest
  rw [same]

omit [LinearOrder K] in
theorem Redirects.trans {again : Variable → Option K} (first : before.Redirects middle asked)
    (second : middle.Redirects after again) :
    before.Redirects after fun unknown => (again unknown).or (asked unknown) where
  rest := by
    obtain ⟨_, _, isMiddle⟩ := first.rest
    obtain ⟨edits, tableau, isAfter⟩ := second.rest
    exact ⟨edits, tableau, by rw [isAfter, isMiddle]⟩
  shape := second.shape.trans first.shape
  columns := second.columns.trans first.columns
  encodes offsets encodes targets := by
    obtain ⟨middleEncodes, middleTargets⟩ := first.encodes offsets encodes targets
    rw [← redirected_redirected first.installed]
    exact second.encodes _ middleEncodes middleTargets

theorem redirected_single (sound : before.Sound) (tallies : before.Tallies)
    (targets : before.AtTargets offsets) (registered : before.edits.get? unknown = some info)
    (target : K) {key : Nat} {entry : Installed K}
    (found : before.installed.get? key = some entry) :
    before.redirected (fun other => if unknown = other then some target else none) offsets key =
      Function.update offsets info.constraint.key
        (offsets info.constraint.key + (target - info.target)) key := by
  unfold redirected
  rw [found, Option.bind_some]
  by_cases own : key = info.constraint.key
  · subst own
    obtain ⟨same, isSame, isOwn⟩ := tallies.named unknown info registered
    obtain ⟨other, isOther, isEdit, _⟩ := edit_symbols sound registered
    rw [found] at isSame isOther
    cases isSame
    cases isOther
    rw [Function.update_self, Demand.suggested?_of_edit isEdit, if_pos rfl, isOwn]
    change target - info.constraint.expression.constant = _
    linear_combination -targets unknown info registered
  · have unasked : entry.constraint.suggested?
        (fun other => if unknown = other then some target else none) = none := by
      unfold Demand.suggested?
      split
      · rename_i other isEdit
        refine if_neg ?_
        rintro rfl
        obtain ⟨same, isSame, isOwn⟩ := tallies.registered key entry unknown found isEdit
        rw [registered] at isSame
        cases isSame
        rw [isOwn] at own
        exact own (sound.books.entries key entry found).sameKey.symm
      · rfl
    rw [Function.update_of_ne own, unasked]
    rfl

theorem redirects_retargeted (sound : before.Sound) (tallies : before.Tallies)
    (registered : before.edits.get? unknown = some info) (target : K) :
    before.Redirects (before.retargeted unknown info target)
      fun other => if unknown = other then some target else none where
  rest := ⟨_, _, rfl⟩
  shape := before.tableau.shape_shiftTarget _ _ _
  columns := by
    obtain ⟨_, _, retargets⟩ := retargets_retargeted sound registered target
    cases retargets with
    | plus _ shifts => exact shifts.columns
    | minus _ shifts => exact shifts.columns
    | uses _ _ shifts => exact shifts.columns
  encodes offsets encodes targets := by
    have single := fun key entry (found : before.installed.get? key = some entry) =>
      redirected_single sound tallies targets registered target found
    exact ⟨(encodes.retarget sound registered target).congr single,
      (targets.retarget sound registered target).congr (retargeted_sound sound registered target)
        fun key entry _ found _ => single key entry found⟩

end Solver

namespace Session

variable [Field K] [LinearOrder K] {session : Session K} {limit : Nat}

theorem Reachable.atTargets (reachable : session.Reachable) :
    ∃ offsets, session.solver.Encodes offsets ∧ session.solver.AtTargets offsets :=
  (reachable.keeps (fun _ _ _ allowed => allowed)
    (fun solver => ∃ offsets, solver.Encodes offsets ∧ solver.AtTargets offsets)
    (fun config => ⟨_, Solver.encodes_fresh config, nofun⟩)
    fun _ _ _ move sound => Solver.AtTargets.move move sound).2

def suggestAll (suggestions : List (Variable × K)) : Action K (Session K) Unit :=
  Action.forEach (fun suggestion => do
    let _ ← perform (.suggest suggestion.1 suggestion.2)
    return ()) suggestions

theorem suggest_eq {unknown : Variable} {info : EditInfo K}
    (registered : session.solver.edits.get? unknown = some info) (target : K) :
    perform (.suggest unknown target) limit session =
      .done .nothing { session with solver := session.solver.retargeted unknown info target } [] := by
  have returns : Solver.suggest unknown target limit session.solver =
      .done () (session.solver.retargeted unknown info target) [] := by
    unfold Solver.suggest
    rw [Action.get_bind, registered]
    rfl
  have same : onSolver (Solver.suggest unknown target) limit session =
      .done () { session with solver := session.solver.retargeted unknown info target } [] := by
    unfold onSolver
    rw [returns]
    rfl
  exact Action.bind_done same

theorem suggestAll_redirects (reachable : session.Reachable) {suggestions : List (Variable × K)}
    (registered : ∀ suggestion ∈ suggestions,
      session.solver.edits.contains suggestion.1 = true) (limit : Nat) :
    ∃ after, suggestAll suggestions limit session =
        .done () { session with solver := after } [] ∧
      Reachable { session with solver := after } ∧
      session.solver.Redirects after (lastTarget? suggestions) := by
  induction suggestions generalizing session with
  | nil => exact ⟨_, rfl, reachable, .refl _⟩
  | cons suggestion rest ih =>
    obtain ⟨first, others⟩ := List.forall_mem_cons.mp registered
    obtain ⟨info, isInfo⟩ := Option.isSome_iff_exists.mp first
    set middle : Session K :=
      { session with solver := session.solver.retargeted suggestion.1 info suggestion.2 }
    have returns : perform (.suggest suggestion.1 suggestion.2) limit session =
        .done .nothing middle [] := suggest_eq isInfo suggestion.2
    have reached : (perform (.suggest suggestion.1 suggestion.2) limit session).state? =
        some middle := by
      rw [returns]
      rfl
    have external : (Call.suggest suggestion.1 suggestion.2).External := trivial
    have middleReachable : middle.Reachable := Runs.call reachable external reached
    have stillRegistered : ∀ later ∈ rest, middle.solver.edits.contains later.1 = true := by
      intro later member
      change (Table.insert _ _ _).contains later.1 = true
      rw [Table.contains_iff, Table.mem_keys_insert, ← Table.contains_iff]
      exact Or.inr (others later member)
    obtain ⟨after, ran, afterReachable, redirects⟩ := ih middleReachable stillRegistered
    refine ⟨after, ?_, afterReachable, (Solver.redirects_retargeted reachable.encodes.1.solver
      reachable.tallies isInfo suggestion.2).trans redirects⟩
    exact (Action.bind_done (Action.bind_done returns)).trans ((Outcome.after_nil _).trans ran)

/-- Suggestions for registered edits leave basic symbols, coefficients, columns and published values
as they are. Objectives apart, the rows become those which the constraints have for the same basic
symbols with the targets suggested last as the constants of their edits, so neither the order nor
what was suggested in between counts. -/
theorem suggestAll_restates (reachable : session.Reachable) {suggestions : List (Variable × K)}
    (registered : ∀ suggestion ∈ suggestions,
      session.solver.edits.contains suggestion.1 = true) (limit : Nat) :
    ∃ after offsets, suggestAll suggestions limit session =
        .done () { session with solver := after } [] ∧
      session.solver.Encodes offsets ∧ session.solver.AtTargets offsets ∧
      session.solver.Redirects after (lastTarget? suggestions) ∧
      after.tableau.RowsFor (session.solver.Balanced
        (session.solver.redirected (lastTarget? suggestions) offsets)) ∧
      ∀ others : List (Variable × K), (∀ suggestion ∈ others,
          session.solver.edits.contains suggestion.1 = true) →
        lastTarget? others = lastTarget? suggestions → ∀ more, ∃ last,
          suggestAll others more session = .done () { session with solver := last } [] ∧
          ∀ basic, basic.kind ≠ .objective →
            last.tableau.row? basic = after.tableau.row? basic := by
  obtain ⟨offsets, encodes, targets⟩ := reachable.atTargets
  have solves : ∀ {after : Solver K} {asked}, session.solver.Redirects after asked →
      ∀ assignment, after.tableau.Solves assignment ↔
        session.solver.Balanced (session.solver.redirected asked offsets) assignment := by
    intro after asked redirects assignment
    rw [(redirects.encodes offsets encodes targets).1.solves, Solver.Balanced, redirects.installed]
    rfl
  obtain ⟨after, ran, afterReachable, redirects⟩ :=
    suggestAll_redirects reachable registered limit
  have rowsFor := afterReachable.encodes.1.solver.fits.indexed.linked.rowsFor (solves redirects)
  refine ⟨after, offsets, ran, encodes, targets, redirects, rowsFor, ?_⟩
  intro others alsoRegistered sameTargets more
  obtain ⟨last, alsoRan, lastReachable, alsoRedirects⟩ :=
    suggestAll_redirects reachable alsoRegistered more
  rw [sameTargets] at alsoRedirects
  refine ⟨last, alsoRan, fun basic notObjective => Eq.symm ?_⟩
  exact rowsFor.row?_eq lastReachable.encodes.1.solver.fits.indexed.linked (solves alsoRedirects)
    (redirects.shape.trans alsoRedirects.shape.symm) notObjective

/-- Two variables in order, the first moved past the second by way of a target that is taken back.
The slack between them goes to minus two either way. -/
theorem suggestAll_restates_crossed :
    let session : Session ℚ := (start (.withConfig .standard) .log).replay 8
      [.newVariable none 0, .newVariable none 0,
        .make (.atLeast (.ofVariable ⟨2⟩) (.ofVariable ⟨1⟩) .required), .add 0,
        .addEdit ⟨1⟩ .strong, .addEdit ⟨2⟩ .medium, .beginEdit]
    let suggestions : List (Variable × ℚ) := [(⟨1⟩, 3), (⟨2⟩, 5), (⟨1⟩, 7)]
    let shorter : List (Variable × ℚ) := [(⟨2⟩, 5), (⟨1⟩, 7)]
    session.Reachable ∧
      ((suggestAll suggestions 0 session).state?.bind (·.solver.tableau.row? ⟨3, .slack⟩)).map
        (·.constant) = some (-2) ∧
      ∃ after last offsets, suggestAll suggestions 0 session =
          .done () { session with solver := after } [] ∧
        session.solver.Encodes offsets ∧ session.solver.AtTargets offsets ∧
        session.solver.Redirects after (lastTarget? suggestions) ∧
        after.tableau.RowsFor (session.solver.Balanced
          (session.solver.redirected (lastTarget? suggestions) offsets)) ∧
        suggestAll shorter 0 session = .done () { session with solver := last } [] ∧
        ∀ basic, basic.kind ≠ .objective → last.tableau.row? basic = after.tableau.row? basic := by
  intro session suggestions shorter
  have isAtLeast : (Demand.atLeast (.ofVariable ⟨2⟩) (.ofVariable ⟨1⟩) .required :
      Demand ℚ).External := by decide +kernel
  have reachable : session.Reachable := (Runs.fresh _ _).replay
    ⟨trivial, trivial, isAtLeast, trivial, trivial, trivial, trivial, trivial⟩
  have sameTargets : lastTarget? shorter = lastTarget? suggestions := by
    funext unknown
    by_cases first : (⟨1⟩ : Variable) = unknown <;> by_cases second : (⟨2⟩ : Variable) = unknown <;>
      simp [shorter, suggestions, lastTarget?, first, second]
  have registered : ∀ suggestion ∈ suggestions,
      session.solver.edits.contains suggestion.1 = true := by decide +kernel
  obtain ⟨after, offsets, ran, encodes, targets, redirects, rowsFor, others⟩ :=
    suggestAll_restates reachable registered 0
  obtain ⟨last, alsoRan, sameRows⟩ := others shorter (by decide +kernel) sameTargets 0
  exact ⟨reachable, by decide +kernel, after, last, offsets, ran, encodes, targets, redirects,
    rowsFor, alsoRan, sameRows⟩

end Session

end SoftSimplex
