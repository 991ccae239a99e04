import SoftSimplex.Proofs.TableauVariables
import SoftSimplex.Proofs.Mentions
import SoftSimplex.Proofs.Pricing

/-!
Which variables a solver takes for present. A variable occurs in the tableau exactly as long as some
constraint names it. Whether it is there is read off the columns, though, and a column stays when
its last row goes: a variable that a constraint has ever named counts as present for good.
-/

namespace SoftSimplex

namespace Tableau

variable {K : Type} {tableau : Tableau K} {symbol : Symbol}

def Uses (tableau : Tableau K) (symbol : Symbol) : Prop :=
  tableau.isBasic symbol = true ∨ ∃ basic, tableau.Occurs symbol basic

theorem uses_iff : tableau.Uses symbol ↔ tableau.isBasic symbol = true ∨
    ∃ item ∈ tableau.rows.entries, symbol ∈ item.2.symbols := by
  refine or_congr_right ⟨?_, ?_⟩
  · rintro ⟨basic, row, found, member⟩
    exact ⟨(basic, row), (tableau.rows.mem_entries_iff basic row).mpr found, member⟩
  · rintro ⟨item, listed, member⟩
    exact ⟨item.1, item.2, (tableau.rows.mem_entries_iff item.1 item.2).mp listed, member⟩

instance (tableau : Tableau K) (symbol : Symbol) : Decidable (tableau.Uses symbol) :=
  decidable_of_iff _ uses_iff.symm

theorem Uses.contains (uses : tableau.Uses symbol) (indexed : tableau.Indexed) :
    tableau.Contains symbol :=
  uses.imp_right fun ⟨_, occurs⟩ => indexed.hasColumn_of_occurs occurs

end Tableau

variable {K : Type} [Field K] [LinearOrder K]

namespace Solver

/-! Where a variable occurs -/

variable {solver : Solver K} {offsets : Nat → K} {surplus : K} {symbol : Symbol}

theorem not_mem_symbols_of_external (sound : solver.Sound) (isExternal : symbol.isExternal = true)
    {key : Nat} {entry : Installed K} (found : solver.installed.get? key = some entry) :
    symbol ∉ entry.symbols := by
  intro member
  rw [((sound.books.entries key entry found).symbol_known member).2.1] at isExternal
  cases isExternal

theorem Encodes.inConstraintRows_iff (encodes : solver.Encodes offsets) (sound : solver.Sound)
    (isExternal : symbol.isExternal = true) :
    solver.tableau.InConstraintRows symbol ↔ solver.Constrains symbol := by
  have indexed := sound.fits.indexed
  have solves : solver.tableau.Solves solver.tableau.basicSolution :=
    Tableau.solves_completed indexed _
  constructor
  · intro inConstraintRows
    by_contra unnamed
    have free : ∀ assignment value,
        solver.tableau.Solves (Function.update assignment symbol value) ↔
          solver.tableau.Solves assignment := by
      intro assignment value
      rw [encodes.solves, encodes.solves]
      refine forall₃_congr fun key entry found => ?_
      have missing : entry.constraint.expression.coefficient symbol = 0 := by
        by_contra named
        exact unnamed ⟨_, mem_constraints_iff.mpr ⟨key, entry, found, rfl⟩, named⟩
      rw [Expression.valueAt_update, missing, zero_mul, add_zero,
        Installed.balance_update (not_mem_symbols_of_external sound isExternal found)]
    rcases inConstraintRows with isBasic | ⟨basic, notObjective, row, found, member⟩
    · have notObjective : symbol.kind ≠ .objective := Symbol.kind_ne_of_external isExternal rfl
      rw [Tableau.not_basic_of_free indexed notObjective free] at isBasic
      cases isBasic
    · have different : basic ≠ symbol := by
        rintro rfl
        exact indexed.not_mem_of_basic (Tableau.isBasic_of_row? found) found member
      have here := solves basic row found notObjective
      have moved := (free solver.tableau.basicSolution
        (solver.tableau.basicSolution symbol + 1)).mpr solves basic row found notObjective
      rw [Expression.valueAt_update, Function.update_of_ne different] at moved
      exact (encodes.pruned basic row found).coefficient_ne_zero member
        (by linear_combination here - moved)
  · rintro ⟨_, listed, names⟩
    by_contra loose
    obtain ⟨key, entry, found, rfl⟩ := mem_constraints_iff.mp listed
    have balances := fun value => (encodes.solves _).mp
      (Tableau.solves_update_loose loose solves value) key entry found
    simp only [Expression.valueAt_update,
      Installed.balance_update (not_mem_symbols_of_external sound isExternal found)] at balances
    have here := balances (solver.tableau.basicSolution symbol)
    have moved := balances (solver.tableau.basicSolution symbol + 1)
    exact names (by linear_combination moved - here)

theorem errorCost_update (sound : solver.Sound) (isExternal : symbol.isExternal = true)
    (assignment : Symbol → K) (value : K) :
    solver.errorCost (Function.update assignment symbol value) = solver.errorCost assignment := by
  refine Table.total_congr fun item member => Installed.errorCost_congr fun other own => ?_
  have found := (solver.installed.mem_entries_iff item.1 item.2).mp member
  refine Function.update_of_ne ?_ _ _
  rintro rfl
  exact not_mem_symbols_of_external sound isExternal found own

theorem PricesUpTo.inConstraintRows (prices : solver.PricesUpTo surplus) (sound : solver.Sound)
    (pruned : solver.tableau.Pruned) (isExternal : symbol.isExternal = true)
    (uses : solver.tableau.Uses symbol) : solver.tableau.InConstraintRows symbol := by
  by_contra loose
  obtain ⟨notBasic, unmentioned⟩ := not_or.mp loose
  obtain ⟨basic, row, found, member⟩ := uses.resolve_left notBasic
  have isObjective : basic.kind = .objective := by
    by_contra notObjective
    exact unmentioned ⟨basic, notObjective, row, found, member⟩
  obtain rfl : basic = .mainObjective := by
    rcases sound.fits.within basic (.inl (Tableau.isBasic_of_row? found)) with
      same | external | ⟨slack | dummy, _⟩
    · exact same
    · cases Symbol.kind_ne_of_external external rfl isObjective
    · rw [isObjective] at slack
      cases slack
    · rw [isObjective] at dummy
      cases dummy
  have solves : solver.tableau.Solves solver.tableau.basicSolution :=
    Tableau.solves_completed sound.fits.indexed _
  have moved := prices row _ found (Tableau.solves_update_loose loose solves
    (solver.tableau.basicSolution symbol + 1))
  rw [errorCost_update sound isExternal, Expression.valueAt_update,
    prices row _ found solves] at moved
  exact (pruned _ row found).coefficient_ne_zero member (by linear_combination moved)

theorem Priced.uses_iff (priced : solver.Priced) (sound : solver.Sound)
    (isExternal : symbol.isExternal = true) :
    solver.tableau.Uses symbol ↔ solver.Constrains symbol := by
  obtain ⟨⟨offsets, encodes⟩, ⟨surplus, prices⟩⟩ := priced
  rw [← encodes.inConstraintRows_iff sound isExternal]
  exact ⟨prices.inConstraintRows sound encodes.pruned isExternal,
    Or.imp_right fun ⟨basic, _, occurs⟩ => ⟨basic, occurs⟩⟩

/-! Questions about a variable -/

section Asking

variable {unknown : Variable} {limit : Nat}

omit [Field K] [LinearOrder K] in
theorem contains_of_findVariable? {name : String}
    (found : solver.findVariable? name = some unknown) : solver.containsVariable unknown = true := by
  obtain ⟨symbol, listed, named⟩ := List.mem_filterMap.mp (List.mem_of_find?_eq_some found)
  obtain rfl := (Symbol.unknown?_eq_some_iff symbol unknown).mp named
  rw [containsVariable_iff]
  exact (List.mem_append.mp listed).symm.imp (Table.contains_iff ..).mpr (Table.contains_iff ..).mpr

theorem addVariable_stays [IsStrictOrderedRing K] (sound : solver.Sound)
    (absent : solver.containsVariable unknown = false) :
    (addVariable unknown limit solver).Meets
      (fun _ after => ∃ constraint ∈ after.constraints,
        constraint.toDemand = .stay unknown (solver.value unknown) .weak 1)
      fun fault _ => fault.isInternal = true := by
  have reserved := solver.tidies_withNextKey.sound sound
  have unobjected : solver.withNextKey.objection? ⟨.stay unknown (solver.value unknown) .weak 1,
      solver.nextKey⟩ = none := by
    have fresh : solver.installed.get? solver.nextKey = none := by
      refine Option.eq_none_iff_forall_ne_some.mpr fun entry found => ?_
      exact Nat.lt_irrefl _ (sound.books.entries _ entry found).older
    have missing : solver.installed.contains solver.nextKey = false := by
      rw [Table.contains, fresh]
      rfl
    unfold objection?
    exact if_neg (ne_true_of_eq_false missing)
  unfold addVariable addStay
  rw [Action.meets_bind, Action.meets_get, absent, if_neg Bool.false_ne_true, Action.meets_bind,
    Action.meets_mapFault, Action.meets_bind, Action.meets_get, meets_addNew]
  refine (add_meets reserved (Demand.external_stay unknown _ .weak 1) (Nat.lt_succ_self _)).imp ?_ ?_
  · rintro _ after ⟨_, _, _, installed, installs, follows⟩
    have same : after.installed = installed.installed := follows.tidies.installed
    have found := (installs.get?_installed solver.nextKey).trans (if_pos rfl)
    rw [← same] at found
    exact ⟨_, mem_constraints_iff.mpr ⟨_, _, found, rfl⟩, rfl⟩
  · intro fault after fails
    rw [fails.unbounded_of_soft exact_units reserved.fits unobjected rfl]
    rfl

end Asking

end Solver

namespace Session

open Solver

variable {session next : Session K} {passed : List (Session K)} {unknown : Variable}

section Trails

variable [Scalar K] {allowed : Session K → Call K → Outcome K (Session K) (Reply K) → Prop}

/-- A run of allowed calls with the sessions that it has passed, the latest first. -/
inductive RunPassing (allowed : Session K → Call K → Outcome K (Session K) (Reply K) → Prop) :
    List (Session K) → Session K → Prop
  | fresh (config : Config K) (sink : Sink) : RunPassing allowed [] (start (.withConfig config) sink)
  | call {passed : List (Session K)} {session next : Session K} {request : Call K} {limit : Nat}
      (earlier : RunPassing allowed passed session)
      (allows : allowed session request (perform request limit session))
      (returns : (perform request limit session).state? = some next) :
      RunPassing allowed (session :: passed) next

theorem RunPassing.runs (passing : RunPassing allowed passed session) : Runs allowed session := by
  induction passing with
  | fresh config sink => exact .fresh config sink
  | call _ allows returns ih => exact .call ih allows returns

variable {limit : Nat}

theorem RunPassing.replay (passing : RunPassing allowed passed session) {requests : List (Call K)}
    (allows : Allows allowed limit requests session) :
    ∃ visited, RunPassing allowed visited (session.replay limit requests) := by
  induction requests generalizing session passed with
  | nil => exact ⟨passed, passing⟩
  | cons request rest ih =>
    obtain ⟨visited, continued⟩ : ∃ visited,
        RunPassing allowed visited ((perform request limit session).state?.getD session) := by
      cases returned : (perform request limit session).state? with
      | none => exact ⟨passed, passing⟩
      | some next => exact ⟨session :: passed, .call passing allows.1 returned⟩
    exact ih continued allows.2

end Trails

variable {allowed : Session K → Call K → Outcome K (Session K) (Reply K) → Prop}

def RunPassingExactly (allowed : Session K → Call K → Outcome K (Session K) (Reply K) → Prop) :
    List (Session K) → Session K → Prop := RunPassing allowed

theorem RunPassingExactly.fresh (config : Config K) (sink : Sink) :
    RunPassingExactly allowed [] (start (.withConfig config) sink) := RunPassing.fresh config sink

theorem RunPassingExactly.call {request : Call K} {outcome : Outcome K (Session K) (Reply K)}
    (earlier : RunPassingExactly allowed passed session) (allows : allowed session request outcome)
    (judged : session.JudgedExactly request outcome) (returns : outcome.state? = some next) :
    RunPassingExactly allowed (session :: passed) next := by
  obtain ⟨limit, rfl⟩ := judged
  exact RunPassing.call earlier allows returns

theorem RunPassing.exactly [Scalar K]
    (passing : RunPassing (fun session request outcome => allowed session request outcome ∧
      session.JudgedExactly request outcome) passed session) :
    RunPassingExactly allowed passed session := by
  induction passing with
  | fresh config sink => exact .fresh config sink
  | call _ allows returns ih => exact ih.call allows.1 allows.2 returns

/-! Present variables -/

theorem RunPassingExactly.priced
    (passing : RunPassingExactly (fun _ request _ => request.External) passed session) :
    session.Sound ∧ session.solver.Priced :=
  Reachable.priced (RunPassing.runs passing)

omit [LinearOrder K] in
theorem not_contains_fresh (config : Config K) {symbol : Symbol}
    (isExternal : symbol.isExternal = true) : ¬ (withConfig config).tableau.Contains symbol := by
  rintro (isBasic | column)
  · rcases (Tableau.isBasic_addRow ..).mp isBasic with rfl | none
    · cases isExternal
    · cases none
  · rcases (Tableau.hasColumn_addRow ..).mp column with member | none
    · cases member
    · cases none

/-- The variables of the tableau are those that have ever been in a constraint. -/
theorem RunPassingExactly.contains_iff
    (passing : RunPassingExactly (fun _ request _ => request.External) passed session)
    (unknown : Variable) :
    session.solver.containsVariable unknown = true ↔
      ∃ earlier ∈ session :: passed, earlier.solver.Constrains unknown.symbol := by
  have isExternal : unknown.symbol.isExternal = true := rfl
  rw [containsVariable_iff]
  induction passing with
  | fresh config sink =>
    refine ⟨fun contains => (not_contains_fresh config isExternal contains).elim, ?_⟩
    rintro ⟨earlier, member, constraint, listed, _⟩
    rw [List.mem_singleton.mp member] at listed
    cases listed
  | @call passed session next request limit earlier allows returns ih =>
    obtain ⟨sound, priced⟩ := RunPassingExactly.priced earlier
    obtain ⟨nextSound, nextPriced⟩ := RunPassingExactly.priced (RunPassing.call earlier allows returns)
    obtain ⟨offsets, encodes⟩ := priced.encodes
    have keeps : KeepsVariablesAt (perform request) limit session :=
      perform_keepsVariables sound encodes.pruned
    have spanned := Outcome.Meets.of_state? keeps returns
    have adds : next.solver.tableau.Contains unknown.symbol ↔
        next.solver.Constrains unknown.symbol ∨ session.solver.tableau.Contains unknown.symbol := by
      constructor
      · exact fun contains => (spanned.brings _ isExternal contains).symm.imp_left And.right
      · rintro (named | contained)
        · exact ((nextPriced.uses_iff nextSound.solver isExternal).mpr named).contains
            nextSound.solver.fits.indexed
        · exact spanned.lasts _ isExternal contained
    exact (adds.trans (or_congr_right ih)).trans (List.exists_mem_cons_iff
      (fun earlier : Session K => earlier.solver.Constrains unknown.symbol) _ _).symm

/-- What a session says of a variable fits the tableau. -/
structure Tracks (session : Session K) (unknown : Variable) : Prop where
  contained : session.solver.containsVariable unknown = true ↔
    session.solver.tableau.Uses unknown.symbol
  stays : ¬ session.solver.tableau.Uses unknown.symbol → ∀ outcome next,
    session.EndsExactly (.addVariable unknown) outcome next → outcome.fault? = none ∧
      ∃ constraint ∈ next.solver.constraints,
        constraint.toDemand = .stay unknown (session.solver.value unknown) .weak 1
  found : ∀ name, session.solver.findVariable? name = some unknown →
    session.solver.tableau.Uses unknown.symbol

variable [IsStrictOrderedRing K]

theorem Tracks.of_contained (sound : session.Sound)
    (contained : session.solver.containsVariable unknown = true ↔
      session.solver.tableau.Uses unknown.symbol) : session.Tracks unknown := by
  refine ⟨contained, fun unused outcome next ends => ?_,
    fun name found => contained.mp (contains_of_findVariable? found)⟩
  have absent : session.solver.containsVariable unknown = false :=
    eq_false_of_ne_true fun present => unused (contained.mp present)
  rcases ends.meets fun limit => meets_silent (addVariable_stays sound.solver absent) with
    ⟨reply, unfailed, stays, _⟩ | ⟨fault, _, regular, internal, _⟩
  · exact ⟨unfailed, stays⟩
  · rw [regular] at internal
    cases internal

theorem RunPassingExactly.tracks_iff
    (passing : RunPassingExactly (fun _ request _ => request.External) passed session)
    (unknown : Variable) :
    session.Tracks unknown ↔
      ((∃ earlier ∈ session :: passed, earlier.solver.Constrains unknown.symbol) →
        session.solver.Constrains unknown.symbol) := by
  obtain ⟨sound, priced⟩ := passing.priced
  have uses : session.solver.tableau.Uses unknown.symbol ↔
      session.solver.Constrains unknown.symbol := priced.uses_iff sound.solver rfl
  have contains := passing.contains_iff unknown
  constructor
  · exact fun tracks named => uses.mp (tracks.contained.mp (contains.mpr named))
  · intro stillNamed
    refine .of_contained sound ⟨fun present => uses.mpr (stillNamed (contains.mp present)), ?_⟩
    exact fun used => contains.mpr ⟨session, List.mem_cons_self, uses.mp used⟩

/-- As long as the tolerance makes no difference, a variable counts as present once a constraint has
named it. That is right exactly if it has never been in a constraint or still is in one. -/
theorem tracks_of_judged [Scalar K]
    (passing : RunPassing (fun session request outcome => request.External ∧
      session.JudgedExactly request outcome) passed session) (unknown : Variable) :
    (session.solver.containsVariable unknown = true ↔
      ∃ earlier ∈ session :: passed, earlier.solver.Constrains unknown.symbol) ∧
    (session.Tracks unknown ↔
      ((∃ earlier ∈ session :: passed, earlier.solver.Constrains unknown.symbol) →
        session.solver.Constrains unknown.symbol)) :=
  ⟨passing.exactly.contains_iff unknown, passing.exactly.tracks_iff unknown⟩

section Coded

attribute [local instance] Scalar.coded

/-- A variable has a bound and a stay, and the bound goes. Another one is in no constraint. -/
theorem tracks_of_judged_stayed :
    let session : Session ℚ := (start (.withConfig .standard) .log).replay 8
      [.newVariable (some "x") 3, .newVariable (some "y") 4,
        .make (.atLeast (.ofVariable ⟨1⟩) (.ofConstant 5) .required), .add 0, .addVariable ⟨1⟩,
        .addStay ⟨1⟩ .weak 1, .remove 0]
    session.solver.constraintCount = 1 ∧ session.Tracks ⟨1⟩ ∧ session.Tracks ⟨2⟩ ∧
      ∃ passed, (∃ earlier ∈ session :: passed, earlier.solver.Constrains (Variable.symbol ⟨1⟩)) ∧
        ¬ ∃ earlier ∈ session :: passed, earlier.solver.Constrains (Variable.symbol ⟨2⟩) := by
  intro session
  obtain ⟨passed, passing⟩ : ∃ passed, RunPassing (fun session request outcome => request.External ∧
      session.JudgedExactly request outcome) passed session := by
    refine (RunPassing.fresh .standard .log).replay ⟨⟨trivial, 8, ?_⟩, ⟨trivial, 8, ?_⟩,
      ⟨Demand.external_lowerBound ⟨1⟩ 5 .required, 8, ?_⟩, ⟨trivial, 8, ?_⟩, ⟨trivial, 8, ?_⟩,
      ⟨trivial, 8, ?_⟩, ⟨trivial, 8, ?_⟩, trivial⟩
    all_goals decide +kernel
  obtain ⟨present, tracks⟩ := tracks_of_judged passing ⟨1⟩
  obtain ⟨absent, tracksOther⟩ := tracks_of_judged passing ⟨2⟩
  have never : ¬ ∃ earlier ∈ session :: passed, earlier.solver.Constrains (Variable.symbol ⟨2⟩) :=
    fun named => absurd (absent.mpr named) (by decide +kernel)
  exact ⟨by decide +kernel, tracks.mpr fun _ => by decide +kernel,
    tracksOther.mpr fun named => (never named).elim, passed, present.mp (by decide +kernel), never⟩

/-- A bound comes and goes. The variable is not basic and in no row, but still counts as present:
adding it adds nothing, and its name finds it. -/
theorem tracks_lost_emptied :
    let session : Session ℚ := (start (.withConfig .standard) .log).replay 8
      [.newVariable (some "x") 3, .make (.atLeast (.ofVariable ⟨1⟩) (.ofConstant 5) .required),
        .add 0, .remove 0]
    session.Reachable ∧ ¬ session.solver.tableau.Uses (Variable.symbol ⟨1⟩) ∧
      session.solver.containsVariable ⟨1⟩ = true ∧
      (perform (.addVariable ⟨1⟩) 8 session).fault? = none ∧
      ((perform (.addVariable ⟨1⟩) 8 session).state?.map (·.solver.constraintCount)) = some 0 ∧
      session.solver.findVariable? "x" = some ⟨1⟩ := by
  intro session
  have reachable : session.Reachable := (Runs.fresh _ _).replay
    ⟨trivial, Demand.external_lowerBound ⟨1⟩ 5 .required, trivial, trivial, trivial⟩
  refine ⟨reachable, ?_⟩
  decide +kernel

end Coded

end Session

end SoftSimplex
