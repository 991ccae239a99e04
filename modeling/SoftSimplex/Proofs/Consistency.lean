import SoftSimplex.Proofs.Requirements

/-!
Rows and columns agree in every state that a session can reach. Nothing is asked of the numbers:
a sum may vanish or not, and calls may fail halfway.
-/

namespace SoftSimplex

namespace Tableau

variable {K : Type}

/-- The two halves of a tableau list the same occurrences, and what is basic occurs nowhere. -/
structure Consistent (tableau : Tableau K) : Prop where
  listed : ∀ symbol basic,
    (∃ row, tableau.rows.get? basic = some row ∧ symbol ∈ row.symbols) ↔
      ∃ users, tableau.columns.get? symbol = some users ∧ basic ∈ users.keys
  users : ∀ symbol users, tableau.columns.get? symbol = some users →
    ∀ basic ∈ users.keys, basic ∈ tableau.rows.keys
  parametric : ∀ basic ∈ tableau.rows.keys, tableau.columns.get? basic = none
  absent : ∀ basic row, tableau.rows.get? basic = some row →
    ∀ symbol ∈ row.symbols, symbol ∉ tableau.rows.keys

theorem mem_column_iff (tableau : Tableau K) (symbol basic : Symbol) :
    basic ∈ tableau.column symbol ↔
      ∃ users, tableau.columns.get? symbol = some users ∧ basic ∈ users.keys := by
  unfold column
  cases found : tableau.columns.get? symbol with
  | none =>
    constructor
    · exact nofun
    · rintro ⟨_, ⟨⟩, _⟩
  | some users =>
    constructor
    · exact fun member => ⟨users, rfl, member⟩
    · rintro ⟨_, ⟨⟩, member⟩
      exact member

theorem IndexedBut.consistent {tableau : Tableau K} {pending : Symbol → Prop}
    (indexed : tableau.IndexedBut pending) : tableau.Consistent := by
  have listed : ∀ symbol basic, tableau.Occurs symbol basic ↔
      ∃ users, tableau.columns.get? symbol = some users ∧ basic ∈ users.keys :=
    fun symbol basic => (indexed.agrees symbol basic).symm.trans (tableau.mem_column_iff _ _)
  refine ⟨listed, ?_, ?_, ?_⟩
  · intro symbol users found basic member
    obtain ⟨row, isRow, _⟩ := (listed symbol basic).mpr ⟨users, found, member⟩
    exact (Table.mem_keys_iff ..).mpr ⟨row, isRow⟩
  · intro basic member
    have noColumn := indexed.parametric basic ((Table.contains_iff ..).mpr member)
    cases found : tableau.columns.get? basic with
    | none => rfl
    | some users => simp [hasColumn, Table.contains, found] at noColumn
  · intro basic row found symbol member present
    exact indexed.not_mem_of_basic ((Table.contains_iff ..).mpr present) found member

end Tableau

namespace Session

section Everything

variable {K : Type} [Zero K] [One K] [Add K] [Sub K] [Neg K] [Mul K] [Div K] [LT K] [DecidableLT K]
  [LE K] [DecidableLE K] [Scalar K]

/-- Whatever the numbers are, and whether calls fail or not, rows and columns agree. -/
theorem consistent_of_reachable {session : Session K} (reachable : session.Reachable) :
    session.solver.tableau.Consistent :=
  reachable.sound.solver.fits.indexed.consistent

end Everything

/-- Bounds that cross, so that the second is refused after the first has been pivoted in, and an
edit pushed beyond the bound that came in. -/
theorem consistent_of_reachable_crossed :
    let session : Session ℚ := (start (.withConfig .standard) .log).replay 8
      [.newVariable none 0, .make (.atMost (.ofVariable ⟨1⟩) (.ofConstant 1) .required),
        .make (.atLeast (.ofVariable ⟨1⟩) (.ofConstant 2) .required), .add 0, .add 1,
        .addEdit ⟨1⟩ .strong, .beginEdit, .suggest ⟨1⟩ 3, .resolve]
    session.Reachable ∧ session.solver.tableau.Consistent ∧
      (session.solver.tableau.column ⟨2, .slack⟩).map (·.text) = ["v1", "z0", "s6"] ∧
      (session.solver.tableau.column ⟨7, .slack⟩).map (·.text) = ["z0", "s6"] := by
  intro session
  have reachable : session.Reachable :=
    (Runs.fresh _ _).replay
      ⟨trivial, Demand.external_upperBound ⟨1⟩ 1 .required,
        Demand.external_lowerBound ⟨1⟩ 2 .required, trivial, trivial, trivial, trivial, trivial,
        trivial, trivial⟩
  exact ⟨reachable, consistent_of_reachable reachable, by decide +kernel, by decide +kernel⟩

end Session

end SoftSimplex
