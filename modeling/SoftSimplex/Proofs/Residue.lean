import SoftSimplex.Proofs.Mentions

/-!
What calls leave behind in the tableau. The artificial symbols and objectives that help to bring an
equation in are gone when the call ends, by whichever way it ends; what stays are variables, the
main objective and symbols made for constraints, with ids that have been given out.
-/

namespace SoftSimplex

namespace Tableau

variable {K : Type} {tableau : Tableau K} {bound : Nat}

/-- Nothing stands in the tableau that a solver may not have there between two calls, once it has
given out the ids below a bound. -/
structure Clean (tableau : Tableau K) (bound : Nat) : Prop where
  noArtificial : ∀ symbol, symbol.kind = .artificial → ¬ tableau.Mentions symbol
  oneObjective : ∀ symbol, symbol.kind = .objective → tableau.Mentions symbol →
    symbol = .mainObjective
  objectiveRow : Symbol.mainObjective ∈ tableau.rows.keys
  objectiveApart : ∀ basic row, tableau.rows.get? basic = some row →
    Symbol.mainObjective ∉ row.symbols
  givenOut : ∀ symbol, symbol.kind = .slack ∨ symbol.kind = .dummy → tableau.Mentions symbol →
    symbol.id < bound
  queued : ∀ symbol ∈ tableau.infeasible.keys,
    symbol.isRestricted = true ∧ symbol ∈ tableau.rows.keys

theorem Fits.known_of_mentions (fits : tableau.Fits bound) {symbol : Symbol}
    (mentions : tableau.Mentions symbol) : symbol.Known bound := by
  by_contra unknown
  have without : tableau.Within (· ≠ symbol) := fits.within.imp fun other known same =>
    unknown (same ▸ known)
  exact without.not_mentions fits.indexed mentions

theorem Fits.clean (fits : tableau.Fits bound) : tableau.Clean bound where
  noArtificial := by
    intro symbol isArtificial mentions
    rcases fits.known_of_mentions mentions with rfl | isExternal | ⟨isSlack | isDummy, _⟩
    · cases isArtificial
    · exact Symbol.kind_ne_of_external isExternal rfl isArtificial
    · cases isSlack.symm.trans isArtificial
    · cases isDummy.symm.trans isArtificial
  oneObjective := by
    intro symbol isObjective mentions
    rcases fits.known_of_mentions mentions with same | isExternal | ⟨isSlack | isDummy, _⟩
    · exact same
    · exact absurd isObjective (Symbol.kind_ne_of_external isExternal rfl)
    · cases isSlack.symm.trans isObjective
    · cases isDummy.symm.trans isObjective
  objectiveRow := (Table.contains_iff ..).mp fits.objective
  objectiveApart := fun _ _ => fits.indexed.not_mem_of_basic fits.objective
  givenOut := by
    intro symbol made mentions
    rcases fits.known_of_mentions mentions with rfl | isExternal | ⟨_, earlier⟩
    · rcases made with made | made <;> cases made
    · rcases made with made | made <;>
        exact absurd made (Symbol.kind_ne_of_external isExternal rfl)
    · exact earlier
  queued := by
    intro symbol member
    obtain ⟨restricted, isBasic⟩ := fits.indexed.queued symbol member
    exact ⟨restricted, (Table.contains_iff ..).mp isBasic⟩

end Tableau

namespace Session

section Everything

variable {K : Type} [Zero K] [One K] [Add K] [Sub K] [Neg K] [Mul K] [Div K] [LT K] [DecidableLT K]
  [LE K] [DecidableLE K] [Scalar K]

/-- Whatever the numbers are and however the calls have ended, the tableau is clean. -/
theorem clean_of_reachable {session : Session K} (reachable : session.Reachable) :
    session.solver.tableau.Clean session.solver.nextId :=
  reachable.sound.solver.fits.clean

end Everything

/-- One bound is refused after a pivot and another comes in by pivoting an artificial symbol out; a
target beyond the bounds leaves a row queued, and a negative weight ends in a defect. -/
theorem clean_of_reachable_unbounded :
    let earlier : Session ℚ := (start (.withConfig .standard) .log).replay 8
      [.newVariable none 0, .newVariable none 0,
        .make (.atMost (.ofVariable ⟨1⟩) (.ofConstant 5) .required),
        .make (.atLeast (.ofVariable ⟨1⟩) (.ofConstant 7) .required),
        .make (.atLeast (.ofVariable ⟨1⟩) (.ofConstant 1) .required),
        .make (.ofRelation (.ofVariable ⟨2⟩) .equal .weak (-1)), .addEdit ⟨1⟩ .strong, .add 0,
        .add 1, .add 2, .beginEdit, .suggest ⟨1⟩ 9]
    let session := earlier.replay 8 [.add 3]
    session.Reachable ∧ session.solver.tableau.Clean 14 ∧
      (perform (.add 3) 8 earlier).fault? = some (.internal .objectiveUnbounded) ∧
      session.solver.tableau.infeasible.keys = [⟨4, .slack⟩] ∧
      session.solver.tableau.rows.keys.map (·.text) = ["z0", "v1", "s5", "s4", "v2"] ∧
      session.solver.tableau.columns.keys.map (·.text) = ["s9", "s3", "s13", "s12"] := by
  intro earlier session
  have aimed : (Demand.ofRelation (.ofVariable ⟨2⟩) .equal .weak (-1) : Demand ℚ).External := by
    decide +kernel
  have earlierReachable : earlier.Reachable :=
    (Runs.fresh _ _).replay
      ⟨trivial, trivial, Demand.external_upperBound ⟨1⟩ 5 .required,
        Demand.external_lowerBound ⟨1⟩ 7 .required, Demand.external_lowerBound ⟨1⟩ 1 .required,
        aimed, trivial, trivial, trivial, trivial, trivial, trivial, trivial⟩
  have reachable : session.Reachable := earlierReachable.replay ⟨trivial, trivial⟩
  have given : session.solver.nextId = 14 := by decide +kernel
  exact ⟨reachable, given ▸ clean_of_reachable reachable, by decide +kernel, by decide +kernel,
    by decide +kernel, by decide +kernel⟩

end Session

end SoftSimplex
