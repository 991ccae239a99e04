import SoftSimplex.Proofs.Trimming

/-!
Edits in a session of their own. Moving a variable registers an edit, begins a session and ends it
again. The end goes by positions: it takes out whatever stands at or beyond the place where the
session around began. So the edit is gone if that is its place, and with it any other edit that
stands there too.
-/

namespace SoftSimplex

variable {K : Type}

namespace Solver

structure Untraced (before after : Solver K) : Prop where
  edits : after.edits = before.edits
  depths : after.depths = before.depths
  constraints : after.constraints = before.constraints

def innermostDepth (solver : Solver K) : Nat := solver.depths.headD 0

/-- The edits all stand before the place where the innermost session began, and another one would
not. -/
def Inherited (solver : Solver K) : Prop :=
  (∀ entry ∈ solver.edits.entries, entry.2.index < solver.innermostDepth) ∧
    solver.innermostDepth ≤ solver.editCount

instance (solver : Solver K) : Decidable solver.Inherited :=
  inferInstanceAs (Decidable (_ ∧ _))

def Leaves (before : Solver K) (unknown : Variable) (after : Solver K) : Prop :=
  ∃ info middle, before.Appends unknown info middle ∧ middle.depths.tail = before.depths ∧
    middle.Closes after

variable {before middle after : Solver K} {unknown : Variable} {info : EditInfo K}

theorem Appends.constraints_shed (appends : before.Appends unknown info middle)
    (tallies : before.Tallies) :
    middle.constraints.filter (fun constraint =>
      ∀ other ∈ [unknown], constraint.kind ≠ .edit other) = before.constraints := by
  have others : ∀ constraint ∈ before.constraints, constraint.kind ≠ .edit unknown := by
    intro constraint member isEdit
    obtain ⟨key, entry, found, rfl⟩ := mem_constraints_iff.mp member
    obtain ⟨own, registered, _⟩ := tallies.registered key entry unknown found isEdit
    rw [appends.free] at registered
    cases registered
  have kept : before.constraints.filter
      (fun constraint => ∀ other ∈ [unknown], constraint.kind ≠ .edit other) =
        before.constraints :=
    List.filter_eq_self.mpr fun constraint member => by simpa using others constraint member
  rw [appends.constraints, List.filter_append, kept]
  simp [appends.isEdit]

section Leaving

variable (appends : before.Appends unknown info middle)
  (begun : middle.depths.tail = before.depths) (closes : middle.Closes after)

include appends begun closes

theorem Appends.edits_left : after.edits.entries =
    (before.edits.entries ++ [(unknown, info)]).filter fun entry =>
      entry.2.index < before.innermostDepth := by
  rw [closes.edits, appends.edits, enclosingDepth, begun]
  rfl

theorem Appends.inherited_of_edits (same : after.edits = before.edits) : before.Inherited := by
  have left := appends.edits_left begun closes
  rw [same] at left
  constructor
  · intro entry member
    rw [left] at member
    exact of_decide_eq_true (List.mem_filter.mp member).2
  · by_contra early
    have stays : (unknown, info) ∈ before.edits.entries := by
      rw [left, List.mem_filter]
      refine ⟨by simp, decide_eq_true ?_⟩
      change info.index < before.innermostDepth
      rw [appends.position]
      exact Nat.not_le.mp early
    rw [before.edits.mem_entries_iff, appends.free] at stays
    cases stays

theorem Appends.edits_of_inherited (inherited : before.Inherited) : after.edits = before.edits := by
  refine Table.eq_of_entries ?_
  rw [appends.edits_left begun closes, List.filter_append]
  have kept : before.edits.entries.filter (fun entry => entry.2.index < before.innermostDepth) =
      before.edits.entries :=
    List.filter_eq_self.mpr fun entry member => decide_eq_true (inherited.1 entry member)
  rw [kept]
  simpa [appends.position] using inherited.2

theorem Appends.constraints_of_inherited (tallies : before.Tallies) (inherited : before.Inherited) :
    after.constraints = before.constraints := by
  have gone : middle.beyond middle.enclosingDepth = [unknown] := by
    have earlier : before.edits.entries.filter
        (fun entry => before.innermostDepth ≤ entry.2.index) = [] :=
      List.filter_eq_nil_iff.mpr fun entry member =>
        Nat.not_le.mpr (inherited.1 entry member) ∘ of_decide_eq_true
    have place : before.innermostDepth ≤ info.index := appends.position ▸ inherited.2
    rw [enclosingDepth, begun, ← innermostDepth, beyond, appends.edits, List.filter_append, earlier]
    simp [place]
  rw [closes.constraints, gone, appends.constraints_shed tallies]

end Leaving

theorem Leaves.untraced_iff (leaves : before.Leaves unknown after) (tallies : before.Tallies) :
    before.Untraced after ↔ before.Inherited := by
  obtain ⟨info, middle, appends, begun, closes⟩ := leaves
  constructor
  · exact fun untraced => appends.inherited_of_edits begun closes untraced.edits
  · intro inherited
    refine ⟨appends.edits_of_inherited begun closes inherited, ?_,
      appends.constraints_of_inherited begun closes tallies inherited⟩
    rw [closes.depths, begun]

variable [Zero K] [One K] [Add K] [Sub K] [Neg K] [Mul K] [Div K] [LT K] [DecidableLT K] [LE K]
  [DecidableLE K] [Scalar K] {limit : Nat}

theorem setEditedValue_leaves (tallied : before.Tallied) (target : K)
    (contained : before.containsVariable unknown = true)
    (far : Scalar.close target (before.value unknown) = false) :
    (setEditedValue unknown target limit before).Meets (fun _ after => before.Leaves unknown after)
      (fun _ _ => True) := by
  rw [meets_setEditedValue, contained, far, Bool.not_true, if_neg Bool.false_ne_true,
    if_neg Bool.false_ne_true]
  refine (Outcome.Meets.and (addEdit_registersEdit tallied.sound unknown _)
    (addEdit_evolves tallied.sound unknown _)).imp ?_ fun _ _ _ => trivial
  rintro _ added ⟨⟨depths, info, appends⟩, evolves, _⟩
  have addedTallied := tallied.evolves evolves
  refine (Outcome.Meets.and beginEdit_opens beginEdit_evolves).imp ?_ fun _ _ _ => trivial
  rintro _ begun ⟨opens, evolves, _⟩
  have begunTallied := addedTallied.evolves evolves
  have stands := appends.of_same opens.edits opens.installed
  refine (Outcome.Meets.and (suggest_retargets unknown target)
    (suggest_evolves unknown target)).imp ?_ fun _ _ _ => trivial
  rintro _ suggested ⟨⟨other, registered, rfl⟩, evolves, _⟩
  have same : info = other := Option.some.inj (stands.registered.symm.trans registered)
  subst same
  refine (endEdit_closes (begunTallied.evolves evolves)).imp ?_ fun _ _ _ => trivial
  intro _ after closes
  refine ⟨_, _, stands.retarget target, ?_, closes⟩
  exact (congrArg List.tail opens.depths).trans depths

end Solver

namespace Session

open Solver

section Everything

variable [Zero K] [One K] [Add K] [Sub K] [Neg K] [Mul K] [Div K] [LT K] [DecidableLT K] [LE K]
  [DecidableLE K] [Scalar K] {session : Session K}

theorem Reachable.tallied (reachable : session.Reachable) : session.solver.Tallied :=
  ⟨reachable.sound.solver, reachable.tallies⟩

/-- A variable that is moved leaves no trace exactly if there was nothing to move, or the edits all
stand before the place where the innermost session began and another one would not. -/
theorem setEditedValue_untraced_iff (reachable : session.Reachable) (unknown : Variable)
    (target : K) (limit : Nat) :
    (perform (.setEditedValue unknown target) limit session).Meets
      (fun _ next => session.solver.Untraced next.solver ↔
        session.solver.containsVariable unknown = false ∨
        Scalar.close target (session.solver.value unknown) = true ∨ session.solver.Inherited)
      (fun _ _ => True) := by
  have silent : (Solver.setEditedValue unknown target limit session.solver).Meets
      (fun _ after => session.solver.Untraced after ↔
        session.solver.containsVariable unknown = false ∨
        Scalar.close target (session.solver.value unknown) = true ∨ session.solver.Inherited)
      (fun _ _ => True) := by
    cases contained : session.solver.containsVariable unknown with
    | false =>
      rw [meets_setEditedValue, contained]
      exact iff_of_true ⟨rfl, rfl, rfl⟩ (Or.inl rfl)
    | true =>
      cases close : Scalar.close target (session.solver.value unknown) with
      | true =>
        rw [meets_setEditedValue, contained, close]
        exact iff_of_true ⟨rfl, rfl, rfl⟩ (Or.inr (Or.inl rfl))
      | false =>
        refine (setEditedValue_leaves reachable.tallied target contained close).imp ?_
          fun _ _ _ => trivial
        intro _ after leaves
        simpa using leaves.untraced_iff reachable.tallies
  exact (meets_silent silent).imp (fun _ _ met => met.1) fun _ _ _ => trivial

end Everything

/-- Inside a session over another variable a variable is moved, and no trace is left of it. -/
theorem setEditedValue_untraced_iff_inner :
    let session : Session ℚ := (start (.withConfig .standard) .log).replay 8
      [.newVariable none 0, .newVariable none 0, .addStay ⟨2⟩ .weak 1, .addEdit ⟨1⟩ .strong,
        .beginEdit, .suggest ⟨1⟩ 5]
    let next := session.replay 8 [.setEditedValue ⟨2⟩ 7]
    session.Reachable ∧ session.solver.Inherited ∧ next.solver.value ⟨2⟩ = 7 ∧
      (perform (.setEditedValue ⟨2⟩ 7) 8 session).fault? = none ∧
      session.solver.Untraced next.solver := by
  intro session next
  have reachable : session.Reachable := (Runs.fresh _ _).replay
    ⟨trivial, trivial, trivial, trivial, trivial, trivial, trivial⟩
  have inherited : session.solver.Inherited := by decide +kernel
  have clean : (perform (.setEditedValue ⟨2⟩ 7) 8 session).fault? = none := by decide +kernel
  have returns := state?_of_returns
    (show (perform (.setEditedValue ⟨2⟩ 7) 8 session).state?.isSome = true by decide +kernel)
  obtain ⟨_, untraced⟩ := (setEditedValue_untraced_iff reachable ⟨2⟩ 7 8).of_clean returns clean
  exact ⟨reachable, inherited, by decide +kernel, clean, untraced.mpr (Or.inr (Or.inr inherited))⟩

/-- Once the edits that a session began with are taken out, a variable that is moved stays
registered; and outside of sessions a move takes another variable's edit along. -/
theorem setEditedValue_traced_emptied :
    let emptied : Session ℚ := (start (.withConfig .standard) .log).replay 8
      [.newVariable none 0, .newVariable none 0, .addStay ⟨2⟩ .weak 1, .addEdit ⟨1⟩ .strong,
        .beginEdit, .removeEdit ⟨1⟩]
    let waiting : Session ℚ := (start (.withConfig .standard) .log).replay 8
      [.newVariable none 0, .newVariable none 0, .addStay ⟨2⟩ .weak 1, .addEdit ⟨1⟩ .strong]
    let moved : Session ℚ → Session ℚ := replay 8 [.setEditedValue ⟨2⟩ 7]
    (emptied.Reachable ∧ (perform (.setEditedValue ⟨2⟩ 7) 8 emptied).state?.isSome = true ∧
      (perform (.setEditedValue ⟨2⟩ 7) 8 emptied).fault? = none ∧
      emptied.solver.edits.keys = [] ∧ (moved emptied).solver.edits.keys = [⟨2⟩] ∧
      emptied.solver.constraintCount = 1 ∧ (moved emptied).solver.constraintCount = 2) ∧
    waiting.Reachable ∧ (perform (.setEditedValue ⟨2⟩ 7) 8 waiting).state?.isSome = true ∧
      (perform (.setEditedValue ⟨2⟩ 7) 8 waiting).fault? = none ∧
      waiting.solver.edits.keys = [⟨1⟩] ∧ (moved waiting).solver.edits.keys = [] := by
  intro emptied waiting moved
  refine ⟨⟨(Runs.fresh _ _).replay ⟨trivial, trivial, trivial, trivial, trivial, trivial, trivial⟩,
    by decide +kernel, by decide +kernel, by decide +kernel, by decide +kernel, by decide +kernel,
    by decide +kernel⟩, (Runs.fresh _ _).replay ⟨trivial, trivial, trivial, trivial, trivial⟩,
    by decide +kernel, by decide +kernel, by decide +kernel, by decide +kernel⟩

end Session

end SoftSimplex
