import SoftSimplex.Proofs.Frames
import SoftSimplex.Proofs.Parallel
import SoftSimplex.Proofs.Renaming

/-!
The strength of a constraint matters only while it comes in. Solvers that differ in the strengths of
some constraints on record, and in nothing else, keep to that difference: whatever they do, they
return, publish and fail alike, and report alike but for those strengths.
-/

namespace SoftSimplex

variable {K α β : Type}

/-! Strengths out of sight -/

section Masking

variable (keys : List Nat)

/-- The constraint, without its strength if it is under one of the keys. -/
def Constraint.masked (constraint : Constraint K) : Constraint K :=
  if constraint.key ∈ keys then constraint.withStrength .weak else constraint

def Installed.masked (entry : Installed K) : Installed K :=
  { entry with constraint := entry.constraint.masked keys }

def EditInfo.masked (info : EditInfo K) : EditInfo K :=
  { info with constraint := info.constraint.masked keys }

def Event.masked : Event K → Event K
  | adding constraint => adding (constraint.masked keys)
  | contradicted constraint => contradicted (constraint.masked keys)
  | refused constraint fault => refused (constraint.masked keys) fault
  | removing constraint => removing (constraint.masked keys)
  | other => other

variable {keys}

@[simp]
theorem Constraint.key_masked (constraint : Constraint K) :
    (constraint.masked keys).key = constraint.key := by
  unfold masked
  split <;> rfl

theorem Constraint.withStrength_masked (constraint : Constraint K) (strength : Strength) :
    (constraint.masked keys).withStrength strength = constraint.withStrength strength := by
  unfold masked
  split <;> rfl

theorem Constraint.withStrength_eq_of_masked {constraint other : Constraint K}
    (same : constraint.masked keys = other.masked keys) (strength : Strength) :
    constraint.withStrength strength = other.withStrength strength := by
  have changed := congrArg (·.withStrength strength) same
  simpa only [withStrength_masked] using changed

theorem Constraint.eq_withStrength_of_masked {constraint other : Constraint K}
    (same : constraint.masked keys = other.masked keys) :
    other = constraint.withStrength other.strength :=
  (withStrength_eq_of_masked same other.strength).symm

theorem Constraint.masked_of_not_mem {constraint : Constraint K} (untouched : constraint.key ∉ keys) :
    constraint.masked keys = constraint := if_neg untouched

theorem Constraint.masked_withStrength {constraint : Constraint K} (covered : constraint.key ∈ keys)
    (strength : Strength) :
      (constraint.withStrength strength).masked keys = constraint.masked keys := by
  unfold masked
  rw [if_pos covered, if_pos (show (constraint.withStrength strength).key ∈ keys from covered)]
  rfl

theorem Constraint.masked_masked {more : List Nat} (wider : keys ⊆ more) (constraint : Constraint K) :
    (constraint.masked keys).masked more = constraint.masked more := by
  by_cases covered : constraint.key ∈ keys
  · have more := wider covered
    simp only [masked, covered, if_true, withStrength, more]
  · rw [masked_of_not_mem covered]

theorem Event.diagnostic?_masked (event : Event K) :
    (event.masked keys).diagnostic? = event.diagnostic? := by
  cases event <;> rfl

end Masking

def Event.Alike (keys : List Nat) (event echo : Event K) : Prop := event.masked keys = echo.masked keys

namespace Solver

/-- Solvers that differ in the strengths under the keys at most, wherever these are on record. -/
def Alike (keys : List Nat) (left right : Solver K) : Prop :=
  ∃ installed edits, right = { left with installed, edits } ∧
    installed.mapValues (Installed.masked keys) = left.installed.mapValues (Installed.masked keys) ∧
    edits.mapValues (EditInfo.masked keys) = left.edits.mapValues (EditInfo.masked keys)

variable {keys more : List Nat} {left middle right : Solver K}

theorem Alike.refl (keys : List Nat) (solver : Solver K) : solver.Alike keys solver :=
  ⟨_, _, rfl, rfl, rfl⟩

theorem Alike.trans (first : left.Alike keys middle) (second : middle.Alike keys right) :
    left.Alike keys right := by
  obtain ⟨_, _, rfl, installed, edits⟩ := first
  obtain ⟨_, _, rfl, laterInstalled, laterEdits⟩ := second
  exact ⟨_, _, rfl, laterInstalled.trans installed, laterEdits.trans edits⟩

theorem Alike.mono (alike : left.Alike keys right) (wider : keys ⊆ more) : left.Alike more right := by
  have entries : Installed.masked more ∘ Installed.masked keys =
      (Installed.masked more : Installed K → _) :=
    funext fun entry => by simp [Installed.masked, Constraint.masked_masked wider]
  have infos : EditInfo.masked more ∘ EditInfo.masked keys =
      (EditInfo.masked more : EditInfo K → _) :=
    funext fun info => by simp [EditInfo.masked, Constraint.masked_masked wider]
  obtain ⟨_, _, rfl, installed, edits⟩ := alike
  refine ⟨_, _, rfl, ?_, ?_⟩
  · have covered := congrArg (Table.mapValues (Installed.masked more)) installed
    rwa [Table.mapValues_mapValues, Table.mapValues_mapValues, entries] at covered
  · have covered := congrArg (Table.mapValues (EditInfo.masked more)) edits
    rwa [Table.mapValues_mapValues, Table.mapValues_mapValues, infos] at covered

/-! What is read from both sides -/

section Reading

variable (alike : left.Alike keys right)

include alike

theorem Alike.installed_cases (key : Nat) :
    left.installed.get? key = none ∧ right.installed.get? key = none ∨
      ∃ entry echo, left.installed.get? key = some entry ∧ right.installed.get? key = some echo ∧
        echo.masked keys = entry.masked keys := by
  obtain ⟨installed, _, rfl, same, _⟩ := alike
  have found := congrArg (Table.get? · key) same
  simp only [Table.get?_mapValues] at found
  dsimp only
  cases here : left.installed.get? key <;> cases there : installed.get? key <;>
    simp_all

theorem Alike.edits_cases (unknown : Variable) :
    left.edits.get? unknown = none ∧ right.edits.get? unknown = none ∨
      ∃ info echo, left.edits.get? unknown = some info ∧ right.edits.get? unknown = some echo ∧
        echo.masked keys = info.masked keys := by
  obtain ⟨_, edits, rfl, _, same⟩ := alike
  have found := congrArg (Table.get? · unknown) same
  simp only [Table.get?_mapValues] at found
  dsimp only
  cases here : left.edits.get? unknown <;> cases there : edits.get? unknown <;>
    simp_all

theorem Alike.hasConstraint (constraint : Constraint K) :
    right.hasConstraint constraint = left.hasConstraint constraint := by
  obtain ⟨_, _, rfl, installed, _⟩ := alike
  unfold Solver.hasConstraint
  rw [← Table.contains_mapValues, installed, Table.contains_mapValues]

theorem Alike.objection? (constraint : Constraint K) :
    right.objection? constraint = left.objection? constraint := by
  have registered : ∀ unknown, right.edits.contains unknown = left.edits.contains unknown := by
    obtain ⟨_, _, rfl, _, edits⟩ := alike
    intro unknown
    dsimp only
    rw [← Table.contains_mapValues, edits, Table.contains_mapValues]
  unfold Solver.objection?
  simp only [alike.hasConstraint, registered]

theorem Alike.outlook : left.outlook = right.outlook := by
  obtain ⟨_, edits, rfl, _, same⟩ := alike
  have positions : ∀ table : Table Variable (EditInfo K),
      table.entries.map (fun entry => (entry.1, entry.2.index)) =
        (table.mapValues (EditInfo.masked keys)).entries.map fun entry => (entry.1, entry.2.index) := by
    intro table
    unfold Table.mapValues
    rw [List.map_map]
    rfl
  unfold Solver.outlook
  rw [positions left.edits, positions edits, same]

end Reading

/-! Records -/

section Records

theorem Alike.record (alike : left.Alike keys right) (constraint : Constraint K)
    (equation : Equation K) :
    (left.record constraint equation).Alike keys (right.record constraint equation) := by
  have counted := editCount_of_outlook alike.outlook
  obtain ⟨installed, edits, rfl, sameInstalled, sameEdits⟩ := alike
  unfold Solver.editCount at counted
  unfold Solver.record
  dsimp only at counted ⊢
  rw [← counted]
  split
  · exact ⟨_, _, rfl, by simp only [Table.mapValues_insert, sameInstalled], sameEdits⟩
  · exact ⟨_, _, rfl, by simp only [Table.mapValues_insert, sameInstalled],
      by simp only [Table.mapValues_insert, sameEdits]⟩
  · exact ⟨_, _, rfl, by simp only [Table.mapValues_insert, sameInstalled], sameEdits⟩

theorem Alike.dropEdit (alike : left.Alike keys right) (constraint : Constraint K)
    (unknown : Variable) :
    (left.dropEdit constraint unknown).Alike keys (right.dropEdit constraint unknown) := by
  unfold Solver.dropEdit
  rcases alike.edits_cases unknown with ⟨here, there⟩ | ⟨info, echo, here, there, same⟩
  · rw [here, there]
    exact alike
  · rw [here, there]
    have key : echo.constraint.key = info.constraint.key := by
      simpa [EditInfo.masked] using congrArg (·.constraint.key) same
    have owned : (echo.constraint == constraint) = (info.constraint == constraint) :=
      congrArg (· == constraint.key) key
    have minus : echo.minus = info.minus := (congrArg EditInfo.minus same :)
    dsimp only
    rw [owned, minus]
    split
    · obtain ⟨installed, edits, rfl, sameInstalled, sameEdits⟩ := alike
      exact ⟨_, _, rfl, sameInstalled, by simp only [Table.mapValues_erase, sameEdits]⟩
    · exact alike

theorem Alike.clearAway (alike : left.Alike keys right) (constraint : Constraint K)
    (marker : Symbol) (charge : Option (Charge K)) :
    (left.clearAway constraint marker charge).Alike keys
      (right.clearAway constraint marker charge) := by
  have dropped : ∀ cost, (left.dropErrors marker cost).Alike keys (right.dropErrors marker cost) := by
    intro cost
    obtain ⟨installed, edits, rfl, same⟩ := alike
    exact ⟨installed, edits, rfl, same⟩
  unfold Solver.clearAway
  cases charge with
  | none =>
    cases constraint.kind with
    | edit unknown => exact alike.dropEdit constraint unknown
    | _ => exact alike
  | some cost =>
    cases constraint.kind with
    | edit unknown => exact (dropped cost).dropEdit constraint unknown
    | stay unknown =>
      obtain ⟨installed, edits, rfl, same⟩ := alike
      exact ⟨installed, edits, rfl, same⟩
    | _ => exact dropped cost

end Records

/-! Computations -/

/-- Solvers alike are alike after the computation, and so is all that it reports; it returns the
same or fails by the same fault. -/
def PreservesAlike (keys : List Nat) (action : Action K (Solver K) α) : Prop :=
  ∀ limit left right, left.Alike keys right →
    (action limit left).Parallel (Alike keys) (Event.Alike keys) (action limit right)

open SoftSimplex.Action

section Combining

theorem preserves_pure (value : α) :
    PreservesAlike keys (Pure.pure value : Action K (Solver K) α) :=
  fun _ _ _ alike => parallel_pure alike value

theorem preserves_fail (fault : Fault) : PreservesAlike keys (fail fault : Action K (Solver K) α) :=
  fun _ _ _ alike => parallel_fail alike fault

theorem preserves_report (events : List (Event K)) : PreservesAlike keys (report events) :=
  fun _ _ _ alike => parallel_report alike (List.forall₂_same.mpr fun _ _ => rfl)

theorem preserves_bind {first : Action K (Solver K) α} {next : α → Action K (Solver K) β}
    (preserved : PreservesAlike keys first) (continued : ∀ value, PreservesAlike keys (next value)) :
    PreservesAlike keys (first >>= next) := fun limit left right alike =>
  parallel_bind (preserved limit left right alike) fun value => continued value limit

theorem preserves_attempt {action : Action K (Solver K) α} (preserved : PreservesAlike keys action) :
    PreservesAlike keys action.attempt := fun limit left right alike =>
  parallel_attempt (preserved limit left right alike)

theorem preserves_get {next : Solver K → Action K (Solver K) α}
    (agree : ∀ left right, left.Alike keys right → next right = next left)
    (continued : ∀ solver, PreservesAlike keys (next solver)) :
    PreservesAlike keys (Action.get >>= next) :=
  fun limit left right alike => parallel_get (by
    rw [agree left right alike]
    exact continued left limit left right alike)

theorem compositional_preservesAlike (keys : List Nat) :
    Compositional outlook fun α => PreservesAlike (K := K) (α := α) keys where
  pure := preserves_pure
  fail fault _ := preserves_fail fault
  read enough := preserves_get fun left right alike => (enough left right alike.outlook).symm
  bind := preserves_bind
  mapFault change _ preserved := fun limit left right alike =>
    parallel_mapFault change (preserved limit left right alike)

theorem preserves_modify {change : Solver K → Solver K}
    (kept : ∀ left right, left.Alike keys right → (change left).Alike keys (change right)) :
    PreservesAlike keys (modify change) :=
  fun _ left right alike => parallel_modify (kept left right alike)

theorem preserves_read {next : Solver K → Action K (Solver K) α}
    (unseen : ∀ solver installed edits, next { solver with installed, edits } = next solver)
    (continued : ∀ solver, PreservesAlike keys (next solver)) :
    PreservesAlike keys (Action.get >>= next) :=
  preserves_get (by
    rintro left _ ⟨installed, edits, rfl, _⟩
    exact unseen left installed edits) continued

theorem preserves_write {change : Solver K → Solver K}
    (apart : ∀ solver installed edits,
      change { solver with installed, edits } = { change solver with installed, edits })
    (kept : ∀ solver, (change solver).installed = solver.installed ∧
      (change solver).edits = solver.edits) : PreservesAlike keys (modify change) := by
  refine preserves_modify ?_
  rintro left _ ⟨installed, edits, rfl, same⟩
  refine ⟨installed, edits, apart left installed edits, ?_⟩
  rw [(kept left).1, (kept left).2]
  exact same

theorem preserves_onTableau (action : Action K (Tableau K) α) :
    PreservesAlike keys (onTableau action) := by
  rintro limit left _ ⟨installed, edits, rfl, same⟩
  exact parallel_within action (fun _ => rfl) rfl fun _ => ⟨installed, edits, rfl, same⟩

theorem preserves_freshSymbol (kind : SymbolKind) :
    PreservesAlike keys (freshSymbol kind : Action K (Solver K) Symbol) := by
  rintro limit left _ ⟨installed, edits, rfl, same⟩
  exact .done ⟨installed, edits, rfl, same⟩ .nil

theorem preserves_freshConstraint (demand : Demand K) :
    PreservesAlike keys (freshConstraint demand) := by
  rintro limit left _ ⟨installed, edits, rfl, same⟩
  exact .done ⟨installed, edits, rfl, same⟩ .nil

end Combining

/-! Publishing -/

section Numbers

variable [Zero K]

theorem publishValues_with (solver : Solver K) (installed : Table Nat (Installed K))
    (edits : Table Variable (EditInfo K)) :
    ({ solver with installed, edits } : Solver K).publishValues =
      { solver.publishValues with installed, edits } := by
  let renewed : Solver K → Solver K := fun current => { current with installed, edits }
  have zeroed : ∀ (unknowns : List Variable) (start : Solver K),
      unknowns.foldl (fun current unknown => current.setValue unknown 0) (renewed start) =
        renewed (unknowns.foldl (fun current unknown => current.setValue unknown 0) start) :=
    fun _ _ => List.foldl_hom renewed fun _ _ => rfl
  have solved : ∀ (values : List (Variable × K)) (start : Solver K),
      values.foldl (fun current entry => current.setValue entry.1 entry.2) (renewed start) =
        renewed (values.foldl (fun current entry => current.setValue entry.1 entry.2) start) :=
    fun _ _ => List.foldl_hom renewed fun _ _ => rfl
  exact congrArg (fun current : Solver K => { current with needsSolving := false })
    ((congrArg (List.foldl _ · _) (zeroed _ solver)).trans (solved _ _))

theorem Alike.publishValues (alike : left.Alike keys right) :
    left.publishValues.Alike keys right.publishValues := by
  obtain ⟨installed, edits, rfl, sameInstalled, sameEdits⟩ := alike
  have records := left.records_publishValues
  have keptInstalled : left.publishValues.installed = left.installed :=
    congrArg Records.installed records
  have keptEdits : left.publishValues.edits = left.edits := congrArg Records.edits records
  exact ⟨installed, edits, left.publishValues_with installed edits, keptInstalled ▸ sameInstalled,
    keptEdits ▸ sameEdits⟩

theorem preserves_publish : PreservesAlike keys (publish : Action K (Solver K) Unit) :=
  preserves_read (fun _ _ _ => rfl) fun _ => preserves_bind (preserves_report _) fun _ =>
    preserves_modify fun _ _ alike => alike.publishValues

theorem Alike.withdraw [Add K] [Neg K] [Mul K] [Scalar K] (alike : left.Alike keys right)
    (constraint : Constraint K) :
    (left.withdraw constraint).Alike keys (right.withdraw constraint) := by
  obtain ⟨installed, edits, rfl, sameInstalled, sameEdits⟩ := alike
  exact ⟨_, _, rfl, by simp only [Solver.withdraw, Table.mapValues_erase, sameInstalled], sameEdits⟩

variable [One K] [Add K] [Neg K] [Mul K] [Div K] [LT K] [DecidableLT K] [Scalar K]
  {constraint other : Constraint K}

theorem preserves_optimize : PreservesAlike keys (optimize : Action K (Solver K) Unit) :=
  preserves_bind (preserves_onTableau _) fun _ => preserves_publish

theorem preserves_autoOptimize : PreservesAlike keys (autoOptimize : Action K (Solver K) Unit) := by
  refine preserves_read (fun _ _ _ => rfl) fun solver => ?_
  split
  · exact preserves_optimize
  · exact preserves_pure ()

/-! Additions -/

theorem preserves_place (equation : Equation K) (placement : Placement K) :
    PreservesAlike keys (place equation placement) := by
  refine preserves_read (fun _ _ _ => rfl) fun solver =>
    preserves_bind (preserves_write (fun _ _ _ => rfl) fun _ => ⟨rfl, rfl⟩) fun _ => ?_
  split
  · exact preserves_attempt (preserves_onTableau _)
  · refine preserves_bind (preserves_freshSymbol _) fun _ => ?_
    refine preserves_bind (preserves_freshSymbol _) fun _ => ?_
    refine preserves_bind (preserves_attempt (preserves_onTableau _)) fun ended => ?_
    split
    · exact preserves_pure _
    · have restores : ∀ tableau : Tableau K, PreservesAlike keys (modify (·.setTableau tableau)) :=
        fun _ => preserves_write (fun _ _ _ => rfl) fun _ => ⟨rfl, rfl⟩
      exact preserves_bind (restores _) fun _ => preserves_pure _

theorem preserves_add (constraint : Constraint K) : PreservesAlike keys (add constraint) := by
  refine preserves_get ?_ fun solver => ?_
  · intro left right alike
    have objects := alike.objection? constraint
    obtain ⟨installed, edits, rfl, same⟩ := alike
    simp only [objects]
  split
  · exact preserves_fail _
  · refine preserves_bind (preserves_report _) fun _ =>
      preserves_bind (preserves_write (fun _ _ _ => rfl) fun _ => ⟨rfl, rfl⟩) fun _ => ?_
    split
    · exact preserves_bind (preserves_report _) fun _ => preserves_fail _
    · refine preserves_bind (preserves_place _ _) fun ended => ?_
      split
      · exact preserves_bind (preserves_report _) fun _ => preserves_fail _
      · exact preserves_bind (preserves_modify fun _ _ alike => alike.record constraint _) fun _ =>
          preserves_autoOptimize

theorem add_of_installed {limit : Nat} (present : left.hasConstraint constraint = true) :
    add constraint limit left = .failed .duplicateConstraint left [] := by
  unfold add
  rw [Action.get_bind, objection?, if_pos present]
  rfl

/-! Removals -/

theorem parallel_remove {limit : Nat} (same : constraint.masked keys = other.masked keys)
    (alike : left.Alike keys right) :
    (remove constraint limit left).Parallel (Alike keys) (Event.Alike keys)
      (remove other limit right) := by
  obtain ⟨strength, rfl⟩ : ∃ strength, other = constraint.withStrength strength :=
    ⟨_, Constraint.eq_withStrength_of_masked same⟩
  have charges : right.charges.get? constraint.key = left.charges.get? constraint.key := by
    obtain ⟨installed, edits, rfl, _⟩ := alike
    rfl
  have sameKey : (constraint.withStrength strength).key = constraint.key := rfl
  refine parallel_get ?_
  rcases alike.installed_cases constraint.key with ⟨here, there⟩ | ⟨entry, echo, here, there, covered⟩
  · simp only [sameKey, here, there]
    exact parallel_fail alike _
  · have marker : echo.marker = entry.marker := (congrArg Installed.marker covered :)
    simp only [sameKey, charges, here, there, marker]
    have withdraws : PreservesAlike keys (modify fun solver : Solver K => solver.withdraw constraint) :=
      preserves_modify fun _ _ alike => alike.withdraw constraint
    have clears : ∀ charge, PreservesAlike keys (modify fun solver : Solver K =>
        solver.clearAway constraint entry.marker charge) :=
      fun charge => preserves_modify fun _ _ alike => alike.clearAway constraint entry.marker charge
    refine parallel_bind (parallel_report alike (.cons (congrArg Event.removing same) .nil))
      fun _ told echoed alike => preserves_bind withdraws (fun _ => ?_) limit told echoed alike
    refine preserves_bind (preserves_onTableau _) fun _ => ?_
    exact preserves_bind (clears _) fun _ => preserves_autoOptimize

theorem preserves_removeEdit (unknown : Variable) :
    PreservesAlike keys (removeEdit unknown : Action K (Solver K) Unit) := by
  refine fun limit left right alike => parallel_get ?_
  rcases alike.edits_cases unknown with ⟨here, there⟩ | ⟨info, echo, here, there, same⟩
  · simp only [here, there]
    exact parallel_fail alike _
  · simp only [here, there]
    exact parallel_remove (congrArg EditInfo.constraint same :).symm alike

/-! The edit protocol -/

omit [One K] [Add K] [Neg K] [Mul K] [Div K] [LT K] [DecidableLT K] [Scalar K] in
theorem Alike.opened (alike : left.Alike keys right) : left.opened.Alike keys right.opened := by
  have counted := editCount_of_outlook alike.outlook
  obtain ⟨installed, edits, rfl, same⟩ := alike
  refine ⟨installed, edits, ?_, same⟩
  unfold Solver.opened
  rw [counted]
  rfl

omit [One K] [Add K] [Neg K] [Mul K] [Div K] [LT K] [DecidableLT K] [Scalar K] in
theorem preserves_beginEdit : PreservesAlike keys (beginEdit : Action K (Solver K) Unit) := by
  refine (compositional_preservesAlike keys).closed (beginEditScript ?_ ?_)
  · exact fun _ => .part (preserves_report _)
  · exact .part (preserves_modify fun _ _ alike => alike.opened)

theorem preserves_trimEdits (count : Nat) :
    PreservesAlike keys (trimEdits count : Action K (Solver K) Unit) := by
  refine (compositional_preservesAlike (K := K) keys).closed (trimEditsScript ?_ ?_)
  · exact fun unknown => .part (preserves_removeEdit unknown)
  · exact fun _ => .part (preserves_report _)

variable [LE K] [DecidableLE K]

theorem preserves_resolve : PreservesAlike keys (resolve : Action K (Solver K) Unit) := by
  have settles : PreservesAlike keys (modify fun solver : Solver K =>
      (solver.setTableau solver.tableau.clearInfeasible).settleStays) :=
    preserves_write (fun _ _ _ => rfl) fun _ => ⟨rfl, rfl⟩
  refine preserves_bind (preserves_onTableau _) fun _ => ?_
  exact preserves_bind preserves_publish fun _ => settles

theorem preserves_endEdit : PreservesAlike keys (endEdit : Action K (Solver K) Unit) := by
  have closes : PreservesAlike keys (modify closed : Action K (Solver K) Unit) :=
    preserves_write (fun _ _ _ => rfl) fun _ => ⟨rfl, rfl⟩
  refine (compositional_preservesAlike keys).closed
    (endEditScript (.part preserves_resolve) (.part closes) ?_ ?_)
  · exact fun _ => .part (preserves_report _)
  · exact fun count => .part (preserves_trimEdits count)

variable [Sub K]

omit [One K] [Div K] [Scalar K] [LE K] [DecidableLE K] in
theorem preserves_suggest (unknown : Variable) (target : K) :
    PreservesAlike keys (suggest unknown target) := by
  refine fun limit left right alike => parallel_get ?_
  rcases alike.edits_cases unknown with ⟨here, there⟩ | ⟨info, echo, here, there, same⟩
  · simp only [here, there]
    exact (preserves_bind (preserves_report _) fun _ => preserves_fail _) limit left right alike
  · have plus : echo.plus = info.plus := (congrArg EditInfo.plus same :)
    have minus : echo.minus = info.minus := (congrArg EditInfo.minus same :)
    have aimed : echo.target = info.target := (congrArg EditInfo.target same :)
    have retargeted : ({ echo with target } : EditInfo K).masked keys =
        ({ info with target } : EditInfo K).masked keys :=
      (congrArg (fun covered : EditInfo K => { covered with target }) same :)
    simp only [plus, minus] at retargeted
    simp only [here, there, plus, minus, aimed]
    refine parallel_modify ?_
    obtain ⟨installed, edits, rfl, sameInstalled, sameEdits⟩ := alike
    refine ⟨_, _, rfl, sameInstalled, ?_⟩
    simp only [Table.mapValues_insert, sameEdits]
    exact congrArg _ retargeted

/-! Calls -/

theorem preserves_of_basic {action : Action K (Solver K) α} (isBasic : Basic α action) :
    PreservesAlike keys action := by
  cases isBasic with
  | reserve demand => exact preserves_freshConstraint demand
  | add constraint => exact preserves_add constraint
  | tryAdd constraint =>
    exact holds_tryAdd (compositional_preservesAlike keys) preserves_fail
      (preserves_attempt (preserves_add constraint))
  | remove constraint => exact fun _ _ _ alike => parallel_remove rfl alike
  | removeEdit unknown => exact preserves_removeEdit unknown
  | suggest unknown target => exact preserves_suggest unknown target
  | optimize => exact preserves_optimize
  | resolve => exact preserves_resolve
  | beginEdit => exact preserves_beginEdit
  | endEdit => exact preserves_endEdit
  | warn warning => exact preserves_report _
  | assign unknown value => exact preserves_write (fun _ _ _ => rfl) fun _ => ⟨rfl, rfl⟩
  | configure autoSolve => exact preserves_write (fun _ _ _ => rfl) fun _ => ⟨rfl, rfl⟩

theorem preserves_of_script {action : Action K (Solver K) α} (script : Script outlook Basic action) :
    PreservesAlike keys action :=
  script.holds_of_parts (compositional_preservesAlike keys) preserves_of_basic

end Numbers

end Solver

end SoftSimplex
