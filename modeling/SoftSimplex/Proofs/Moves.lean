import SoftSimplex.Proofs.Queue
import SoftSimplex.Proofs.Removing

/-!
Every change of a solver as a chain of a few kinds of moves. What each move keeps, every call keeps;
soundness is the first such property.
-/

namespace SoftSimplex

namespace Solver

variable {K : Type} [Zero K] [One K] [Add K] [Sub K] [Neg K] [Mul K] [Div K] [LT K] [DecidableLT K]
  [Scalar K]

/-- Only values, settings and numbers given out have changed. -/
structure Tidies (before after : Solver K) : Prop where
  tableau : after.tableau = before.tableau
  installed : after.installed = before.installed
  charges : after.charges = before.charges
  stays : after.stays = before.stays
  edits : after.edits = before.edits
  nextId : before.nextId ≤ after.nextId
  nextKey : before.nextKey ≤ after.nextKey

omit [Zero K] [One K] [Add K] [Sub K] [Neg K] [Mul K] [Div K] [LT K] [DecidableLT K] [Scalar K] in
theorem Tidies.refl (solver : Solver K) : solver.Tidies solver :=
  ⟨rfl, rfl, rfl, rfl, rfl, Nat.le_refl _, Nat.le_refl _⟩

omit [Zero K] [One K] [Add K] [Sub K] [Neg K] [Mul K] [Div K] [LT K] [DecidableLT K] [Scalar K] in
theorem tidies_depths (solver : Solver K) (depths : List Nat) :
    solver.Tidies { solver with depths } :=
  ⟨rfl, rfl, rfl, rfl, rfl, Nat.le_refl _, Nat.le_refl _⟩

structure Requeues (before after : Tableau K) : Prop where
  rows : after.rows = before.rows
  columns : after.columns = before.columns
  basicExternals : after.basicExternals = before.basicExternals
  parametricExternals : after.parametricExternals = before.parametricExternals
  queued : after.infeasible.keys ⊆ before.infeasible.keys

omit [Zero K] [One K] [Add K] [Sub K] [Neg K] [Mul K] [Div K] [LT K] [DecidableLT K] [Scalar K] in
theorem requeues_dequeued (tableau : Tableau K) : Requeues tableau tableau.dequeued :=
  ⟨rfl, rfl, rfl, rfl, ((List.dropLast_sublist tableau.infeasible.entries).map Prod.fst).subset⟩

omit [Zero K] [One K] [Add K] [Sub K] [Neg K] [Mul K] [Div K] [LT K] [DecidableLT K] [Scalar K] in
theorem requeues_clearInfeasible (tableau : Tableau K) :
    Requeues tableau tableau.clearInfeasible :=
  ⟨rfl, rfl, rfl, rfl, List.nil_subset _⟩

def retargeted (solver : Solver K) (unknown : Variable) (info : EditInfo K) (target : K) :
    Solver K :=
  { solver with
    edits := solver.edits.insert unknown { info with target }
    tableau := solver.tableau.shiftTarget info.plus info.minus (target - info.target) }

/-- One move of a solver; only given constraints come in. -/
inductive Move (given : Constraint K → Prop) : Solver K → Solver K → Prop
  | tidy {before after : Solver K} (tidies : before.Tidies after) : Move given before after
  | requeue {before : Solver K} {tableau : Tableau K} (requeues : Requeues before.tableau tableau) :
      Move given before (before.setTableau tableau)
  | pivot {before : Solver K} {entering leaving : Symbol} {row solved : Expression K}
      {tableau : Tableau K} (leaves : leaving.kind ≠ .objective)
      (pivots : before.tableau.Pivots entering leaving row solved tableau) :
      Move given before (before.setTableau tableau)
  | settle (before : Solver K) : Move given before before.settleStays
  | suggest {before : Solver K} {unknown : Variable} {info : EditInfo K}
      (registered : before.edits.get? unknown = some info) (target : K) :
      Move given before (before.retargeted unknown info target)
  | install {before after : Solver K} {constraint : Constraint K} {placement : Placement K}
      {tableau : Tableau K} {nextId : Nat} (isGiven : given constraint)
      (external : constraint.External) (older : constraint.key < before.nextKey)
      (installs : before.Installs constraint placement tableau nextId after) :
      Move given before after
  | uninstall {before after : Solver K} {constraint : Constraint K} {entry : Installed K}
      {dropped : Tableau K} (sameKind : entry.constraint.kind = constraint.kind)
      (uninstalls : before.Uninstalls constraint entry dropped after) : Move given before after

/-- A chain of moves. -/
def Reaches (given : Constraint K → Prop) : Solver K → Solver K → Prop :=
  Relation.ReflTransGen (Move given)

variable {given : Constraint K → Prop} {before middle after : Solver K}

/-! Soundness -/

section Soundness

omit [Zero K] [One K] [Add K] [Sub K] [Neg K] [Mul K] [Div K] [LT K] [DecidableLT K]
  [Scalar K] in
theorem Requeues.fits {tableau queued : Tableau K} {bound : Nat}
    (requeues : Requeues tableau queued) (fits : tableau.Fits bound) : queued.Fits bound := by
  have rows : ∀ basic, queued.row? basic = tableau.row? basic := by
    intro basic
    rw [Tableau.row?, Tableau.row?, requeues.rows]
  have bases : ∀ basic, queued.isBasic basic = tableau.isBasic basic := by
    intro basic
    rw [Tableau.isBasic, Tableau.isBasic, requeues.rows]
  have columns : ∀ symbol, queued.hasColumn symbol = tableau.hasColumn symbol := by
    intro symbol
    rw [Tableau.hasColumn, Tableau.hasColumn, requeues.columns]
  refine ⟨⟨?_, ?_, ?_, ?_, ?_⟩, (bases _).trans fits.objective, ?_⟩
  · intro symbol basic
    have agrees := fits.indexed.agrees symbol basic
    unfold Tableau.Occurs Tableau.column at agrees ⊢
    rw [rows, requeues.columns]
    exact agrees
  · intro basic isBasic
    rw [bases] at isBasic
    rw [columns]
    exact fits.indexed.parametric basic isBasic
  · intro symbol free
    unfold Tableau.ListsBasic
    rw [bases, requeues.basicExternals]
    exact fits.indexed.listsBasic symbol free
  · intro symbol
    unfold Tableau.ListsParametric
    rw [columns, requeues.parametricExternals]
    exact fits.indexed.listsParametric symbol
  · intro symbol member
    rw [bases]
    exact fits.indexed.queued symbol (requeues.queued member)
  · intro symbol present
    rw [bases, columns] at present
    exact fits.within symbol present

omit [Sub K] [Neg K] [Div K] [LT K] [DecidableLT K] in
theorem Tidies.sound (tidies : before.Tidies after) (sound : before.Sound) : after.Sound := by
  refine ⟨?_, ?_⟩
  · rw [tidies.tableau]
    exact sound.fits.mono tidies.nextId
  · have same : after.ledger =
        { before.ledger with nextId := after.nextId, nextKey := after.nextKey } := by
      unfold ledger
      rw [tidies.installed, tidies.charges, tidies.stays, tidies.edits]
    rw [same]
    exact sound.books.advance tidies.nextId tidies.nextKey

omit [Sub K] [Neg K] [Div K] [LT K] [DecidableLT K] in
theorem edit_symbols (sound : before.Sound) {unknown : Variable} {info : EditInfo K}
    (registered : before.edits.get? unknown = some info) :
    ∃ entry, before.installed.get? info.constraint.key = some entry ∧
      entry.constraint.kind = .edit unknown ∧ entry.constraint.isRequired = false ∧
      info.plus = entry.marker ∧ info.minus = entry.error ∧ entry.marker.kind = .slack := by
  obtain ⟨_, entry, found, kind, soft, samePair⟩ := sound.books.edits unknown info registered
  have enters := sound.books.entries _ entry found
  refine ⟨entry, found, kind, soft, congrArg Prod.fst samePair, congrArg Prod.snd samePair, ?_⟩
  rw [enters.marker_of_soft soft]

omit [Sub K] [Neg K] [Div K] [LT K] [DecidableLT K] in
theorem stayRow_symbol (sound : before.Sound) {pair : Symbol × Symbol}
    (isStay : pair ∈ before.stays) :
    ∃ key unknown entry, before.installed.get? key = some entry ∧
      entry.constraint.kind = .stay unknown ∧ entry.constraint.isRequired = false ∧
      (before.tableau.stayRow pair = entry.marker ∨ before.tableau.stayRow pair = entry.error) := by
  obtain ⟨key, unknown, entry, found, kind, soft, rfl⟩ := sound.books.stays pair isStay
  refine ⟨key, unknown, entry, found, kind, soft, ?_⟩
  unfold Tableau.stayRow
  split
  · exact Or.inl rfl
  · exact Or.inr rfl

omit [Sub K] [Neg K] [Div K] [LT K] [DecidableLT K] in
theorem stayRow_slack (sound : before.Sound) {pair : Symbol × Symbol}
    (isStay : pair ∈ before.stays) :
    (before.tableau.stayRow pair).kind = .slack := by
  obtain ⟨key, _, entry, found, _, soft, same | same⟩ := stayRow_symbol sound isStay
  · rw [same, (sound.books.entries key entry found).marker_of_soft soft]
  · rw [same]
    rfl

omit [Div K] in
theorem retargets_retargeted (sound : before.Sound) {unknown : Variable} {info : EditInfo K}
    (registered : before.edits.get? unknown = some info) (target : K) :
    info.plus.kind = .slack ∧ info.minus.kind = .slack ∧
      before.tableau.Retargets info.plus info.minus (target - info.target)
        (before.retargeted unknown info target).tableau := by
  obtain ⟨entry, _, _, _, samePlus, sameMinus, kind⟩ := edit_symbols sound registered
  have plusSlack : info.plus.kind = .slack := samePlus ▸ kind
  have minusSlack : info.minus.kind = .slack := sameMinus ▸ rfl
  refine ⟨plusSlack, minusSlack, Tableau.retargets_shiftTarget _ _ ?_ ?_ _⟩
  · rw [Symbol.isRestricted, plusSlack]
    rfl
  · rw [Symbol.isRestricted, minusSlack]
    rfl

omit [Div K] in
theorem retargeted_sound (sound : before.Sound) {unknown : Variable} {info : EditInfo K}
    (registered : before.edits.get? unknown = some info) (target : K) :
    (before.retargeted unknown info target).Sound := by
  obtain ⟨_, _, retargets⟩ := retargets_retargeted sound registered target
  have books := sound.books
  refine ⟨retargets.fits sound.fits, ⟨?_, books.apart, books.uncharged, books.stays, ?_⟩⟩
  · intro key entry found
    have enters := books.entries key entry found
    exact ⟨enters.sameKey, enters.older, enters.external, enters.marker, enters.bound,
      enters.charge⟩
  · intro other changed lookup
    change (before.edits.insert unknown { info with target }).get? other = some changed at lookup
    rw [Table.get?_insert] at lookup
    split at lookup
    · rename_i same
      subst same
      cases lookup
      exact books.edits unknown info registered
    · exact books.edits other changed lookup

omit [Sub K] [Neg K] [Div K] [LT K] [DecidableLT K] in
theorem Sound.settleStays (sound : before.Sound) : before.settleStays.Sound :=
  ⟨sound.fits.settleStays before.stays, sound.books⟩

omit [Sub K] [Neg K] [Div K] [LT K] [DecidableLT K] in
theorem Sound.clearInfeasible (sound : before.Sound) :
    (before.setTableau before.tableau.clearInfeasible).Sound :=
  ⟨(requeues_clearInfeasible before.tableau).fits sound.fits, sound.books⟩

theorem Move.sound (move : Move given before after) (sound : before.Sound) : after.Sound := by
  cases move with
  | tidy tidies => exact tidies.sound sound
  | requeue requeues => exact ⟨requeues.fits sound.fits, sound.books⟩
  | pivot leaves pivots =>
    refine ⟨sound.fits.pivot pivots ?_, sound.books⟩
    rintro rfl
    exact leaves rfl
  | settle => exact sound.settleStays
  | suggest registered target => exact retargeted_sound sound registered target
  | install _ external older installs => exact installs.sound sound external older
  | uninstall sameKind uninstalls => exact uninstalls.sound sound sameKind

/-- The induction over a chain: what every move from a sound solver keeps holds at its end. -/
theorem Reaches.keeps (holds : Solver K → Prop) (reaches : Reaches given before after)
    (kept : ∀ earlier later, Move given earlier later → earlier.Sound → holds earlier → holds later)
    (sound : before.Sound) (start : holds before) : after.Sound ∧ holds after := by
  induction reaches with
  | refl => exact ⟨sound, start⟩
  | tail _ move ih => exact ⟨move.sound ih.1, kept _ _ move ih.1 ih.2⟩

theorem Reaches.sound (reaches : Reaches given before after) (sound : before.Sound) :
    after.Sound :=
  (reaches.keeps (fun _ => True) (fun _ _ _ _ _ => trivial) sound trivial).1

end Soundness

/-! What is known of a constraint -/

section Agreement

/-- A constraint of the solver's user: on variables, older than the next one, and of the kind under
which its key is installed, if it is. -/
structure Agrees (solver : Solver K) (constraint : Constraint K) : Prop where
  external : constraint.External
  older : constraint.key < solver.nextKey
  sameKind : ∀ entry, solver.installed.get? constraint.key = some entry →
    entry.constraint.kind = constraint.kind

theorem Move.nextKey_le (move : Move given before after) : before.nextKey ≤ after.nextKey := by
  cases move with
  | tidy tidies => exact tidies.nextKey
  | install _ _ _ installs =>
    have same : after.nextKey = before.nextKey := by rw [installs.result, (ids_record _ _ _).2]
    exact Nat.le_of_eq same.symm
  | uninstall _ uninstalls =>
    have same : after.nextKey = before.nextKey :=
      (congrArg Ledger.nextKey uninstalls.ledger_after).trans Ledger.ids_cleared.2
    exact Nat.le_of_eq same.symm
  | _ => exact Nat.le_refl _

theorem Reaches.nextKey_le (reaches : Reaches given before after) :
    before.nextKey ≤ after.nextKey := by
  induction reaches with
  | refl => exact Nat.le_refl _
  | tail _ move ih => exact Nat.le_trans ih move.nextKey_le

theorem Move.installed_cases (move : Move given before after) {key : Nat} {entry : Installed K}
    (found : after.installed.get? key = some entry) :
    before.installed.get? key = some entry ∨
      given entry.constraint ∧ entry.constraint.key = key := by
  cases move with
  | tidy tidies =>
    rw [tidies.installed] at found
    exact Or.inl found
  | install isGiven _ _ installs =>
    rw [installs.result, get?_installed_record] at found
    split at found
    · rename_i same
      cases found
      exact Or.inr ⟨isGiven, same⟩
    · exact Or.inl found
  | uninstall _ uninstalls =>
    exact Or.inl (uninstalls.get?_installed_iff.mp found).2
  | _ => exact Or.inl found

theorem Reaches.agrees (reaches : Reaches given before after) {constraint : Constraint K}
    (agrees : before.Agrees constraint)
    (others : ∀ other, given other → other.key = constraint.key → other.kind = constraint.kind) :
    after.Agrees constraint := by
  induction reaches with
  | refl => exact agrees
  | tail _ move ih =>
    refine ⟨ih.external, Nat.lt_of_lt_of_le ih.older move.nextKey_le, ?_⟩
    intro entry found
    rcases move.installed_cases found with old | ⟨isGiven, sameKey⟩
    · exact ih.sameKind entry old
    · exact others entry.constraint isGiven sameKey

theorem Move.weaken {more : Constraint K → Prop} (move : Move given before after)
    (weaker : ∀ constraint, given constraint → more constraint) : Move more before after := by
  cases move with
  | tidy tidies => exact .tidy tidies
  | requeue requeues => exact .requeue requeues
  | pivot leaves pivots => exact .pivot leaves pivots
  | settle => exact .settle _
  | suggest registered target => exact .suggest registered target
  | install isGiven external older installs =>
    exact .install (weaker _ isGiven) external older installs
  | uninstall sameKind uninstalls => exact .uninstall sameKind uninstalls

theorem Reaches.weaken {more : Constraint K → Prop} (reaches : Reaches given before after)
    (weaker : ∀ constraint, given constraint → more constraint) : Reaches more before after := by
  induction reaches with
  | refl => exact .refl
  | tail _ move ih => exact ih.tail (move.weaken weaker)

end Agreement

end Solver

end SoftSimplex
