import SoftSimplex.Proofs.Books

/-!
The registrations of the edit protocol. An edit that comes in is registered last; edits that are
taken out take their constraints along, and leave the others at their positions; and the end of a
session takes out those at and beyond the position at which the session around it began.
-/

namespace SoftSimplex

variable {K : Type}

namespace Solver

variable {before middle after : Solver K} {unknown : Variable} {names more : List Variable}

structure Appends (before : Solver K) (unknown : Variable) (info : EditInfo K)
    (after : Solver K) : Prop where
  free : before.edits.get? unknown = none
  isEdit : info.constraint.kind = .edit unknown
  position : info.index = before.editCount
  edits : after.edits.entries = before.edits.entries ++ [(unknown, info)]
  constraints : after.constraints = before.constraints ++ [info.constraint]

def RegistersEdit (before : Solver K) (unknown : Variable) (after : Solver K) : Prop :=
  after.depths = before.depths ∧ ∃ info, before.Appends unknown info after

structure RemovesEdits (before : Solver K) (names : List Variable) (after : Solver K) : Prop where
  edits : after.edits.entries = before.edits.entries.filter fun entry => entry.1 ∉ names
  constraints : after.constraints = before.constraints.filter fun constraint =>
    ∀ unknown ∈ names, constraint.kind ≠ .edit unknown
  depths : after.depths = before.depths

def beyond (solver : Solver K) (position : Nat) : List Variable :=
  (solver.edits.entries.filter fun entry => position ≤ entry.2.index).map Prod.fst

def enclosingDepth (solver : Solver K) : Nat := solver.depths.tail.headD 0

structure Closes (before after : Solver K) : Prop where
  nested : 2 ≤ before.depths.length
  depths : after.depths = before.depths.tail
  edits : after.edits.entries =
    before.edits.entries.filter fun entry => entry.2.index < before.enclosingDepth
  constraints : after.constraints = before.constraints.filter fun constraint =>
    ∀ unknown ∈ before.beyond before.enclosingDepth, constraint.kind ≠ .edit unknown

theorem Appends.of_same {info : EditInfo K} (appends : before.Appends unknown info middle)
    (edits : after.edits = middle.edits) (installed : after.installed = middle.installed) :
    before.Appends unknown info after :=
  ⟨appends.free, appends.isEdit, appends.position, edits ▸ appends.edits,
    (constraints_of_same installed).trans appends.constraints⟩

theorem RegistersEdit.of_records (registersEdit : before.RegistersEdit unknown middle)
    (same : after.records = middle.records) : before.RegistersEdit unknown after := by
  obtain ⟨depths, info, appends⟩ := registersEdit
  exact ⟨(congrArg Records.depths same).trans depths, info,
    appends.of_same (congrArg Records.edits same) (congrArg Records.installed same)⟩

theorem Appends.registered {info : EditInfo K} (appends : before.Appends unknown info middle) :
    middle.edits.get? unknown = some info :=
  (middle.edits.mem_entries_iff unknown info).mp (appends.edits ▸ by simp)

theorem Appends.not_isEmpty {info : EditInfo K} (appends : before.Appends unknown info middle) :
    middle.edits.isEmpty = false := by
  unfold Table.isEmpty
  rw [appends.edits]
  simp

theorem removesEdits_of_records (same : after.records = before.records) :
    before.RemovesEdits [] after := by
  constructor
  · simp [show after.edits = before.edits from congrArg Records.edits same]
  · simp [constraints_of_same (congrArg Records.installed same)]
  · exact congrArg Records.depths same

theorem RemovesEdits.trans (first : before.RemovesEdits names middle)
    (second : middle.RemovesEdits more after) :
    before.RemovesEdits (names ++ more) after := by
  constructor
  · rw [second.edits, first.edits, List.filter_filter]
    refine List.filter_congr fun entry _ => ?_
    simp [Bool.and_comm]
  · rw [second.constraints, first.constraints, List.filter_filter]
    refine List.filter_congr fun constraint _ => ?_
    simp only [List.mem_append, or_imp, forall_and, Bool.decide_and, Bool.and_comm]
  · exact second.depths.trans first.depths

theorem mem_beyond_iff {solver : Solver K} {position : Nat} : unknown ∈ solver.beyond position ↔
    ∃ info, solver.edits.get? unknown = some info ∧ position ≤ info.index := by
  unfold beyond
  simp only [List.mem_map, List.mem_filter, decide_eq_true_eq, Prod.exists, Table.mem_entries_iff]
  constructor
  · rintro ⟨_, info, reaches, rfl⟩
    exact ⟨info, reaches⟩
  · rintro ⟨info, reaches⟩
    exact ⟨unknown, info, reaches, rfl⟩

theorem RemovesEdits.beyond_edits {position : Nat}
    (removesEdits : before.RemovesEdits (before.beyond position) after) :
    after.edits.entries = before.edits.entries.filter fun entry => entry.2.index < position := by
  rw [removesEdits.edits]
  refine List.filter_congr fun entry member => ?_
  have isInfo := (before.edits.mem_entries_iff entry.1 entry.2).mp member
  simp [mem_beyond_iff, isInfo]

theorem RemovesEdits.of_records (removesEdits : middle.RemovesEdits names after)
    (same : middle.records = before.records) : before.RemovesEdits names after :=
  (removesEdits_of_records same).trans removesEdits

theorem beyond_of_edits (same : after.edits = before.edits) (position : Nat) :
    after.beyond position = before.beyond position := by
  rw [beyond, same, beyond]

theorem RemovesEdits.closes
    (removesEdits : ({ before with depths := before.depths.tail } : Solver K).RemovesEdits
      (before.beyond before.enclosingDepth) after)
    (nested : 2 ≤ before.depths.length) : before.Closes after :=
  ⟨nested, removesEdits.depths, removesEdits.beyond_edits, removesEdits.constraints⟩

variable [Zero K] [One K] [Add K] [Neg K] [Mul K] [Div K] [LT K] [DecidableLT K] [Scalar K]
  {constraint : Constraint K} {limit : Nat}

theorem Follows.records (follows : before.Follows after) : after.records = before.records := by
  unfold Follows at follows
  split at follows
  · obtain ⟨least, tableau, _, rfl⟩ := follows
    exact records_publishValues _
  · rw [follows]

theorem Escapes.records (escapes : before.Escapes after) : after.records = before.records := by
  obtain ⟨tableau, _, rfl⟩ := escapes
  rfl

structure Tallied (solver : Solver K) : Prop where
  sound : solver.Sound
  tallies : solver.Tallies

theorem Tallied.evolves [Sub K] (tallied : before.Tallied) (evolves : before.Evolves after) :
    after.Tallied :=
  have kept := Reaches.keeps Tallies evolves
    (fun _ _ move sound tallies => tallies.move sound move) tallied.sound tallied.tallies
  ⟨kept.1, kept.2⟩

/-! Registering -/

theorem Installs.registersEdit {placement : Placement K} {tableau : Tableau K} {nextId : Nat}
    (installs : before.Installs constraint placement tableau nextId after)
    (isEdit : constraint.kind = .edit unknown) : before.RegistersEdit unknown after := by
  obtain ⟨free, edits⟩ := installs.edits_eq isEdit
  have grown := congrArg Table.entries edits
  rw [Table.entries_insert_of_missing free] at grown
  refine ⟨?_, _, free, isEdit, rfl, grown, ?_⟩
  · rw [installs.result, depths_record]
  · rw [constraints, installs.installed_values, List.map_append]
    rfl

theorem addEdit_registersEdit (sound : before.Sound) (unknown : Variable) (strength : Strength) :
    (addEdit unknown strength limit before).Meets (fun _ after => before.RegistersEdit unknown after)
      (fun _ after => before.RegistersEdit unknown after ∨ after.records = before.records) := by
  rw [meets_addEdit unknown strength fun after => before.RegistersEdit unknown after]
  have reserved : before.withNextKey.Sound := before.tidies_withNextKey.sound sound
  have isEdit : (⟨.edit unknown (before.value unknown) strength, before.nextKey⟩ :
      Constraint K).kind = .edit unknown := rfl
  have registersEdit : ∀ {placement tableau nextId installed after},
      before.withNextKey.Installs ⟨.edit unknown (before.value unknown) strength, before.nextKey⟩
        placement tableau nextId installed → after.records = installed.records →
      before.RegistersEdit unknown after := by
    intro placement tableau nextId installed after installs same
    obtain ⟨depths, info, appends⟩ := (installs.registersEdit isEdit).of_records same
    exact ⟨depths, info, appends.free, appends.isEdit, appends.position, appends.edits,
      appends.constraints⟩
  refine (add_meets reserved (Demand.external_edit unknown _ strength) (Nat.lt_succ_self _)).imp
    ?_ ?_
  · rintro _ after ⟨_, _, _, installed, installs, follows⟩
    exact registersEdit installs follows.records
  · intro _ after fails
    cases fails with
    | unbounded installs _ escapes => exact Or.inl (registersEdit installs escapes.records)
    | _ => exact Or.inr rfl

omit [One K] [Div K] [Scalar K] in
theorem Appends.retarget [Sub K] {info : EditInfo K} (appends : before.Appends unknown info middle)
    (target : K) :
    before.Appends unknown { info with target } (middle.retargeted unknown info target) :=
  ⟨appends.free, appends.isEdit, appends.position,
    Table.entries_insert_of_last appends.free appends.edits _, appends.constraints⟩

/-! Taking out -/

omit [Neg K] [Div K] [LT K] [DecidableLT K] in
theorem Tallied.edits_iff (tallied : before.Tallied) {info : EditInfo K}
    (registered : before.edits.get? unknown = some info) {other : Constraint K}
    (member : other ∈ before.constraints) :
    other.key = info.constraint.key ↔ other.kind = .edit unknown := by
  obtain ⟨entry, found, rfl⟩ := get?_of_mem_constraints tallied.sound.books member
  obtain ⟨named, present, same⟩ := tallied.tallies.named unknown info registered
  constructor
  · intro sameKey
    rw [sameKey, present] at found
    cases found
    rw [same, (tallied.sound.books.edits unknown info registered).1]
  · intro isEdit
    obtain ⟨own, isOwn, sameConstraint⟩ := tallied.tallies.registered _ entry unknown found isEdit
    rw [registered] at isOwn
    cases isOwn
    rw [sameConstraint]

theorem Uninstalls.removesEdits {entry : Installed K} {dropped : Tableau K} {info : EditInfo K}
    (uninstalls : before.Uninstalls info.constraint entry dropped after) (tallied : before.Tallied)
    (registered : before.edits.get? unknown = some info) : before.RemovesEdits [unknown] after := by
  have isEdit := (tallied.sound.books.edits unknown info registered).1
  constructor
  · rw [uninstalls.edits_eq registered isEdit rfl, Table.entries_erase]
    simp
  · rw [constraints_erase (keyed_of_sound tallied.sound.books) uninstalls.installed_after]
    refine List.filter_congr fun other member => ?_
    simp [tallied.edits_iff registered member]
  · rw [uninstalls.result]
    obtain ⟨_, _, _, writes⟩ := ((before.withdraw info.constraint).setTableau dropped).clearAway_writes
      info.constraint entry.marker (before.charges.get? info.constraint.key)
    rw [writes]
    rfl

theorem removeEdit_removesEdits (tallied : before.Tallied) (unknown : Variable) :
    (removeEdit unknown limit before).Meets (fun _ after => before.RemovesEdits [unknown] after)
      (fun _ after => ∃ gone, before.RemovesEdits gone after) := by
  rw [meets_removeEdit]
  cases registered : before.edits.get? unknown with
  | none => exact ⟨[], removesEdits_of_records rfl⟩
  | some info =>
    refine (remove_meets tallied.sound (tallied.sound.edit_kind registered)).imp ?_ ?_
    · rintro _ after ⟨_, _, removed, uninstalls, follows⟩
      simpa using (uninstalls.removesEdits tallied registered).trans
        (removesEdits_of_records follows.records)
    · intro _ after fails
      cases fails with
      | missing _ => exact ⟨[], removesEdits_of_records rfl⟩
      | unbounded uninstalls _ escapes =>
        exact ⟨_, (uninstalls.removesEdits tallied registered).trans
          (removesEdits_of_records escapes.records)⟩

variable [Sub K]

theorem forEach_removesEdits (names : List Variable) (tallied : before.Tallied) :
    (Action.forEach removeRegistered names limit before).Meets
      (fun _ after => before.RemovesEdits names after)
        (fun _ after => ∃ gone, before.RemovesEdits gone after) := by
  induction names generalizing before with
  | nil => exact removesEdits_of_records rfl
  | cons unknown rest ih =>
    refine (Action.meets_bind _ _ _).mpr ((Action.meets_mapFault _ _ _).mpr ?_)
    refine (Outcome.Meets.and (removeEdit_removesEdits tallied unknown)
      (removeEdit_evolves tallied.sound unknown)).imp ?_ fun _ _ met => met.1
    rintro _ middle ⟨removesEdits, evolves, _⟩
    refine (ih (tallied.evolves evolves)).imp (fun _ after => removesEdits.trans) ?_
    rintro _ after ⟨gone, later⟩
    exact ⟨_, removesEdits.trans later⟩

theorem trimEdits_removesEdits (tallied : before.Tallied) (count : Nat) :
    (trimEdits count limit before).Meets
      (fun _ after => before.RemovesEdits (before.beyond count) after)
      (fun _ after => ∃ gone, before.RemovesEdits gone after) := by
  rw [meets_trimEdits]
  exact forEach_removesEdits _ tallied

/-! Sessions -/

structure Opens (before after : Solver K) : Prop where
  depths : after.depths = before.editCount :: before.depths
  edits : after.edits = before.edits
  installed : after.installed = before.installed

omit [One K] [Add K] [Sub K] [Neg K] [Mul K] [Div K] [LT K] [DecidableLT K] [Scalar K] in
theorem beginEdit_opens : (beginEdit limit before).Meets (fun _ after => before.Opens after)
    (fun _ after => after = before) := by
  rw [meets_beginEdit]
  split
  · rfl
  · exact ⟨rfl, rfl, rfl⟩

omit [One K] [Div K] [Scalar K] in
theorem suggest_retargets (unknown : Variable) (target : K) :
    (suggest unknown target limit before).Meets
      (fun _ after => ∃ info, before.edits.get? unknown = some info ∧
        after = before.retargeted unknown info target) (fun _ after => after = before) := by
  rw [meets_suggest]
  cases registered : before.edits.get? unknown with
  | none => rfl
  | some info => exact ⟨info, rfl, rfl⟩

variable [LE K] [DecidableLE K]

/-- What a session's end leaves behind. If it fails, the session is closed or not, and some of the
edits may be gone. -/
theorem endEdit_closes (tallied : before.Tallied) :
    (endEdit limit before).Meets (fun _ after => before.Closes after)
      (fun _ after => after.records = before.records ∨ 2 ≤ before.depths.length ∧
        ∃ gone, ({ before with depths := before.depths.tail } : Solver K).RemovesEdits gone after) := by
  rw [meets_endEdit]
  split
  · exact Or.inl rfl
  split
  · exact Or.inl rfl
  rename_i deep
  have nested : 2 ≤ before.depths.length := Nat.not_lt.mp deep
  refine (Outcome.Meets.and (unrecorded_resolve before.records limit before rfl)
    (resolve_evolves tallied.sound)).imp ?_ fun _ _ met => Or.inl met.1
  rintro _ resolved ⟨same, evolves, _⟩
  have closed : ({ resolved with depths := resolved.depths.tail } : Solver K).Tallied :=
    (tallied.evolves evolves).evolves (.single (.tidy (tidies_depths resolved _)))
  have agrees : ({ resolved with depths := resolved.depths.tail } : Solver K).records =
      ({ before with depths := before.depths.tail } : Solver K).records :=
    congrArg (fun records : Records K => { records with depths := records.depths.tail }) same
  have doomed : ({ resolved with depths := resolved.depths.tail } : Solver K).beyond
      (resolved.depths.tail.headD 0) = before.beyond before.enclosingDepth := by
    rw [show resolved.depths = before.depths from congrArg Records.depths same]
    exact beyond_of_edits (congrArg Records.edits same) _
  refine (trimEdits_removesEdits closed _).imp ?_ ?_
  · intro _ after removesEdits
    rw [doomed] at removesEdits
    exact (removesEdits.of_records agrees).closes nested
  · rintro _ after ⟨gone, removesEdits⟩
    exact Or.inr ⟨nested, gone, removesEdits.of_records agrees⟩

end Solver

end SoftSimplex
