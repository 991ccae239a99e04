import SoftSimplex.Proofs.OneShot
import SoftSimplex.Proofs.Serving

/-!
Edits by the time of their registration. Levels list the edits registered in each open session, the
innermost first; they are read off what calls change, and know nothing of positions. The end of a
session is to take out what has been registered since the session around it began. It does so as
long as every session begins, and every edit comes in, while the edits stand at their places.
-/

namespace SoftSimplex

variable {K : Type}

namespace Solver

variable {before middle after : Solver K} {levels : List (List Variable)} {unknown : Variable}

/-! Levels -/

def newcomers (before after : Solver K) : List Variable :=
  after.edits.keys.filter fun unknown => !before.edits.contains unknown

def surviving (after : Solver K) (levels : List (List Variable)) : List (List Variable) :=
  levels.map (·.filter after.edits.contains)

def mergeLevels : List (List Variable) → List (List Variable)
  | inner :: enclosing :: outer => (inner ++ enclosing) :: outer
  | levels => levels

def track (before after : Solver K) (levels : List (List Variable)) : List (List Variable) :=
  let noted := (surviving after levels).modifyHead (· ++ before.newcomers after)
  if before.depths.length < after.depths.length then [] :: noted
  else if after.depths.length < before.depths.length then mergeLevels noted
  else noted

/-- One level for each session and one for the time before, and each edit in one of them. -/
structure Levelled (solver : Solver K) (levels : List (List Variable)) : Prop where
  nonempty : levels ≠ []
  length : levels.length = solver.depths.length
  bottom : solver.depths.getLast? = some 0
  distinct : levels.flatten.Nodup
  registered : ∀ unknown, unknown ∈ levels.flatten ↔ solver.edits.contains unknown = true

def Separated (solver : Solver K) (levels : List (List Variable)) : Prop :=
  ∀ (place depth : Nat), solver.depths[place]? = some depth →
    ∀ unknown info, solver.edits.get? unknown = some info →
      (unknown ∈ (levels.drop (place + 1)).flatten ↔ info.index < depth)

/-- A session begins only while every edit stands before the number of edits, and an edit comes in
only while no session began with more edits than there are. -/
structure InOrder (before after : Solver K) : Prop where
  opening : before.depths.length < after.depths.length →
    ∀ entry ∈ after.edits.entries, entry.2.index < after.editCount
  registering : before.editCount < after.editCount →
    ∀ depth ∈ before.depths, depth ≤ before.editCount

instance (before after : Solver K) : Decidable (before.InOrder after) :=
  decidable_of_iff (_ ∧ _) ⟨fun both => ⟨both.1, both.2⟩, fun both => ⟨both.opening, both.registering⟩⟩

theorem flatten_surviving_drop (after : Solver K) (levels : List (List Variable)) (count : Nat) :
    ((surviving after levels).drop count).flatten =
      ((levels.drop count).flatten).filter after.edits.contains := by
  rw [surviving, ← List.map_drop, List.filter_flatten]

theorem flatten_surviving (after : Solver K) (levels : List (List Variable)) :
    (surviving after levels).flatten = levels.flatten.filter after.edits.contains :=
  flatten_surviving_drop after levels 0

/-! Turns -/

def Retains (before after : Solver K) : Prop :=
  ∀ unknown info, after.edits.get? unknown = some info →
    ∃ earlier, before.edits.get? unknown = some earlier ∧ earlier.index = info.index

/-- What a call of the edit protocol can do, however it ends. -/
inductive ProtocolStep (before after : Solver K) : Prop
  | stay (depths : after.depths = before.depths) (retains : before.Retains after)
  | enroll {unknown : Variable} (registersEdit : before.RegistersEdit unknown after)
  | begin (opens : before.Opens after)
  | close (nested : 2 ≤ before.depths.length) (depths : after.depths = before.depths.tail)
      (retains : before.Retains after)

theorem retains_of_edits (same : after.edits = before.edits) : before.Retains after := by
  intro unknown info found
  rw [same] at found
  exact ⟨info, found, rfl⟩

theorem RemovesEdits.retains {names : List Variable} (removesEdits : before.RemovesEdits names after) :
    before.Retains after := by
  intro unknown info found
  rw [← Table.mem_entries_iff, removesEdits.edits] at found
  exact ⟨info, (before.edits.mem_entries_iff _ _).mp (List.mem_filter.mp found).1, rfl⟩

theorem protocolStep_of_records (same : after.records = before.records) : before.ProtocolStep after :=
  .stay (congrArg Records.depths same) (retains_of_edits (congrArg Records.edits same))

theorem Retains.contains (retains : before.Retains after)
    (kept : after.edits.contains unknown = true) : before.edits.contains unknown = true := by
  obtain ⟨info, found⟩ := Option.isSome_iff_exists.mp kept
  obtain ⟨earlier, present, _⟩ := retains unknown info found
  exact Option.isSome_iff_exists.mpr ⟨earlier, present⟩

theorem Retains.newcomers (retains : before.Retains after) : before.newcomers after = [] := by
  refine List.filter_eq_nil_iff.mpr fun unknown member => ?_
  simp [retains.contains ((after.edits.contains_iff unknown).mpr member)]

/-! What a turn does to the levels -/

theorem flatten_mergeLevels (levels : List (List Variable)) :
    (mergeLevels levels).flatten = levels.flatten := by
  match levels with
  | [] | [_] => rfl
  | inner :: enclosing :: outer => simp [mergeLevels]

theorem length_mergeLevels (several : 2 ≤ levels.length) :
    (mergeLevels levels).length = levels.length - 1 := by
  match levels with
  | [] | [_] => simp at several
  | inner :: enclosing :: outer => rfl

theorem drop_mergeLevels (levels : List (List Variable)) (count : Nat) :
    (mergeLevels levels).drop (count + 1) = levels.drop (count + 2) := by
  match levels with
  | [] | [_] => simp [mergeLevels]
  | inner :: enclosing :: outer => rfl

theorem Appends.keys {info : EditInfo K} (appends : before.Appends unknown info after) :
    after.edits.keys = before.edits.keys ++ [unknown] := by
  rw [Table.keys, appends.edits, List.map_append]
  rfl

theorem Appends.contains_iff {info : EditInfo K} (appends : before.Appends unknown info after)
    {other : Variable} : after.edits.contains other = true ↔
      other = unknown ∨ before.edits.contains other = true := by
  rw [Table.contains_iff, Table.contains_iff, appends.keys, List.mem_append, List.mem_singleton,
    or_comm]

theorem track_of_retains (retains : before.Retains after) :
    track before after levels =
      if before.depths.length < after.depths.length then [] :: surviving after levels
      else if after.depths.length < before.depths.length then mergeLevels (surviving after levels)
      else surviving after levels := by
  unfold track
  rw [retains.newcomers]
  cases surviving after levels <;> simp

theorem track_stay (depths : after.depths = before.depths) (retains : before.Retains after) :
    track before after levels = surviving after levels := by
  rw [track_of_retains retains, depths, if_neg (Nat.lt_irrefl _), if_neg (Nat.lt_irrefl _)]

theorem track_close (nested : 2 ≤ before.depths.length) (depths : after.depths = before.depths.tail)
    (retains : before.Retains after) :
    track before after levels = mergeLevels (surviving after levels) := by
  have shorter := congrArg List.length depths
  rw [List.length_tail] at shorter
  rw [track_of_retains retains, if_neg (by omega), if_pos (by omega)]

theorem Levelled.surviving_eq (levelled : before.Levelled levels)
    (kept : ∀ unknown, before.edits.contains unknown = true → after.edits.contains unknown = true) :
    surviving after levels = levels := by
  refine (List.map_congr_left fun level member => ?_).trans (List.map_id levels)
  refine List.filter_eq_self.mpr fun unknown inLevel => kept unknown ?_
  exact (levelled.registered unknown).mp (List.mem_flatten_of_mem member inLevel)

theorem track_begin (levelled : before.Levelled levels) (opens : before.Opens after) :
    track before after levels = [] :: levels := by
  rw [track_of_retains (retains_of_edits opens.edits), if_pos, levelled.surviving_eq]
  · exact fun _ registered => opens.edits ▸ registered
  · rw [opens.depths]
    exact Nat.lt_succ_self _

theorem track_enroll (levelled : before.Levelled levels)
    (registersEdit : before.RegistersEdit unknown after) :
    track before after levels = levels.modifyHead (· ++ [unknown]) := by
  obtain ⟨depths, info, appends⟩ := registersEdit
  have newcomers : before.newcomers after = [unknown] := by
    have earlier : before.edits.keys.filter (fun other => !before.edits.contains other) = [] :=
      List.filter_eq_nil_iff.mpr fun other member => by
        simp [(before.edits.contains_iff other).mpr member]
    rw [Solver.newcomers, appends.keys, List.filter_append, earlier]
    simp [Table.contains, appends.free]
  unfold track
  rw [newcomers, levelled.surviving_eq fun other => appends.contains_iff.mpr ∘ Or.inr, depths]
  simp

/-! What a turn keeps -/

namespace Levelled

theorem registered_surviving (levelled : before.Levelled levels) (retains : before.Retains after)
    (unknown : Variable) :
    unknown ∈ (surviving after levels).flatten ↔ after.edits.contains unknown = true := by
  rw [flatten_surviving, List.mem_filter, levelled.registered]
  exact and_iff_right_of_imp retains.contains

theorem distinct_surviving (levelled : before.Levelled levels) (after : Solver K) :
    (surviving after levels).flatten.Nodup := by
  rw [flatten_surviving]
  exact levelled.distinct.filter _

theorem length_surviving (levelled : before.Levelled levels) (after : Solver K) :
    (surviving after levels).length = before.depths.length := by
  rw [surviving, List.length_map, levelled.length]

theorem stay (levelled : before.Levelled levels) (depths : after.depths = before.depths)
    (retains : before.Retains after) : after.Levelled (track before after levels) := by
  rw [track_stay depths retains]
  refine ⟨?_, ?_, depths ▸ levelled.bottom, levelled.distinct_surviving after,
    levelled.registered_surviving retains⟩
  · simpa [surviving] using levelled.nonempty
  · rw [levelled.length_surviving after, depths]

theorem enroll (levelled : before.Levelled levels)
    (registersEdit : before.RegistersEdit unknown after) :
    after.Levelled (track before after levels) := by
  rw [track_enroll levelled registersEdit]
  obtain ⟨depths, info, appends⟩ := registersEdit
  obtain ⟨inner, outer, rfl⟩ := List.exists_cons_of_ne_nil levelled.nonempty
  have moved : ((inner ++ [unknown]) :: outer).flatten.Perm
      (unknown :: (inner :: outer).flatten) := by
    rw [List.flatten_cons, List.append_assoc]
    exact List.perm_middle
  refine ⟨List.cons_ne_nil _ _, levelled.length.trans (congrArg List.length depths.symm),
    depths ▸ levelled.bottom, ?_, ?_⟩
  · rw [List.modifyHead_cons, moved.nodup_iff, List.nodup_cons, levelled.registered]
    exact ⟨by simp [Table.contains, appends.free], levelled.distinct⟩
  · intro other
    rw [List.modifyHead_cons, moved.mem_iff, List.mem_cons, levelled.registered,
      appends.contains_iff]

theorem begin (levelled : before.Levelled levels) (opens : before.Opens after) :
    after.Levelled (track before after levels) := by
  rw [track_begin levelled opens]
  refine ⟨List.cons_ne_nil _ _, ?_, ?_, levelled.distinct, ?_⟩
  · rw [opens.depths, List.length_cons, List.length_cons, levelled.length]
  · rw [opens.depths, List.getLast?_cons, levelled.bottom]
    rfl
  · rw [opens.edits]
    exact levelled.registered

theorem close (levelled : before.Levelled levels) (nested : 2 ≤ before.depths.length)
    (depths : after.depths = before.depths.tail) (retains : before.Retains after) :
    after.Levelled (track before after levels) := by
  have length := levelled.length_surviving after
  have shorter := length_mergeLevels (length.symm ▸ nested)
  rw [track_close nested depths retains]
  refine ⟨?_, ?_, ?_, ?_, ?_⟩
  · intro none
    rw [none, List.length_nil] at shorter
    omega
  · rw [shorter, length, depths, List.length_tail]
  · rw [depths, List.getLast?_tail, if_neg (by omega), levelled.bottom]
  · rw [flatten_mergeLevels]
    exact levelled.distinct_surviving after
  · rw [flatten_mergeLevels]
    exact levelled.registered_surviving retains

theorem turn (levelled : before.Levelled levels) (protocolStep : before.ProtocolStep after) :
    after.Levelled (track before after levels) := by
  cases protocolStep with
  | stay depths retains => exact levelled.stay depths retains
  | enroll registersEdit => exact levelled.enroll registersEdit
  | begin opens => exact levelled.begin opens
  | close nested depths retains => exact levelled.close nested depths retains

end Levelled

namespace Separated

theorem surviving (separated : before.Separated levels) (retains : before.Retains after)
    {place depth : Nat} (isDepth : before.depths[place]? = some depth) {info : EditInfo K}
    (found : after.edits.get? unknown = some info) :
    unknown ∈ ((surviving after levels).drop (place + 1)).flatten ↔ info.index < depth := by
  obtain ⟨earlier, present, position⟩ := retains unknown info found
  have kept : after.edits.contains unknown = true := Option.isSome_iff_exists.mpr ⟨info, found⟩
  rw [flatten_surviving_drop, List.mem_filter, and_iff_left kept, ← position]
  exact separated place depth isDepth unknown earlier present

theorem stay (separated : before.Separated levels) (depths : after.depths = before.depths)
    (retains : before.Retains after) : after.Separated (track before after levels) := by
  rw [track_stay depths retains]
  intro place depth isDepth unknown info found
  rw [depths] at isDepth
  exact separated.surviving retains isDepth found

theorem enroll (separated : before.Separated levels) (levelled : before.Levelled levels)
    (registersEdit : before.RegistersEdit unknown after) (inOrder : before.InOrder after) :
    after.Separated (track before after levels) := by
  rw [track_enroll levelled registersEdit]
  obtain ⟨depths, info, appends⟩ := registersEdit
  obtain ⟨inner, outer, rfl⟩ := List.exists_cons_of_ne_nil levelled.nonempty
  intro place depth isDepth other otherInfo found
  rw [depths] at isDepth
  rw [List.modifyHead_cons, List.drop_succ_cons]
  rw [← Table.mem_entries_iff, appends.edits, List.mem_append, List.mem_singleton] at found
  rcases found with earlier | here
  · exact separated place depth isDepth other otherInfo
      ((before.edits.mem_entries_iff _ _).mp earlier)
  · cases here
    have grown : before.editCount < after.editCount := by
      simp [editCount, Table.size, appends.edits]
    have early := inOrder.registering grown depth (List.mem_of_getElem? isDepth)
    refine iff_of_false ?_ (Nat.not_lt.mpr (appends.position ▸ early))
    intro member
    obtain ⟨level, later, inLevel⟩ := List.mem_flatten.mp member
    have registered := (levelled.registered unknown).mp (List.mem_flatten_of_mem
      (List.mem_cons_of_mem inner (List.mem_of_mem_drop later)) inLevel)
    simp [Table.contains, appends.free] at registered

theorem begin (separated : before.Separated levels) (levelled : before.Levelled levels)
    (opens : before.Opens after) (inOrder : before.InOrder after) :
    after.Separated (track before after levels) := by
  rw [track_begin levelled opens]
  have deeper : before.depths.length < after.depths.length := by
    rw [opens.depths]
    exact Nat.lt_succ_self _
  intro place depth isDepth other info found
  rw [opens.depths] at isDepth
  cases place with
  | zero =>
    cases isDepth
    have present := (after.edits.mem_entries_iff other info).mpr found
    have stands := inOrder.opening deeper _ present
    rw [editCount, opens.edits] at stands
    rw [opens.edits] at found
    exact iff_of_true ((levelled.registered other).mpr
      (Option.isSome_iff_exists.mpr ⟨info, found⟩)) stands
  | succ place =>
    rw [opens.edits] at found
    exact separated place depth isDepth other info found

theorem close (separated : before.Separated levels) (nested : 2 ≤ before.depths.length)
    (depths : after.depths = before.depths.tail) (retains : before.Retains after) :
    after.Separated (track before after levels) := by
  rw [track_close nested depths retains]
  intro place depth isDepth unknown info found
  rw [depths, List.getElem?_tail] at isDepth
  rw [drop_mergeLevels]
  exact separated.surviving retains isDepth found

theorem turn (separated : before.Separated levels) (levelled : before.Levelled levels)
    (protocolStep : before.ProtocolStep after) (inOrder : before.InOrder after) :
    after.Separated (track before after levels) := by
  cases protocolStep with
  | stay depths retains => exact separated.stay depths retains
  | enroll registersEdit => exact separated.enroll levelled registersEdit inOrder
  | begin opens => exact separated.begin levelled opens inOrder
  | close nested depths retains => exact separated.close nested depths retains

end Separated

/-! Ending a session -/

/-- The edits registered of late are those that stand where the session around the innermost one
began or beyond. -/
def Divides (solver : Solver K) (recent : List Variable) : Prop :=
  ∀ entry ∈ solver.edits.entries, entry.1 ∈ recent ↔ solver.enclosingDepth ≤ entry.2.index

theorem Closes.removesEdits_iff {recent : List Variable} (closes : before.Closes after)
    (registered : ∀ unknown ∈ recent, before.edits.contains unknown = true) :
    ({ before with depths := before.depths.tail } : Solver K).RemovesEdits recent after ↔
      before.Divides recent := by
  constructor
  · intro removesEdits entry member
    have same : entry ∈ before.edits.entries.filter (fun entry => entry.1 ∉ recent) ↔
        entry ∈ before.edits.entries.filter fun entry => entry.2.index < before.enclosingDepth := by
      rw [← closes.edits, removesEdits.edits]
    simp only [List.mem_filter, member, true_and, decide_eq_true_eq] at same
    exact not_iff_not.mp (same.trans Nat.not_le.symm)
  · intro divides
    refine ⟨?_, ?_, closes.depths⟩
    · rw [closes.edits]
      refine List.filter_congr fun entry member => ?_
      simp [divides entry member]
    · rw [closes.constraints]
      have beyond_iff : ∀ unknown, unknown ∈ before.beyond before.enclosingDepth ↔
          unknown ∈ recent := by
        intro unknown
        rw [mem_beyond_iff]
        constructor
        · rintro ⟨info, found, reaches⟩
          exact (divides _ ((before.edits.mem_entries_iff unknown info).mpr found)).mpr reaches
        · intro member
          obtain ⟨info, found⟩ := Option.isSome_iff_exists.mp (registered unknown member)
          exact ⟨info, found,
            (divides _ ((before.edits.mem_entries_iff unknown info).mpr found)).mp member⟩
      refine List.filter_congr fun constraint _ => ?_
      simp only [beyond_iff]

theorem Levelled.divides_outermost {inner enclosing : List Variable}
    (levelled : before.Levelled [inner, enclosing]) : before.Divides (inner ++ enclosing) := by
  have ground : before.enclosingDepth = 0 := by
    have length := levelled.length
    have bottom := levelled.bottom
    unfold enclosingDepth
    match depths : before.depths with
    | [] | [_] | _ :: _ :: _ :: _ => simp [depths] at length
    | [_, depth] => simpa [depths] using bottom
  intro entry member
  have found := (before.edits.mem_entries_iff entry.1 entry.2).mp member
  have listed := (levelled.registered entry.1).mpr (Option.isSome_iff_exists.mpr ⟨_, found⟩)
  rw [ground]
  exact iff_of_true (by simpa using listed) (Nat.zero_le _)

theorem Separated.divides {inner enclosing : List Variable} {outer : List (List Variable)}
    (separated : before.Separated (inner :: enclosing :: outer))
    (levelled : before.Levelled (inner :: enclosing :: outer)) :
    before.Divides (inner ++ enclosing) := by
  intro entry member
  have found := (before.edits.mem_entries_iff entry.1 entry.2).mp member
  have listed := (levelled.registered entry.1).mpr (Option.isSome_iff_exists.mpr ⟨_, found⟩)
  have distinct := levelled.distinct
  rw [List.flatten_cons, List.flatten_cons, ← List.append_assoc] at listed distinct
  have enclosing_depth : before.depths[1]? = some before.enclosingDepth := by
    have length := levelled.length
    unfold enclosingDepth
    match depths : before.depths with
    | [] | [_] => simp [depths] at length
    | _ :: depth :: _ => rfl
  have older := separated 1 _ enclosing_depth entry.1 entry.2 found
  have exclusive : entry.1 ∈ inner ++ enclosing ↔ entry.1 ∉ outer.flatten :=
    ⟨fun recent older => (List.nodup_append.mp distinct).2.2 _ recent _ older rfl,
      (List.mem_append.mp listed).resolve_right⟩
  rw [exclusive, ← Nat.not_lt]
  exact not_iff_not.mpr older

/-! Calls -/

section Calls

variable [Zero K] [One K] [Add K] [Sub K] [Neg K] [Mul K] [Div K] [LT K] [DecidableLT K] [LE K]
  [DecidableLE K] [Scalar K] {limit : Nat}

omit [Sub K] [LE K] [DecidableLE K] in
theorem addEdit_protocolStep (sound : before.Sound) (unknown : Variable) (strength : Strength) :
    (addEdit unknown strength limit before).Meets (fun _ after => before.ProtocolStep after)
      (fun _ after => before.ProtocolStep after) :=
  (addEdit_registersEdit sound unknown strength).imp (fun _ _ registersEdit => .enroll registersEdit)
    fun _ _ met => met.elim .enroll protocolStep_of_records

omit [Sub K] [LE K] [DecidableLE K] in
theorem removeEdit_protocolStep (tallied : before.Tallied) (unknown : Variable) :
    (removeEdit unknown limit before).Meets (fun _ after => before.ProtocolStep after)
      (fun _ after => before.ProtocolStep after) := by
  have protocolStep : ∀ {gone after}, before.RemovesEdits gone after → before.ProtocolStep after :=
    fun removesEdits => .stay removesEdits.depths removesEdits.retains
  refine (removeEdit_removesEdits tallied unknown).imp (fun _ _ => protocolStep) ?_
  rintro _ after ⟨gone, removesEdits⟩
  exact protocolStep removesEdits

omit [One K] [Div K] [LE K] [DecidableLE K] [Scalar K] in
theorem suggest_protocolStep (unknown : Variable) (target : K) :
    (suggest unknown target limit before).Meets (fun _ after => before.ProtocolStep after)
      (fun _ after => before.ProtocolStep after) := by
  refine (suggest_retargets unknown target).imp ?_ ?_
  · rintro _ _ ⟨info, registered, rfl⟩
    refine .stay rfl fun other changed found => ?_
    have edits : (before.edits.insert unknown { info with target }).get? other = some changed := found
    rw [Table.get?_insert] at edits
    split at edits
    · rename_i same
      cases edits
      exact ⟨info, same ▸ registered, rfl⟩
    · exact ⟨changed, edits, rfl⟩
  · rintro _ _ rfl
    exact protocolStep_of_records rfl

theorem endEdit_protocolStep (tallied : before.Tallied) :
    (endEdit limit before).Meets (fun _ after => before.ProtocolStep after)
      (fun _ after => before.ProtocolStep after) := by
  refine (endEdit_closes tallied).imp ?_ ?_
  · intro _ after closes
    refine .close closes.nested closes.depths fun unknown info found => ?_
    rw [← Table.mem_entries_iff, closes.edits] at found
    exact ⟨info, (before.edits.mem_entries_iff _ _).mp (List.mem_filter.mp found).1, rfl⟩
  · rintro _ after (same | ⟨nested, gone, removesEdits⟩)
    · exact protocolStep_of_records same
    · exact .close nested removesEdits.depths removesEdits.retains

end Calls

end Solver

def Call.Protocol : Call K → Prop
  | addEdit _ _ | addDefaultEdit _ | removeEdit _ | beginEdit | endEdit | suggest _ _ | resolve => True
  | _ => False

namespace Session

open Solver

variable [Zero K] [One K] [Add K] [Sub K] [Neg K] [Mul K] [Div K] [LT K] [DecidableLT K] [LE K]
  [DecidableLE K] [Scalar K] {session next : Session K} {levels : List (List Variable)}
  {orderly : Prop} {request : Call K} {limit : Nat}

theorem perform_protocolStep (tallied : session.solver.Tallied) (protocol : request.Protocol) :
    (perform request limit session).Meets (fun _ next => session.solver.ProtocolStep next.solver)
      (fun _ next => session.solver.ProtocolStep next.solver) := by
  refine meets_perform session.solver.ProtocolStep (fun _ => session.solver.ProtocolStep)
    (protocolStep_of_records rfl)
    fun serves => ?_
  cases serves with
  | addEdit unknown strength => exact addEdit_protocolStep tallied.sound unknown strength
  | addDefaultEdit unknown =>
    exact (Action.meets_bind _ _ _).mpr (addEdit_protocolStep tallied.sound unknown _)
  | removeEdit unknown => exact removeEdit_protocolStep tallied unknown
  | beginEdit =>
    refine beginEdit_opens.imp (fun _ _ opens => .begin opens) ?_
    rintro _ _ rfl
    exact protocolStep_of_records rfl
  | endEdit => exact endEdit_protocolStep tallied
  | suggest unknown target => exact suggest_protocolStep unknown target
  | resolve =>
    exact (unrecorded_resolve session.solver.records limit session.solver rfl).imp
      (fun _ _ => protocolStep_of_records) fun _ _ => protocolStep_of_records
  | _ => exact protocol.elim

def Involves (session : Session K) (request : Call K)
    (outcome : Outcome K (Session K) (Reply K)) : Prop :=
  request.External ∧ (request.Protocol ∨ ∀ next, outcome.state? = some next →
    next.solver.edits = session.solver.edits ∧ next.solver.depths = session.solver.depths)

omit [Zero K] [One K] [Add K] [Sub K] [Neg K] [Mul K] [Div K] [LT K] [DecidableLT K] [LE K]
  [DecidableLE K] [Scalar K] in
theorem involves_of_protocol {outcome : Outcome K (Session K) (Reply K)}
    (protocol : request.Protocol) : session.Involves request outcome := by
  refine ⟨?_, Or.inl protocol⟩
  cases request with
  | make _ => exact protocol.elim
  | _ => trivial

theorem involves_newVariable (name : Option String) (value : K) :
    session.Involves (.newVariable name value) (perform (.newVariable name value) limit session) := by
  refine ⟨trivial, Or.inr ?_⟩
  rintro _ ⟨⟩
  exact ⟨rfl, rfl⟩

/-- A run of the edit protocol with its levels, and whether it has kept the edits in order. -/
inductive Tracked : Session K → List (List Variable) → Prop → Prop
  | fresh (config : Config K) (sink : Sink) : Tracked (start (.withConfig config) sink) [[]] True
  | call {session next : Session K} {levels : List (List Variable)} {orderly : Prop}
      {request : Call K} {limit : Nat} (earlier : Tracked session levels orderly)
      (involves : session.Involves request (perform request limit session))
      (returns : (perform request limit session).state? = some next) :
      Tracked next (track session.solver next.solver levels)
        (orderly ∧ session.solver.InOrder next.solver)

def trackAll (limit : Nat) : List (Call K) → Session K → List (List Variable) → List (List Variable)
  | [], _, levels => levels
  | request :: rest, session, levels =>
    let next := (perform request limit session).state?.getD session
    trackAll limit rest next (track session.solver next.solver levels)

def KeepsOrder (limit : Nat) : List (Call K) → Session K → Prop
  | [], _ => True
  | request :: rest, session =>
    let next := (perform request limit session).state?.getD session
    session.solver.InOrder next.solver ∧ KeepsOrder limit rest next

instance decidableKeepsOrder (limit : Nat) :
    (requests : List (Call K)) → (session : Session K) → Decidable (KeepsOrder limit requests session)
  | [], _ => .isTrue trivial
  | _ :: rest, _ => @instDecidableAnd _ _ _ (decidableKeepsOrder limit rest _)

theorem Tracked.replay (tracked : Tracked session levels orderly) {requests : List (Call K)}
    (allows : Allows (fun session request outcome =>
      session.Involves request outcome ∧ outcome.state?.isSome = true) limit requests session) :
    Tracked (session.replay limit requests) (trackAll limit requests session levels)
      (orderly ∧ KeepsOrder limit requests session) := by
  induction requests generalizing session levels orderly with
  | nil => simpa [Session.replay, trackAll, KeepsOrder] using tracked
  | cons request rest ih =>
    obtain ⟨⟨involves, returned⟩, later⟩ := allows
    obtain ⟨next, returns⟩ := Option.isSome_iff_exists.mp returned
    rw [Session.replay, trackAll, KeepsOrder]
    rw [returns] at later ⊢
    rw [← and_assoc]
    exact ih (tracked.call involves returns) later

theorem Tracked.reachable (tracked : Tracked session levels orderly) : session.Reachable := by
  induction tracked with
  | fresh config sink => exact .fresh config sink
  | call _ involves returns ih => exact .call ih involves.1 returns

theorem Tracked.levelled (tracked : Tracked session levels orderly) :
    session.solver.Levelled levels ∧ (orderly → session.solver.Separated levels) := by
  induction tracked with
  | fresh config sink =>
    refine ⟨⟨List.cons_ne_nil _ _, rfl, rfl, List.nodup_nil, fun unknown => ?_⟩, fun _ => nofun⟩
    exact ⟨nofun, nofun⟩
  | @call session next levels orderly request limit earlier involves returns ih =>
    have protocolStep : session.solver.ProtocolStep next.solver := by
      rcases involves.2 with protocol | quiet
      · exact (perform_protocolStep earlier.reachable.tallied protocol).of_state? returns
      · obtain ⟨edits, depths⟩ := quiet next returns
        exact .stay depths (retains_of_edits edits)
    exact ⟨ih.1.turn protocolStep, fun keeps => (ih.2 keeps.1).turn ih.1 protocolStep keeps.2⟩

/-- A session that ends takes out what was registered since the session around it began, exactly if
the places of the edits tell. They do for the outermost session, and for every other one as long as
the run has kept the edits in order. -/
theorem endEdit_removesEdits_of_tracked (tracked : Tracked session levels orderly) (limit : Nat) :
    session.solver.Levelled levels ∧
      (perform .endEdit limit session).Meets
        (fun _ next => ∃ inner enclosing outer, levels = inner :: enclosing :: outer ∧
          let closed := { session.solver with depths := session.solver.depths.tail }
          next.solver.depths = closed.depths ∧
          (closed.RemovesEdits (inner ++ enclosing) next.solver ↔
            session.solver.Divides (inner ++ enclosing)) ∧
          (outer = [] ∨ orderly → closed.RemovesEdits (inner ++ enclosing) next.solver))
        (fun _ _ => True) := by
  obtain ⟨levelled, separated⟩ := tracked.levelled
  refine ⟨levelled, (meets_silent (endEdit_closes tracked.reachable.tallied)).imp ?_
    fun _ _ _ => trivial⟩
  rintro _ next ⟨closes, _⟩
  have several := closes.nested
  rw [← levelled.length] at several
  match levels, several with
  | inner :: enclosing :: outer, _ =>
    have registered : ∀ unknown ∈ inner ++ enclosing,
        session.solver.edits.contains unknown = true := fun unknown member =>
      (levelled.registered unknown).mp (by
        rw [List.flatten_cons, List.flatten_cons, ← List.append_assoc]
        exact List.mem_append_left _ member)
    have removesEdits_iff := closes.removesEdits_iff registered
    refine ⟨inner, enclosing, outer, rfl, closes.depths, removesEdits_iff, ?_⟩
    rintro (rfl | keeps)
    · exact removesEdits_iff.mpr levelled.divides_outermost
    · exact removesEdits_iff.mpr ((separated keeps).divides levelled)

/-- An edit that came in inside a session goes at the end of the session inside that one, and the
edit of before stays. -/
theorem endEdit_removesEdits_of_tracked_nested :
    let fresh : Session ℚ := start (.withConfig .standard) .log
    let requests : List (Call ℚ) := [.newVariable none 0, .newVariable none 0,
      .addEdit ⟨1⟩ .strong, .beginEdit, .addEdit ⟨2⟩ .strong, .beginEdit]
    let session := fresh.replay 8 requests
    let next := session.replay 8 [.endEdit]
    let closed := { session.solver with depths := session.solver.depths.tail }
    (∃ orderly : Prop, orderly ∧ Tracked session [[], [⟨2⟩], [⟨1⟩]] orderly) ∧
      session.solver.edits.keys = [⟨1⟩, ⟨2⟩] ∧ (perform .endEdit 8 session).fault? = none ∧
      closed.RemovesEdits [⟨2⟩] next.solver := by
  intro fresh requests session next closed
  have levels : trackAll 8 requests fresh [[]] = [[], [⟨2⟩], [⟨1⟩]] := by decide +kernel
  have orderly : True ∧ KeepsOrder 8 requests fresh := by decide +kernel
  have tracked : Tracked session [[], [⟨2⟩], [⟨1⟩]] (True ∧ KeepsOrder 8 requests fresh) := by
    rw [← levels]
    refine (Tracked.fresh _ _).replay ⟨⟨involves_newVariable _ _, ?_⟩, ⟨involves_newVariable _ _, ?_⟩,
      ⟨involves_of_protocol trivial, ?_⟩, ⟨involves_of_protocol trivial, ?_⟩,
      ⟨involves_of_protocol trivial, ?_⟩, ⟨involves_of_protocol trivial, ?_⟩, trivial⟩
    all_goals decide +kernel
  have clean : (perform .endEdit 8 session).fault? = none := by decide +kernel
  have returns := state?_of_returns
    (show (perform .endEdit 8 session).state?.isSome = true by decide +kernel)
  obtain ⟨_, inner, enclosing, outer, same, _, _, removesEdits⟩ :=
    (endEdit_removesEdits_of_tracked tracked 8).2.of_clean returns clean
  cases same
  exact ⟨⟨_, orderly, tracked⟩, by decide +kernel, clean, removesEdits (Or.inr orderly)⟩

/-- Once an edit is taken out alone, the places no longer tell: an edit that was there before any
session goes with one, and an edit that came in inside a session stays after its end. -/
theorem endEdit_removesEdits_misplaced :
    let fresh : Session ℚ := start (.withConfig .standard) .log
    let lost : List (Call ℚ) := [.newVariable none 0, .newVariable none 0, .newVariable none 0,
      .addEdit ⟨1⟩ .strong, .addEdit ⟨2⟩ .strong, .removeEdit ⟨1⟩, .beginEdit, .addEdit ⟨3⟩ .strong,
      .beginEdit]
    let left : List (Call ℚ) := [.newVariable none 0, .newVariable none 0, .addEdit ⟨1⟩ .strong,
      .beginEdit, .removeEdit ⟨1⟩, .addEdit ⟨2⟩ .strong, .beginEdit]
    let before := fresh.replay 8 lost
    let other := fresh.replay 8 left
    (∃ orderly : Prop, Tracked before [[], [⟨3⟩], [⟨2⟩]] orderly) ∧
      (perform .endEdit 8 before).state?.isSome = true ∧ (perform .endEdit 8 before).fault? = none ∧
      (before.replay 8 [.endEdit]).solver.edits.keys = [] ∧
      (∃ orderly : Prop, Tracked other [[], [⟨2⟩], []] orderly) ∧
      (perform .endEdit 8 other).state?.isSome = true ∧ (perform .endEdit 8 other).fault? = none ∧
      (other.replay 8 [.endEdit]).solver.edits.keys = [⟨2⟩] := by
  intro fresh lost left before other
  have lostLevels : trackAll 8 lost fresh [[]] = [[], [⟨3⟩], [⟨2⟩]] := by decide +kernel
  have leftLevels : trackAll 8 left fresh [[]] = [[], [⟨2⟩], []] := by decide +kernel
  refine ⟨⟨True ∧ KeepsOrder 8 lost fresh, ?_⟩, by decide +kernel, by decide +kernel,
    by decide +kernel, ⟨True ∧ KeepsOrder 8 left fresh, ?_⟩, by decide +kernel, by decide +kernel,
    by decide +kernel⟩
  · rw [← lostLevels]
    refine (Tracked.fresh _ _).replay ⟨⟨involves_newVariable _ _, ?_⟩, ⟨involves_newVariable _ _, ?_⟩,
      ⟨involves_newVariable _ _, ?_⟩, ⟨involves_of_protocol trivial, ?_⟩,
      ⟨involves_of_protocol trivial, ?_⟩, ⟨involves_of_protocol trivial, ?_⟩,
      ⟨involves_of_protocol trivial, ?_⟩, ⟨involves_of_protocol trivial, ?_⟩,
      ⟨involves_of_protocol trivial, ?_⟩, trivial⟩
    all_goals decide +kernel
  · rw [← leftLevels]
    refine (Tracked.fresh _ _).replay ⟨⟨involves_newVariable _ _, ?_⟩, ⟨involves_newVariable _ _, ?_⟩,
      ⟨involves_of_protocol trivial, ?_⟩, ⟨involves_of_protocol trivial, ?_⟩,
      ⟨involves_of_protocol trivial, ?_⟩, ⟨involves_of_protocol trivial, ?_⟩,
      ⟨involves_of_protocol trivial, ?_⟩, trivial⟩
    all_goals decide +kernel

end Session

end SoftSimplex
