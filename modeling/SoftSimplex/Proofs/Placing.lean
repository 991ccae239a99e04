import SoftSimplex.Proofs.Equations

/-!
Which symbol of an equation becomes basic. An unrestricted one does if there is any, else the first
restricted one that is vacant. Without either an artificial symbol has to help, unless the equation
is among dummies alone: then its constant contradicts it, or the last dummy without a column becomes
basic. One scan through the terms finds this out, in whatever order they come.
-/

namespace SoftSimplex

namespace Tableau

variable {K : Type} [Zero K] [LT K] [DecidableLT K] {tableau : Tableau K}

/-- A restricted symbol of an equation that can become basic at once: it takes up what the rest of
the equation amounts to, and no row mentions it but the main objective. -/
structure Vacant (tableau : Tableau K) (entry : Symbol × K) : Prop where
  restricted : entry.1.isRestricted = true
  notDummy : entry.1.isDummy = false
  negative : entry.2 < 0
  unused : tableau.hasColumn entry.1 = false ∨ tableau.column entry.1 = [.mainObjective]

/-- The policy for an equation, a case for each kind of equation. Whatever is not said to be negated
stays as it is. -/
structure Policy [One K] [Neg K] [Mul K] [Scalar K] (tableau : Tableau K) (row : Expression K)
    (choice : Option (Placement K)) : Prop where
  unrestricted : ∀ symbol ∈ row.symbols, symbol.isRestricted = false →
    ∃ subject ∈ row.symbols, subject.isRestricted = false ∧ choice = some (.direct subject row) ∧
      (tableau.hasColumn symbol = false → tableau.hasColumn subject = false)
  restricted : (∀ symbol ∈ row.symbols, symbol.isRestricted = true) →
    (∃ entry ∈ row.terms.entries, tableau.Vacant entry) →
    ∃ earlier subject value later, row.terms.entries = earlier ++ (subject, value) :: later ∧
      tableau.Vacant (subject, value) ∧ (∀ entry ∈ earlier, ¬ tableau.Vacant entry) ∧
      choice = some (.direct subject row)
  artificial : (∀ symbol ∈ row.symbols, symbol.isRestricted = true) →
    (∀ entry ∈ row.terms.entries, ¬ tableau.Vacant entry) →
    (∃ symbol ∈ row.symbols, symbol.isDummy = false) → choice = some (.artificial row)
  contradicted : (∀ symbol ∈ row.symbols, symbol.isDummy = true) →
    (choice = none ↔ Scalar.close row.constant 0 = false)
  dummy : (∀ symbol ∈ row.symbols, symbol.isDummy = true) → Scalar.close row.constant 0 = true →
    (∃ symbol ∈ row.symbols, tableau.hasColumn symbol = false) →
    ∃ earlier subject value later, row.terms.entries = earlier ++ (subject, value) :: later ∧
      tableau.hasColumn subject = false ∧ (∀ entry ∈ later, tableau.hasColumn entry.1 = true) ∧
      choice = some (.direct subject (if 0 < value then row.times (-1) else row))
  exhausted : (∀ symbol ∈ row.symbols, symbol.isDummy = true) →
    Scalar.close row.constant 0 = true → (∀ symbol ∈ row.symbols, tableau.hasColumn symbol = true) →
    choice = some (.artificial row)

omit [Zero K] [LT K] [DecidableLT K] in
theorem isUnused_iff (tableau : Tableau K) (symbol : Symbol) : tableau.isUnused symbol = true ↔
    tableau.hasColumn symbol = false ∨ tableau.column symbol = [.mainObjective] := by
  unfold isUnused hasColumn column Table.contains
  cases tableau.columns.get? symbol with
  | none => simp
  | some rows => simp

omit [DecidableLT K] in
theorem vacant_iff (tableau : Tableau K) (entry : Symbol × K) :
    tableau.Vacant entry ↔ entry.1.isRestricted = true ∧ tableau.SuitableSubject entry := by
  unfold SuitableSubject
  rw [isUnused_iff]
  exact ⟨fun vacant => ⟨vacant.restricted, vacant.notDummy, vacant.negative, vacant.unused⟩,
    fun ⟨restricted, notDummy, negative, unused⟩ => ⟨restricted, notDummy, negative, unused⟩⟩

/-! The scan -/

section Scanning

/-- What a candidate has ahead of the other terms that the scan has seen. -/
def Leads (tableau : Tableau K) (seen : List (Symbol × K)) : Candidate → Prop
  | .nothing => True
  | .restricted subject => ∃ earlier value later, seen = earlier ++ (subject, value) :: later ∧
    tableau.SuitableSubject (subject, value) ∧ ∀ entry ∈ earlier, ¬ tableau.SuitableSubject entry
  | .unrestricted subject => subject ∈ seen.map Prod.fst ∧ ∀ entry ∈ seen,
    entry.1.isRestricted = false → tableau.hasColumn entry.1 = false → entry.1 = subject
  | .settled subject => subject ∈ seen.map Prod.fst ∧ tableau.hasColumn subject = false

theorem leads_scanTerm {found : Candidate} {seen : List (Symbol × K)} (entry : Symbol × K)
    (describes : tableau.Describes seen found) (leads : tableau.Leads seen found) :
    tableau.Leads (seen ++ [entry]) (tableau.scanTerm found entry) := by
  have last : entry.1 ∈ (seen ++ [entry]).map Prod.fst := by simp
  have first : (∀ other ∈ seen, other.1.isRestricted = true) →
      tableau.Leads (seen ++ [entry]) (.unrestricted entry.1) := by
    refine fun restricted => ⟨last, List.forall_mem_append.mpr
      ⟨fun other member free => ?_, List.forall_mem_singleton.mpr fun _ _ => rfl⟩⟩
    rw [restricted other member] at free
    cases free
  cases found with
  | settled subject => exact ⟨by simpa using Or.inl (List.mem_map.mp leads.1), leads.2⟩
  | unrestricted subject =>
    unfold scanTerm
    dsimp only
    split
    · rename_i better
      exact ⟨last, (by simpa using better : _ ∧ tableau.hasColumn entry.1 = false).2⟩
    · rename_i noBetter
      refine ⟨by simpa using Or.inl (List.mem_map.mp leads.1), List.forall_mem_append.mpr
        ⟨leads.2, List.forall_mem_singleton.mpr fun free noColumn => absurd ?_ noBetter⟩⟩
      rw [free, noColumn]
      rfl
  | restricted subject =>
    unfold scanTerm
    dsimp only
    split
    · obtain ⟨earlier, value, later, rfl, suitable, passed⟩ := leads
      exact ⟨earlier, value, later ++ [entry], by simp, suitable, passed⟩
    · exact first describes.1
  | nothing =>
    unfold scanTerm
    dsimp only
    split
    · exact first fun other member => (describes other member).1
    · split
      · rename_i fit
        exact ⟨seen, entry.2, [], rfl, ⟨by simpa using fit.1, fit.2⟩,
          fun other member => (describes other member).2⟩
      · trivial

theorem leads_foldl_scanTerm {found : Candidate} {seen : List (Symbol × K)}
    (entries : List (Symbol × K)) (describes : tableau.Describes seen found)
    (leads : tableau.Leads seen found) :
    tableau.Leads (seen ++ entries) (entries.foldl tableau.scanTerm found) := by
  induction entries generalizing found seen with
  | nil => simpa using leads
  | cons entry rest ih =>
    have scanned := ih (describes_scanTerm entry describes) (leads_scanTerm entry describes leads)
    rwa [List.append_assoc, List.singleton_append] at scanned

variable (tableau) (row : Expression K)

theorem readySubject_scanned : ∃ found : Candidate, tableau.readySubject? row = found.symbol? ∧
    tableau.Describes row.terms.entries found ∧ tableau.Leads row.terms.entries found := by
  have nothing : tableau.Describes [] .nothing := nofun
  exact ⟨_, rfl, tableau.describes_foldl_scanTerm row.terms.entries nothing,
    tableau.leads_foldl_scanTerm row.terms.entries nothing trivial⟩

variable {tableau row}

theorem readySubject_unrestricted {symbol : Symbol} (member : symbol ∈ row.symbols)
    (free : symbol.isRestricted = false) :
    ∃ subject ∈ row.symbols, subject.isRestricted = false ∧
      tableau.readySubject? row = some subject ∧
      (tableau.hasColumn symbol = false → tableau.hasColumn subject = false) := by
  obtain ⟨entry, isEntry, rfl⟩ := List.mem_map.mp member
  obtain ⟨found, ready, describes, leads⟩ := tableau.readySubject_scanned row
  have notAll : ¬ ∀ other ∈ row.terms.entries, other.1.isRestricted = true := by
    intro restricted
    rw [restricted entry isEntry] at free
    cases free
  cases found with
  | nothing => exact absurd (fun other inRow => (describes other inRow).1) notAll
  | restricted _ => exact absurd describes.1 notAll
  | unrestricted subject =>
    refine ⟨subject, leads.1, describes, ready, fun noColumn => ?_⟩
    rw [← leads.2 entry isEntry free noColumn]
    exact noColumn
  | settled subject => exact ⟨subject, leads.1, describes, ready, fun _ => leads.2⟩

theorem readySubject_restricted (restricted : ∀ symbol ∈ row.symbols, symbol.isRestricted = true)
    {entry : Symbol × K} (isEntry : entry ∈ row.terms.entries) (vacant : tableau.Vacant entry) :
    ∃ earlier subject value later, row.terms.entries = earlier ++ (subject, value) :: later ∧
      tableau.Vacant (subject, value) ∧ (∀ other ∈ earlier, ¬ tableau.Vacant other) ∧
      tableau.readySubject? row = some subject := by
  obtain ⟨found, ready, describes, leads⟩ := tableau.readySubject_scanned row
  have notFree : ∀ subject ∈ row.symbols, subject.isRestricted ≠ false := by
    intro subject member free
    rw [restricted subject member] at free
    cases free
  cases found with
  | nothing => exact absurd ((vacant_iff _ _).mp vacant).2 (describes entry isEntry).2
  | restricted subject =>
    obtain ⟨earlier, value, later, split, suitable, passed⟩ := leads
    have chosen : (subject, value) ∈ row.terms.entries := by
      rw [split]
      exact List.mem_append_right earlier List.mem_cons_self
    exact ⟨earlier, subject, value, later, split,
      (vacant_iff _ _).mpr ⟨describes.1 _ chosen, suitable⟩,
      fun other isEarlier fits => passed other isEarlier ((vacant_iff _ _).mp fits).2, ready⟩
  | unrestricted subject => exact absurd describes (notFree subject leads.1)
  | settled subject => exact absurd describes (notFree subject leads.1)

theorem readySubject_none (restricted : ∀ symbol ∈ row.symbols, symbol.isRestricted = true)
    (noneVacant : ∀ entry ∈ row.terms.entries, ¬ tableau.Vacant entry) :
    tableau.readySubject? row = none := by
  cases ready : tableau.readySubject? row with
  | none => rfl
  | some subject =>
    rcases readySubject_cases ready with free | ⟨_, value, isEntry, suitable⟩
    · rw [restricted subject (readySubject_mem ready)] at free
      cases free
    · have member := Expression.mem_symbols_of_mem_entries isEntry
      exact absurd ((vacant_iff _ _).mpr ⟨restricted _ member, suitable⟩) (noneVacant _ isEntry)

end Scanning

/-! Dummies -/

section Dummies

variable {row : Expression K}

theorem readySubject_none_of_dummies (dummies : ∀ symbol ∈ row.symbols, symbol.isDummy = true) :
    tableau.readySubject? row = none := by
  refine readySubject_none (fun symbol member => ?_) fun entry isEntry vacant => ?_
  · have isDummy := dummies symbol member
    rcases symbol with ⟨id, kind⟩
    cases kind <;> first | rfl | cases isDummy
  · have isDummy := dummies entry.1 (Expression.mem_symbols_of_mem_entries isEntry)
    rw [vacant.notDummy] at isDummy
    cases isDummy

omit [Zero K] [LT K] [DecidableLT K] in
theorem freshDummy_last {subject : Symbol} {value : K}
    (chosen : tableau.freshDummy? row = some (subject, value)) :
    ∃ earlier later, row.terms.entries = earlier ++ (subject, value) :: later ∧
      tableau.hasColumn subject = false ∧ ∀ entry ∈ later, tableau.hasColumn entry.1 = true := by
  obtain ⟨others, filtered⟩ := List.getLast?_eq_some_iff.mp chosen
  obtain ⟨front, back, split, _, last⟩ := List.filter_eq_append_iff.mp filtered
  obtain ⟨between, later, rest, _, noColumn, nothing⟩ := List.filter_eq_cons_iff.mp last
  refine ⟨front ++ between, later, by rw [split, rest, List.append_assoc], ?_, ?_⟩
  · simpa using noColumn
  · simpa using nothing

omit [Zero K] [LT K] [DecidableLT K] in
theorem freshDummy_eq_none : tableau.freshDummy? row = none ↔
    ∀ symbol ∈ row.symbols, tableau.hasColumn symbol = true := by
  simp [freshDummy?, Expression.symbols, Table.keys]

end Dummies

/-! The policy -/

section Choosing

variable [One K] [Neg K] [Mul K] [Scalar K] {row : Expression K}

theorem choosePlacement_of_ready {subject : Symbol}
    (ready : tableau.readySubject? row = some subject) :
    tableau.choosePlacement? row = some (.direct subject row) := by
  simp only [choosePlacement?, ready]

theorem choosePlacement_of_dummies (dummies : ∀ symbol ∈ row.symbols, symbol.isDummy = true) :
    tableau.choosePlacement? row =
      if Scalar.close row.constant 0 then
        match tableau.freshDummy? row with
        | none => some (.artificial row)
        | some (subject, value) =>
          some (.direct subject (if 0 < value then row.times (-1) else row))
      else none := by
  have all : row.symbols.all (·.isDummy) = true := List.all_eq_true.mpr dummies
  simp only [choosePlacement?, readySubject_none_of_dummies dummies, all]
  cases Scalar.close row.constant 0 <;> rfl

/-- Whatever the numbers are, the placement of an equation follows the policy. -/
theorem choosePlacement_policy (tableau : Tableau K) (row : Expression K) :
    tableau.Policy row (tableau.choosePlacement? row) := by
  constructor
  case unrestricted =>
    intro symbol member free
    obtain ⟨subject, inRow, subjectFree, ready, better⟩ :=
      tableau.readySubject_unrestricted member free
    exact ⟨subject, inRow, subjectFree, choosePlacement_of_ready ready, better⟩
  case restricted =>
    rintro restricted ⟨entry, isEntry, vacant⟩
    obtain ⟨earlier, subject, value, later, split, first, passed, ready⟩ :=
      readySubject_restricted restricted isEntry vacant
    exact ⟨earlier, subject, value, later, split, first, passed, choosePlacement_of_ready ready⟩
  case artificial =>
    rintro restricted noneVacant ⟨symbol, member, notDummy⟩
    have notReady := readySubject_none restricted noneVacant
    have others : row.symbols.all (·.isDummy) = false :=
      List.all_eq_false.mpr ⟨symbol, member, by simp [notDummy]⟩
    simp [choosePlacement?, notReady, others]
  case contradicted =>
    intro dummies
    rw [choosePlacement_of_dummies dummies]
    cases Scalar.close row.constant 0 with
    | false => simp
    | true => cases tableau.freshDummy? row <;> simp
  case dummy =>
    rintro dummies close ⟨symbol, member, noColumn⟩
    rw [choosePlacement_of_dummies dummies, close, if_pos rfl]
    cases chosen : tableau.freshDummy? row with
    | none =>
      rw [freshDummy_eq_none.mp chosen symbol member] at noColumn
      cases noColumn
    | some entry =>
      obtain ⟨earlier, later, split, free, used⟩ := freshDummy_last chosen
      exact ⟨earlier, entry.1, entry.2, later, split, free, used, rfl⟩
  case exhausted =>
    intro dummies close used
    rw [choosePlacement_of_dummies dummies, close, if_pos rfl, freshDummy_eq_none.mpr used]

end Choosing

end Tableau

end SoftSimplex
