import SoftSimplex.Proofs.Upkeep

/-!
The equation of a constraint and the symbol that it is solved for. The equation is over parametric
symbols and over symbols made for the constraint, and the chosen symbol is one of them.
-/

namespace SoftSimplex

namespace Tableau

variable {K : Type} [Add K] [Mul K] [Scalar K]

section Reducing

variable {tableau : Tableau K}

theorem mem_symbols_of_addReduced (indexed : tableau.Indexed) {row : Expression K}
    {entry : Symbol × K} {symbol : Symbol} (member : symbol ∈ (tableau.addReduced row entry).symbols) :
    symbol ∈ row.symbols ∨ tableau.isBasic symbol = false ∧
      (symbol = entry.1 ∨ tableau.hasColumn symbol = true) := by
  unfold addReduced at member
  split at member
  · rename_i definition found
    refine (Expression.mem_symbols_of_addScaledReporting member).imp_right fun defines => ?_
    exact ⟨indexed.not_basic_of_mem found defines,
      Or.inr (indexed.hasColumn_of_occurs ⟨definition, found, defines⟩)⟩
  · rename_i missing
    rcases Expression.mem_symbols_of_addTerm member with rfl | old
    · exact Or.inr ⟨(tableau.not_isBasic_iff entry.1).mpr missing, Or.inl rfl⟩
    · exact Or.inl old

theorem mem_symbols_of_foldl_addReduced (indexed : tableau.Indexed) {entries : List (Symbol × K)}
    {row : Expression K} {symbol : Symbol}
    (member : symbol ∈ (entries.foldl tableau.addReduced row).symbols) :
    symbol ∈ row.symbols ∨ tableau.isBasic symbol = false ∧
      (symbol ∈ entries.map Prod.fst ∨ tableau.hasColumn symbol = true) := by
  induction entries generalizing row with
  | nil => exact Or.inl member
  | cons entry rest ih =>
    rcases ih member with earlier | ⟨notBasic, later | column⟩
    · rcases mem_symbols_of_addReduced indexed earlier with old | ⟨notBasic, same | column⟩
      · exact Or.inl old
      · exact Or.inr ⟨notBasic, Or.inl (by simp [same])⟩
      · exact Or.inr ⟨notBasic, Or.inr column⟩
    · exact Or.inr ⟨notBasic, Or.inl (List.mem_cons_of_mem _ later)⟩
    · exact Or.inr ⟨notBasic, Or.inr column⟩

theorem mem_symbols_of_reduce (indexed : tableau.Indexed) {expression : Expression K}
    {symbol : Symbol} (member : symbol ∈ (tableau.reduce expression).symbols) :
    tableau.isBasic symbol = false ∧
      (symbol ∈ expression.symbols ∨ tableau.hasColumn symbol = true) :=
  (mem_symbols_of_foldl_addReduced indexed member).resolve_left List.not_mem_nil

end Reducing

section Forming

variable [Zero K] [One K] [Neg K] {tableau : Tableau K} {start : Nat} {demand : Demand K}

theorem mem_symbols_of_rawEquation {symbol : Symbol}
    (member : symbol ∈ (tableau.rawEquation start demand).row.symbols) :
    symbol ∈ (tableau.reduce demand.expression).symbols ∨
      (symbol.kind = .slack ∨ symbol.kind = .dummy) ∧ start ≤ symbol.id ∧
        symbol.id < start + demand.width := by
  unfold rawEquation at member
  cases inequality : demand.isInequality <;> cases required : demand.isRequired <;>
    simp only [inequality, required] at member
  · rcases Expression.mem_symbols_of_setTerm member with rfl | member
    · exact Or.inr ⟨Or.inl rfl, by simp, by simp [Demand.width, required]⟩
    rcases Expression.mem_symbols_of_setTerm member with rfl | member
    · exact Or.inr ⟨Or.inl rfl, by simp, by simp [Demand.width, required]⟩
    · exact Or.inl member
  · rcases Expression.mem_symbols_of_setTerm member with rfl | member
    · exact Or.inr ⟨Or.inr rfl, by simp, by simp [Demand.width, required]⟩
    · exact Or.inl member
  · rcases Expression.mem_symbols_of_setTerm member with rfl | member
    · exact Or.inr ⟨Or.inl rfl, by simp, by simp [Demand.width, required]⟩
    rcases Expression.mem_symbols_of_setTerm member with rfl | member
    · exact Or.inr ⟨Or.inl rfl, by simp, by simp [Demand.width, required]⟩
    · exact Or.inl member
  · rcases Expression.mem_symbols_of_setTerm member with rfl | member
    · exact Or.inr ⟨Or.inl rfl, by simp, by simp [Demand.width, required]⟩
    · exact Or.inl member

variable [LT K] [DecidableLT K]

theorem symbols_equationOf (tableau : Tableau K) (start : Nat) (demand : Demand K) :
    (tableau.equationOf start demand).row.symbols =
      (tableau.rawEquation start demand).row.symbols := by
  unfold equationOf
  dsimp only
  split
  · exact Expression.symbols_times _ _
  · rfl

theorem mem_symbols_of_equationOf (fits : tableau.Fits start) (external : demand.External)
    {symbol : Symbol} (member : symbol ∈ (tableau.equationOf start demand).row.symbols) :
    tableau.isBasic symbol = false ∧ (symbol.isExternal = true ∨
      (symbol.kind = .slack ∨ symbol.kind = .dummy) ∧ symbol.id < start + demand.width) := by
  rw [symbols_equationOf] at member
  rcases mem_symbols_of_rawEquation member with reduced | ⟨kind, later, bounded⟩
  · obtain ⟨notBasic, origin⟩ := mem_symbols_of_reduce fits.indexed reduced
    refine ⟨notBasic, ?_⟩
    rcases origin with mentioned | column
    · exact Or.inl (external symbol mentioned)
    · refine (fits.known_of_column column).imp_right fun made => ⟨made.1, ?_⟩
      omega
  · refine ⟨(fits.fresh later ?_ ?_).1, Or.inr ⟨kind, bounded⟩⟩
    · rintro rfl
      rcases kind with kind | kind <;> cases kind
    · rcases kind with kind | kind <;> exact Symbol.internal_of_kind kind rfl

end Forming

section Choosing

omit [Add K] [Mul K] [Scalar K]

variable [Zero K] [LT K] [DecidableLT K] {tableau : Tableau K}

theorem symbol_of_scanTerm {found : Candidate} {entry : Symbol × K} {symbol : Symbol}
    (chosen : (tableau.scanTerm found entry).symbol? = some symbol) :
    found.symbol? = some symbol ∨ symbol = entry.1 := by
  unfold scanTerm at chosen
  split at chosen
  · exact Or.inl chosen
  · split at chosen
    · exact Or.inr (Option.some.inj chosen).symm
    · exact Or.inl chosen
  · split at chosen
    · exact Or.inl chosen
    · exact Or.inr (Option.some.inj chosen).symm
  · split at chosen
    · exact Or.inr (Option.some.inj chosen).symm
    · split at chosen
      · exact Or.inr (Option.some.inj chosen).symm
      · cases chosen

theorem symbol_of_foldl_scanTerm {found : Candidate} {entries : List (Symbol × K)} {symbol : Symbol}
    (chosen : (entries.foldl tableau.scanTerm found).symbol? = some symbol) :
    found.symbol? = some symbol ∨ symbol ∈ entries.map Prod.fst := by
  induction entries generalizing found with
  | nil => exact Or.inl chosen
  | cons entry rest ih =>
    rcases ih chosen with earlier | later
    · exact (symbol_of_scanTerm earlier).imp_right fun same => by simp [same]
    · exact Or.inr (List.mem_cons_of_mem _ later)

theorem readySubject_mem {row : Expression K} {subject : Symbol}
    (chosen : tableau.readySubject? row = some subject) : subject ∈ row.symbols :=
  (symbol_of_foldl_scanTerm chosen).resolve_left nofun

def SuitableSubject (tableau : Tableau K) (entry : Symbol × K) : Prop :=
  entry.1.isDummy = false ∧ entry.2 < 0 ∧ tableau.isUnused entry.1 = true

def Describes (tableau : Tableau K) (seen : List (Symbol × K)) : Candidate → Prop
  | .nothing => ∀ entry ∈ seen, entry.1.isRestricted = true ∧ ¬ tableau.SuitableSubject entry
  | .restricted symbol => (∀ entry ∈ seen, entry.1.isRestricted = true) ∧
    ∃ value, (symbol, value) ∈ seen ∧ tableau.SuitableSubject (symbol, value)
  | .unrestricted symbol | .settled symbol => symbol.isRestricted = false

theorem describes_scanTerm {found : Candidate} {seen : List (Symbol × K)} (entry : Symbol × K)
    (describes : tableau.Describes seen found) :
    tableau.Describes (seen ++ [entry]) (tableau.scanTerm found entry) := by
  cases found with
  | settled symbol => exact describes
  | unrestricted symbol =>
    unfold scanTerm
    dsimp only
    split
    · rename_i better
      exact (by simpa using better : entry.1.isRestricted = false ∧ _).1
    · exact describes
  | restricted symbol =>
    unfold scanTerm
    dsimp only
    split
    · rename_i restricted
      obtain ⟨others, value, member, suitable⟩ := describes
      exact ⟨List.forall_mem_append.mpr ⟨others, List.forall_mem_singleton.mpr restricted⟩,
        value, List.mem_append_left _ member, suitable⟩
    · rename_i unrestricted
      exact (by simpa using unrestricted : entry.1.isRestricted = false)
  | nothing =>
    unfold scanTerm
    dsimp only
    split
    · rename_i unrestricted
      exact (by simpa using unrestricted : entry.1.isRestricted = false)
    · rename_i isRestricted
      have restricted : entry.1.isRestricted = true := by simpa using isRestricted
      split
      · rename_i fit
        have others := fun other member => (describes other member).1
        exact ⟨List.forall_mem_append.mpr ⟨others, List.forall_mem_singleton.mpr restricted⟩,
          entry.2, List.mem_append_right _ List.mem_cons_self, by simpa using fit.1, fit.2⟩
      · rename_i unfit
        refine List.forall_mem_append.mpr ⟨describes, List.forall_mem_singleton.mpr ?_⟩
        refine ⟨restricted, fun suitable => unfit ⟨?_, suitable.2⟩⟩
        simpa using suitable.1

theorem describes_foldl_scanTerm {found : Candidate} {seen : List (Symbol × K)}
    (entries : List (Symbol × K)) (describes : tableau.Describes seen found) :
    tableau.Describes (seen ++ entries) (entries.foldl tableau.scanTerm found) := by
  induction entries generalizing found seen with
  | nil => simpa using describes
  | cons entry rest ih =>
    have scanned := ih (describes_scanTerm entry describes)
    rwa [List.append_assoc, List.singleton_append] at scanned

theorem readySubject_cases {row : Expression K} {subject : Symbol}
    (chosen : tableau.readySubject? row = some subject) :
    subject.isRestricted = false ∨ (∀ symbol ∈ row.symbols, symbol.isRestricted = true) ∧
      ∃ value, (subject, value) ∈ row.terms.entries ∧ tableau.SuitableSubject (subject, value) := by
  have describes := tableau.describes_foldl_scanTerm row.terms.entries
    (show tableau.Describes [] .nothing from nofun)
  unfold readySubject? at chosen
  rw [List.nil_append] at describes
  revert chosen
  revert describes
  cases row.terms.entries.foldl tableau.scanTerm .nothing with
  | nothing => exact nofun
  | restricted symbol =>
    rintro describes ⟨⟩
    refine Or.inr ⟨?_, describes.2⟩
    intro symbol member
    obtain ⟨entry, isEntry, rfl⟩ := List.mem_map.mp member
    exact describes.1 entry isEntry
  | unrestricted symbol =>
    rintro describes ⟨⟩
    exact Or.inl describes
  | settled symbol =>
    rintro describes ⟨⟩
    exact Or.inl describes

theorem restricted_of_not_ready {row : Expression K} (notReady : tableau.readySubject? row = none) :
    ∀ entry ∈ row.terms.entries, entry.1.isRestricted = true ∧ ¬ tableau.SuitableSubject entry := by
  have describes := tableau.describes_foldl_scanTerm row.terms.entries
    (show tableau.Describes [] .nothing from nofun)
  unfold readySubject? at notReady
  rw [List.nil_append] at describes
  revert notReady
  revert describes
  cases row.terms.entries.foldl tableau.scanTerm .nothing with
  | nothing => exact fun describes _ => describes
  | restricted symbol => exact nofun
  | unrestricted symbol => exact nofun
  | settled symbol => exact nofun

theorem enclosed_of_not_ready {row : Expression K} (notReady : tableau.readySubject? row = none) :
    ∀ symbol ∈ row.symbols, symbol.isRestricted = true := by
  intro symbol member
  obtain ⟨entry, isEntry, rfl⟩ := List.mem_map.mp member
  exact (restricted_of_not_ready notReady entry isEntry).1

omit [Zero K] [LT K] [DecidableLT K] in
theorem objective_of_isUnused {symbol basic : Symbol} (unused : tableau.isUnused symbol = true)
    (member : basic ∈ tableau.column symbol) : basic = .mainObjective := by
  unfold isUnused at unused
  unfold column at member
  split at unused
  · rename_i missing
    rw [missing] at member
    cases member
  · rename_i rows found
    rw [found] at member
    have keys : rows.keys = [.mainObjective] := by simpa using unused
    simpa [keys] using member

variable [One K] [Neg K] [Mul K] [Scalar K]

inductive Chooses (tableau : Tableau K) (row : Expression K) : Placement K → Prop
  | ready {subject : Symbol} (chosen : tableau.readySubject? row = some subject) :
      Chooses tableau row (.direct subject row)
  | dummy {subject : Symbol} {value : K} (notReady : tableau.readySubject? row = none)
      (dummies : row.symbols.all (·.isDummy) = true) (zero : Scalar.close row.constant 0 = true)
      (chosen : tableau.freshDummy? row = some (subject, value)) :
      Chooses tableau row (.direct subject (if 0 < value then row.times (-1) else row))
  | artificial (notReady : tableau.readySubject? row = none)
      (remains : row.symbols.all (·.isDummy) = false ∨
        Scalar.close row.constant 0 = true ∧ tableau.freshDummy? row = none) :
      Chooses tableau row (.artificial row)

theorem chooses_of_choosePlacement {row : Expression K} {placement : Placement K}
    (chosen : tableau.choosePlacement? row = some placement) : tableau.Chooses row placement := by
  unfold choosePlacement? at chosen
  split at chosen
  · rename_i subject ready
    cases chosen
    exact .ready ready
  · rename_i notReady
    split at chosen
    · rename_i others
      cases chosen
      exact .artificial notReady (Or.inl (by simpa using others))
    · rename_i dummies
      split at chosen
      · cases chosen
      · rename_i zero
        have isZero : Scalar.close row.constant 0 = true := by simpa using zero
        split at chosen
        · rename_i missing
          cases chosen
          exact .artificial notReady (Or.inr ⟨isZero, missing⟩)
        · rename_i subject value fresh
          cases chosen
          exact .dummy notReady (by simpa using dummies) isZero fresh

omit [Zero K] [LT K] [DecidableLT K] [One K] [Neg K] [Mul K] [Scalar K] in
theorem freshDummy_mem {row : Expression K} {subject : Symbol} {value : K}
    (chosen : tableau.freshDummy? row = some (subject, value)) :
    (subject, value) ∈ row.terms.entries ∧ tableau.hasColumn subject = false := by
  obtain ⟨member, noColumn⟩ := List.mem_filter.mp (List.mem_of_getLast? chosen)
  exact ⟨member, by simpa using noColumn⟩

theorem Chooses.symbols {row : Expression K} {placement : Placement K}
    (chooses : tableau.Chooses row placement) :
    match placement with
    | .direct subject placed => placed.symbols = row.symbols ∧ subject ∈ row.symbols
    | .artificial placed => placed = row := by
  cases chooses with
  | ready chosen => exact ⟨rfl, readySubject_mem chosen⟩
  | dummy _ _ _ chosen =>
    refine ⟨?_, Expression.mem_symbols_of_mem_entries (freshDummy_mem chosen).1⟩
    split
    · exact Expression.symbols_times _ _
    · rfl
  | artificial _ _ => rfl

end Choosing

end Tableau

end SoftSimplex
