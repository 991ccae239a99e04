import Mathlib.Data.Finset.Dedup
import Mathlib.Data.Finset.Erase
import Mathlib.Data.Finset.Insert
import SoftSimplex.Proofs.Symbols

/-!
Reports of the symbols that came and went. A report recounts how one set of symbols became another
if it names each symbol that came or went, once, and no other; whoever replays it on the first set
then has the second. Sums and substitutions report in this way, whatever the numbers are.
-/

namespace SoftSimplex

namespace TermChange

def apply (change : TermChange) (symbol : Symbol) (known : Finset Symbol) : Finset Symbol :=
  match change with
  | inserted => insert symbol known
  | removed => known.erase symbol
  | updated | unchanged => known

def FitsPresence (change : TermChange) (before : Prop) : Prop :=
  match change with
  | inserted | unchanged => ¬ before
  | removed | updated => before

theorem mem_apply (change : TermChange) (symbol other : Symbol) (known : Finset Symbol) :
    other ∈ change.apply symbol known ↔
      if other = symbol then change.after (symbol ∈ known) else other ∈ known := by
  cases change <;> by_cases same : other = symbol <;> simp [apply, after, same]

theorem isVisible_iff (change : TermChange) :
    change.isVisible = true ↔ change = inserted ∨ change = removed := by
  cases change <;> simp [isVisible]

theorem apply_of_hidden {change : TermChange} (hidden : ¬ change.isVisible = true)
    (symbol : Symbol) (known : Finset Symbol) : change.apply symbol known = known := by
  cases change with
  | inserted | removed => exact absurd rfl hidden
  | updated | unchanged => rfl

namespace Report

def replay (report : Report) (known : Finset Symbol) : Finset Symbol :=
  report.foldl (fun current entry => entry.2.apply entry.1 current) known

/-- A report says how one set of symbols became another. -/
structure Recounts (report : Report) (before after : Finset Symbol) : Prop where
  once : (report.map Prod.fst).Nodup
  visible : ∀ entry ∈ report, entry.2 = inserted ∨ entry.2 = removed
  inserts : ∀ symbol, (symbol, inserted) ∈ report ↔ symbol ∉ before ∧ symbol ∈ after
  removes : ∀ symbol, (symbol, removed) ∈ report ↔ symbol ∈ before ∧ symbol ∉ after
  replays : report.replay before = after

variable {report : Report} {symbol : Symbol} {known : Finset Symbol}

theorem mem_replay_of_unnamed (unnamed : symbol ∉ report.map Prod.fst) :
    symbol ∈ report.replay known ↔ symbol ∈ known := by
  induction report generalizing known with
  | nil => rfl
  | cons entry rest ih =>
    rw [List.map_cons, List.mem_cons, not_or] at unnamed
    refine (ih unnamed.2).trans ?_
    rw [mem_apply, if_neg unnamed.1]

theorem mem_replay_of_mem {change : TermChange} (once : (report.map Prod.fst).Nodup)
    (member : (symbol, change) ∈ report) :
    symbol ∈ report.replay known ↔ change.after (symbol ∈ known) := by
  induction report generalizing known with
  | nil => cases member
  | cons entry rest ih =>
    rw [List.map_cons, List.nodup_cons] at once
    rcases List.mem_cons.mp member with here | later
    · subst here
      refine (mem_replay_of_unnamed once.1).trans ?_
      rw [mem_apply, if_pos rfl]
    · have different : symbol ≠ entry.1 := fun same =>
        once.1 (same ▸ List.mem_map_of_mem later)
      have untouched : symbol ∈ entry.2.apply entry.1 known ↔ symbol ∈ known := by
        rw [mem_apply, if_neg different]
      rw [← untouched]
      exact ih once.2 later

theorem exists_mem_of_moved (moved : ¬ (symbol ∈ report.replay known ↔ symbol ∈ known)) :
    ∃ change, (symbol, change) ∈ report := by
  by_contra unnamed
  refine moved (mem_replay_of_unnamed fun named => unnamed ?_)
  obtain ⟨entry, member, rfl⟩ := List.mem_map.mp named
  exact ⟨entry.2, member⟩

theorem recounts_replay (once : (report.map Prod.fst).Nodup)
    (visible : ∀ entry ∈ report, entry.2 = inserted ∨ entry.2 = removed)
    (fitsPresence : ∀ entry ∈ report, entry.2.FitsPresence (entry.1 ∈ known)) :
    report.Recounts known (report.replay known) where
  once := once
  visible := visible
  inserts symbol := by
    constructor
    · intro member
      exact ⟨fitsPresence _ member, (mem_replay_of_mem once member).mpr trivial⟩
    · rintro ⟨absent, present⟩
      obtain ⟨change, member⟩ := exists_mem_of_moved fun same => absent (same.mp present)
      rcases visible _ member with rfl | rfl
      · exact member
      · exact absurd (fitsPresence _ member) absent
  removes symbol := by
    constructor
    · intro member
      exact ⟨fitsPresence _ member, fun kept => (mem_replay_of_mem once member).mp kept⟩
    · rintro ⟨present, absent⟩
      obtain ⟨change, member⟩ := exists_mem_of_moved fun same => absent (same.mpr present)
      rcases visible _ member with rfl | rfl
      · exact absurd present (fitsPresence _ member)
      · exact member
  replays := rfl

end Report

end TermChange

namespace Expression

open TermChange (Report)

variable {K : Type}

def occurring (expression : Expression K) : Finset Symbol := expression.symbols.toFinset

theorem mem_occurring {expression : Expression K} {symbol : Symbol} :
    symbol ∈ expression.occurring ↔ symbol ∈ expression.symbols :=
  List.mem_toFinset

theorem occurring_removeTerm (expression : Expression K) (symbol : Symbol) :
    (expression.removeTerm symbol).occurring = expression.occurring.erase symbol := by
  ext other
  rw [mem_occurring, mem_symbols_removeTerm, Finset.mem_erase, mem_occurring]

variable [Add K] [Scalar K]

theorem occurring_addTerm (expression : Expression K) (symbol : Symbol) (amount : K) :
    (expression.addTerm symbol amount).1.occurring =
      (expression.addTerm symbol amount).2.apply symbol expression.occurring := by
  ext other
  rw [mem_occurring, mem_symbols_addTerm, TermChange.mem_apply, mem_occurring, mem_occurring]

theorem fitsPresence_addTerm (expression : Expression K) (symbol : Symbol) (amount : K) :
    (expression.addTerm symbol amount).2.FitsPresence (symbol ∈ expression.occurring) := by
  rw [mem_occurring]
  unfold addTerm
  split
  · rename_i present found
    have occurs : symbol ∈ expression.symbols := Table.mem_keys_of_get? found
    split <;> exact occurs
  · rename_i absent
    have missing : symbol ∉ expression.symbols := (expression.not_mem_symbols_iff symbol).mpr absent
    split <;> exact missing

variable [Mul K] (factor : K) (added : List (Symbol × K)) (expression : Expression K)

theorem reported_sublist :
    ((addTerms factor added expression).2.map Prod.fst).Sublist (added.map Prod.fst) := by
  induction added generalizing expression with
  | nil => exact List.Sublist.refl []
  | cons entry rest ih =>
    simp only [addTerms]
    split
    · exact (ih _).cons_cons entry.1
    · exact (ih _).cons entry.1

theorem visible_of_reported : ∀ entry ∈ (addTerms factor added expression).2,
    entry.2 = .inserted ∨ entry.2 = .removed := by
  induction added generalizing expression with
  | nil => nofun
  | cons entry rest ih =>
    simp only [addTerms]
    split
    · rename_i visible
      exact List.forall_mem_cons.mpr ⟨(TermChange.isVisible_iff _).mp visible, ih _⟩
    · exact ih _

theorem occurring_addTerms :
    (addTerms factor added expression).1.occurring =
      (addTerms factor added expression).2.replay expression.occurring := by
  induction added generalizing expression with
  | nil => rfl
  | cons entry rest ih =>
    simp only [addTerms]
    rw [ih, occurring_addTerm]
    split
    · rfl
    · rename_i hidden
      rw [TermChange.apply_of_hidden hidden]

variable {added} in
theorem fitsPresence_of_reported (distinct : (added.map Prod.fst).Nodup) :
    ∀ entry ∈ (addTerms factor added expression).2,
      entry.2.FitsPresence (entry.1 ∈ expression.occurring) := by
  induction added generalizing expression with
  | nil => nofun
  | cons head rest ih =>
    rw [List.map_cons, List.nodup_cons] at distinct
    have later : ∀ entry ∈
        (addTerms factor rest (expression.addTerm head.1 (head.2 * factor)).1).2,
        entry.2.FitsPresence (entry.1 ∈ expression.occurring) := by
      intro entry member
      have different : entry.1 ≠ head.1 := fun same =>
        distinct.1 (same ▸ (reported_sublist factor rest _).subset (List.mem_map_of_mem member))
      have fits := ih (expression.addTerm head.1 (head.2 * factor)).1 distinct.2 entry member
      rwa [occurring_addTerm, TermChange.mem_apply, if_neg different] at fits
    simp only [addTerms]
    split
    · exact List.forall_mem_cons.mpr ⟨fitsPresence_addTerm expression head.1 _, later⟩
    · exact later

variable {factor expression}

theorem recounts_addScaledReporting (other : Expression K) :
    (expression.addScaledReporting other factor).2.Recounts expression.occurring
      (expression.addScaledReporting other factor).1.occurring := by
  unfold addScaledReporting
  rw [occurring_addTerms]
  exact Report.recounts_replay ((reported_sublist ..).nodup other.terms.distinct)
    (visible_of_reported _ _ _) (fitsPresence_of_reported _ _ other.terms.distinct)

/-- What a sum or a substitution reports is what has become of the symbols. A substitution starts
from the expression without the replaced symbol, which the replacement may bring back. -/
theorem reports_recount (expression other : Expression K) (factor : K) (symbol : Symbol) :
    let (sum, added) := expression.addScaledReporting other factor
    let replaced := expression.substituteReporting? symbol other
    let (result, exchanged) := replaced.getD (expression, [])
    added.Recounts expression.occurring sum.occurring ∧
      (replaced.isSome = true ↔ symbol ∈ expression.occurring) ∧
      exchanged.Recounts (expression.occurring.erase symbol) result.occurring := by
  refine ⟨recounts_addScaledReporting other, ?_⟩
  unfold substituteReporting?
  cases found : expression.terms.get? symbol with
  | none =>
    have missing : symbol ∉ expression.occurring := fun member =>
      (expression.not_mem_symbols_iff symbol).mpr found (mem_occurring.mp member)
    refine ⟨⟨nofun, fun member => absurd member missing⟩, ?_⟩
    rw [Finset.erase_eq_of_notMem missing]
    exact Report.recounts_replay List.nodup_nil nofun nofun
  | some value =>
    have occurs : symbol ∈ expression.occurring := mem_occurring.mpr (Table.mem_keys_of_get? found)
    refine ⟨⟨fun _ => occurs, fun _ => rfl⟩, ?_⟩
    rw [← occurring_removeTerm]
    exact recounts_addScaledReporting other

/-- The replaced symbol comes back with its replacement, and the variable beside it vanishes. -/
example :
    letI : Scalar Int := ⟨(· == 0), (· == ·), (· < 0), fun _ => true, 1000⟩
    let slack : Symbol := ⟨1, .slack⟩
    let length : Symbol := ⟨2, .external⟩
    let start : Expression Int := ((ofSymbol slack 1).addTerm length 1).1
    let replacement : Expression Int := ((ofSymbol slack 2).addTerm length (-1)).1
    (start.substituteReporting? slack replacement).map Prod.snd =
      some [(slack, .inserted), (length, .removed)] := by
  decide

end Expression

end SoftSimplex
