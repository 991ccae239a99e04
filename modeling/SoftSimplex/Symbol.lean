import SoftSimplex.Table

/-!
The unknowns of a constraint system and the symbols that stand for them in a tableau.
Besides the external symbols of the variables there are internal ones, made by the solver.
-/

namespace SoftSimplex

structure Variable where
  id : Nat
  deriving DecidableEq, Repr

inductive SymbolKind where
  | external
  /-- Takes up the slack or the error of a constraint. -/
  | slack
  /-- Marks a required equality. -/
  | dummy
  | objective
  /-- Helps to find a first feasible basis. -/
  | artificial
  deriving DecidableEq, Repr

namespace SymbolKind

def isExternal : SymbolKind → Bool
  | external => true
  | _ => false

def isPivotable : SymbolKind → Bool
  | slack | artificial => true
  | _ => false

/-- Restricted symbols take no negative value. -/
def isRestricted : SymbolKind → Bool
  | slack | artificial | dummy => true
  | _ => false

def isDummy : SymbolKind → Bool
  | dummy => true
  | _ => false

def rank : SymbolKind → Nat
  | external => 0
  | slack => 1
  | dummy => 2
  | objective => 3
  | artificial => 4

def letter : SymbolKind → String
  | external => "v"
  | slack => "s"
  | dummy => "d"
  | objective => "z"
  | artificial => "a"

instance : Ord SymbolKind := ⟨fun left right => compare left.rank right.rank⟩

end SymbolKind

structure Symbol where
  id : Nat
  kind : SymbolKind
  deriving DecidableEq, Repr

abbrev SymbolSet := Table Symbol Unit

def Variable.symbol (unknown : Variable) : Symbol := ⟨unknown.id, .external⟩

def Variable.text (unknown : Variable) : String := "v" ++ toString unknown.id

namespace Symbol

/-- The row that a solver minimizes. -/
def mainObjective : Symbol := ⟨0, .objective⟩

def isExternal (symbol : Symbol) : Bool := symbol.kind.isExternal

def isPivotable (symbol : Symbol) : Bool := symbol.kind.isPivotable

def isRestricted (symbol : Symbol) : Bool := symbol.kind.isRestricted

def isDummy (symbol : Symbol) : Bool := symbol.kind.isDummy

def unknown? (symbol : Symbol) : Option Variable :=
  if symbol.isExternal then some ⟨symbol.id⟩ else none

def text (symbol : Symbol) : String := symbol.kind.letter ++ toString symbol.id

instance : Ord Symbol :=
  ⟨fun left right => (compare left.id right.id).then (compare left.kind right.kind)⟩

end Symbol

end SoftSimplex
