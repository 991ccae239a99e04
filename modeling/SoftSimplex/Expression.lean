import SoftSimplex.Scalar
import SoftSimplex.Symbol

/-!
Sparse affine expressions: a constant and a coefficient for each symbol that occurs. A coefficient
that a sum or an assignment makes negligible is dropped with its symbol. Operations by which
symbols come and go report it, so that an index of the symbols can follow.
-/

namespace SoftSimplex

inductive TermChange where
  | inserted
  | updated
  | removed
  | unchanged
  deriving DecidableEq, Repr

abbrev TermChange.Report := List (Symbol × TermChange)

def TermChange.isVisible : TermChange → Bool
  | inserted | removed => true
  | _ => false

structure Expression (K : Type) where
  constant : K
  terms : Table Symbol K

namespace Expression

variable {K : Type}

def ofConstant (value : K) : Expression K := ⟨value, ∅⟩

def symbols (expression : Expression K) : List Symbol := expression.terms.keys

def isConstant (expression : Expression K) : Bool := expression.terms.isEmpty

def contains (expression : Expression K) (symbol : Symbol) : Bool :=
  expression.terms.contains symbol

def coefficient [Zero K] (expression : Expression K) (symbol : Symbol) : K :=
  (expression.terms.get? symbol).getD 0

def firstPivotable? (expression : Expression K) : Option Symbol :=
  expression.symbols.find? (·.isPivotable)

def withConstant (expression : Expression K) (value : K) : Expression K :=
  { expression with constant := value }

def increaseConstant [Add K] (expression : Expression K) (amount : K) : Expression K :=
  expression.withConstant (expression.constant + amount)

section Terms

variable [Scalar K]

def addTerm [Add K] (expression : Expression K) (symbol : Symbol) (amount : K) :
    Expression K × TermChange :=
  match expression.terms.get? symbol with
  | some present =>
    if Scalar.negligible (present + amount) then
      ({ expression with terms := expression.terms.swapErase symbol }, .removed)
    else
      ({ expression with terms := expression.terms.insert symbol (present + amount) }, .updated)
  | none =>
    if Scalar.negligible amount then (expression, .unchanged)
    else ({ expression with terms := expression.terms.insert symbol amount }, .inserted)

def setTerm (expression : Expression K) (symbol : Symbol) (value : K) :
    Expression K × TermChange :=
  if Scalar.negligible value then
    if expression.contains symbol then
      ({ expression with terms := expression.terms.swapErase symbol }, .removed)
    else (expression, .unchanged)
  else
    ({ expression with terms := expression.terms.insert symbol value },
      if expression.contains symbol then .updated else .inserted)

end Terms

def removeTerm (expression : Expression K) (symbol : Symbol) : Expression K :=
  { expression with terms := expression.terms.swapErase symbol }

def times [Mul K] (expression : Expression K) (factor : K) : Expression K where
  constant := expression.constant * factor
  terms := expression.terms.mapValues (· * factor)

def addTerms [Add K] [Mul K] [Scalar K] (factor : K) :
    List (Symbol × K) → Expression K → Expression K × TermChange.Report
  | [], expression => (expression, [])
  | (symbol, value) :: rest, expression =>
    let (next, change) := expression.addTerm symbol (value * factor)
    let (result, report) := addTerms factor rest next
    (result, if change.isVisible then (symbol, change) :: report else report)

def addScaledReporting [Add K] [Mul K] [Scalar K] (expression other : Expression K) (factor : K) :
    Expression K × TermChange.Report :=
  addTerms factor other.terms.entries
    (expression.increaseConstant (other.constant * factor))

def addScaled [Add K] [Mul K] [Scalar K] (expression other : Expression K) (factor : K) :
    Expression K :=
  (expression.addScaledReporting other factor).1

def substituteReporting? [Add K] [Mul K] [Scalar K] (expression : Expression K) (symbol : Symbol)
    (replacement : Expression K) : Option (Expression K × TermChange.Report) :=
  (expression.terms.get? symbol).map fun factor =>
    (expression.removeTerm symbol).addScaledReporting replacement factor

def substitute [Add K] [Mul K] [Scalar K] (expression : Expression K) (symbol : Symbol)
    (replacement : Expression K) : Expression K :=
  ((expression.substituteReporting? symbol replacement).map Prod.fst).getD expression

section Solving

variable [One K] [Neg K] [Mul K] [Div K]

/-- Solves `0 = expression` for a symbol that occurs in it. The first result is the reciprocal of
the coefficient which the symbol had, the second what the symbol equals. -/
def solveFor? (expression : Expression K) (subject : Symbol) : Option (K × Expression K) :=
  (expression.terms.get? subject).map fun value =>
    (1 / value, (expression.removeTerm subject).times (-(1 / value)))

/-- Turns `leaving = expression` into an equation for a symbol that occurs in the expression. -/
def exchange? [Scalar K] (expression : Expression K) (leaving entering : Symbol) :
    Option (Expression K) :=
  (expression.solveFor? entering).map fun (reciprocal, solved) =>
    (solved.setTerm leaving reciprocal).1

end Solving

section Building

variable [Zero K] [Scalar K]

def ofSymbol (symbol : Symbol) (value : K) : Expression K :=
  ((ofConstant 0).setTerm symbol value).1

def ofTerm (unknown : Variable) (value : K) : Expression K := ofSymbol unknown.symbol value

def ofVariable [One K] (unknown : Variable) : Expression K := ofTerm unknown 1

end Building

def coefficientOf [Zero K] (expression : Expression K) (unknown : Variable) : K :=
  expression.coefficient unknown.symbol

section Operators

variable [One K] [Add K] [Mul K] [Scalar K]

instance : Add (Expression K) := ⟨fun left right => left.addScaled right 1⟩

instance [Neg K] : Sub (Expression K) := ⟨fun left right => left.addScaled right (-1)⟩

end Operators

instance [One K] [Neg K] [Mul K] : Neg (Expression K) := ⟨fun expression => expression.times (-1)⟩

instance [Mul K] : HMul (Expression K) K (Expression K) := ⟨times⟩

/-- The value over the variables, internal symbols counting as zero. The sum starts from the zero
that leaves every number as it is. -/
def evaluate [Zero K] [Add K] [Neg K] [Mul K] (expression : Expression K)
    (valueOf : Variable → K) : K :=
  let products := expression.terms.entries.filterMap fun entry =>
    entry.1.unknown?.map fun unknown => entry.2 * valueOf unknown
  products.foldl (· + ·) (-0) + expression.constant

instance [BEq K] : BEq (Expression K) where
  beq left right :=
    left.constant == right.constant && left.terms.size == right.terms.size &&
      left.terms.entries.all fun entry =>
        match right.terms.get? entry.1 with
        | some value => entry.2 == value
        | none => false

end Expression

end SoftSimplex
