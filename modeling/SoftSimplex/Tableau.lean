import SoftSimplex.Action

/-!
The sparse tableau. A row gives a basic symbol as an expression in parametric symbols; a column
lists the rows in which a parametric symbol occurs. Every change of a row goes through the
functions here, which keep the columns in step.
-/

namespace SoftSimplex

structure Tableau (K : Type) where
  rows : Table Symbol (Expression K)
  columns : Table Symbol SymbolSet
  /-- Rows queued because their constant went below zero. -/
  infeasible : SymbolSet
  basicExternals : SymbolSet
  parametricExternals : SymbolSet

namespace Tableau

variable {K : Type}

def empty : Tableau K := ⟨∅, ∅, ∅, ∅, ∅⟩

instance : EmptyCollection (Tableau K) := ⟨empty⟩

def row? (tableau : Tableau K) (basic : Symbol) : Option (Expression K) := tableau.rows.get? basic

def isBasic (tableau : Tableau K) (symbol : Symbol) : Bool := tableau.rows.contains symbol

def hasColumn (tableau : Tableau K) (symbol : Symbol) : Bool := tableau.columns.contains symbol

def column (tableau : Tableau K) (symbol : Symbol) : List Symbol :=
  ((tableau.columns.get? symbol).getD ∅).keys

def setRow (tableau : Tableau K) (basic : Symbol) (row : Expression K) : Tableau K :=
  { tableau with rows := tableau.rows.insert basic row }

def markInfeasible (tableau : Tableau K) (basic : Symbol) : Tableau K :=
  { tableau with infeasible := tableau.infeasible.insert basic () }

def clearInfeasible (tableau : Tableau K) : Tableau K := { tableau with infeasible := ∅ }

def noteInserted (tableau : Tableau K) (basic symbol : Symbol) : Tableau K where
  rows := tableau.rows
  columns := tableau.columns.upsert symbol ∅ (·.insert basic ())
  infeasible := tableau.infeasible
  basicExternals := tableau.basicExternals
  parametricExternals :=
    if symbol.isExternal then tableau.parametricExternals.insert symbol ()
    else tableau.parametricExternals

def noteRemoved (tableau : Tableau K) (basic symbol : Symbol) : Tableau K :=
  { tableau with columns := tableau.columns.modify symbol (·.swapErase basic) }

def noteChange (tableau : Tableau K) (basic symbol : Symbol) : TermChange → Tableau K
  | .inserted => tableau.noteInserted basic symbol
  | .removed => tableau.noteRemoved basic symbol
  | .updated | .unchanged => tableau

def noteReport (tableau : Tableau K) (basic : Symbol) (report : TermChange.Report) : Tableau K :=
  report.foldl (fun current entry => current.noteChange basic entry.1 entry.2) tableau

def addRow (tableau : Tableau K) (basic : Symbol) (row : Expression K) : Tableau K :=
  let indexed := row.symbols.foldl (fun current symbol => current.noteInserted basic symbol) tableau
  let listed :=
    if basic.isExternal then
      { indexed with basicExternals := indexed.basicExternals.insert basic () }
    else indexed
  listed.setRow basic row

def removeRow (tableau : Tableau K) (basic : Symbol) : Tableau K :=
  match tableau.row? basic with
  | none => tableau
  | some row =>
    let cut := row.symbols.foldl (fun current symbol => current.noteRemoved basic symbol)
      { tableau with rows := tableau.rows.swapErase basic }
    { cut with
      infeasible := cut.infeasible.swapErase basic
      basicExternals :=
        if basic.isExternal then cut.basicExternals.swapErase basic else cut.basicExternals }

def removeColumn (tableau : Tableau K) (symbol : Symbol) : Tableau K :=
  let rows := (tableau.column symbol).foldl
    (fun rows basic => rows.modify basic (·.removeTerm symbol)) tableau.rows
  { rows
    columns := tableau.columns.swapErase symbol
    infeasible := tableau.infeasible
    basicExternals :=
      if symbol.isExternal then tableau.basicExternals.swapErase symbol
      else tableau.basicExternals
    parametricExternals :=
      if symbol.isExternal then tableau.parametricExternals.swapErase symbol
      else tableau.parametricExternals }

section Terms

variable [Scalar K]

def addTermToRow [Add K] (tableau : Tableau K) (basic symbol : Symbol) (amount : K) : Tableau K :=
  match tableau.row? basic with
  | none => tableau
  | some row =>
    let (next, change) := row.addTerm symbol amount
    (tableau.setRow basic next).noteChange basic symbol change

def setTermInRow (tableau : Tableau K) (basic symbol : Symbol) (value : K) : Tableau K :=
  match tableau.row? basic with
  | none => tableau
  | some row =>
    let (next, change) := row.setTerm symbol value
    (tableau.setRow basic next).noteChange basic symbol change

def addScaledToRow [Add K] [Mul K] (tableau : Tableau K) (basic : Symbol)
    (expression : Expression K) (factor : K) : Tableau K :=
  match tableau.row? basic with
  | none => tableau
  | some row =>
    let (next, report) := row.addScaledReporting expression factor
    (tableau.setRow basic next).noteReport basic report

end Terms

section Constants

variable [Zero K] [LT K] [DecidableLT K]

def checkFeasible (tableau : Tableau K) (basic : Symbol) (constant : K) : Tableau K :=
  if basic.isRestricted ∧ constant < 0 then tableau.markInfeasible basic else tableau

def substituteInRow [Add K] [Mul K] [Scalar K] (tableau : Tableau K) (symbol : Symbol)
    (replacement : Expression K) (basic : Symbol) : Tableau K :=
  match tableau.row? basic with
  | none => tableau
  | some row =>
    match row.substituteReporting? symbol replacement with
    | none => tableau.checkFeasible basic row.constant
    | some (next, report) =>
      ((tableau.setRow basic next).noteReport basic report).checkFeasible basic next.constant

def eliminate [Add K] [Mul K] [Scalar K] (tableau : Tableau K) (symbol : Symbol)
    (replacement : Expression K) : Tableau K :=
  let swept := (tableau.column symbol).foldl
    (fun current basic => current.substituteInRow symbol replacement basic)
    { tableau with columns := tableau.columns.swapErase symbol }
  if symbol.isExternal then
    { swept with
      basicExternals := swept.basicExternals.insert symbol ()
      parametricExternals := swept.parametricExternals.swapErase symbol }
  else swept

end Constants

variable [Zero K] [One K] [Add K] [Neg K] [Mul K] [Div K] [LT K] [DecidableLT K] [Scalar K]

def pivot (entering leaving : Symbol) : Action K (Tableau K) Unit := do
  Action.report [.pivot entering leaving]
  let tableau ← Action.get
  match tableau.row? leaving with
  | none => Action.fail (.internal .leavingNotBasic)
  | some row =>
    Action.modify (·.removeRow leaving)
    match row.exchange? leaving entering with
    | none => Action.fail (.internal .enteringNotInRow)
    | some solved => Action.modify fun cut => (cut.eliminate entering solved).addRow entering solved

end Tableau

end SoftSimplex
