import SoftSimplex.Decimal
import SoftSimplex.Session

/-!
How the parts of a constraint system are written: expressions, constraints, tableaux, log records.
-/

namespace SoftSimplex

def commaSeparated (parts : List String) : String := String.intercalate ", " parts

def Weight.text (weight : Weight Float) : String :=
  "[" ++ String.intercalate "," (weight.slots.map decimalText) ++ "]"

def Strength.text (strength : Strength) : String :=
  if strength.isRequired then strength.name
  else strength.name ++ ":" ++ (strength.levelWeight : Weight Float).text

def Expression.text (expression : Expression Float) : String :=
  expression.terms.entries.foldl
    (fun written entry => written ++ " + " ++ decimalText entry.2 ++ "*" ++ entry.1.text)
    (decimalText expression.constant)

def Demand.text (demand : Demand Float) : String :=
  demand.strength.text ++ " \x7b" ++ decimalText demand.weight ++ "\x7d (" ++
    demand.expression.text ++ (if demand.isInequality then " >= 0)" else " = 0)")

def Constraint.text (constraint : Constraint Float) : String := constraint.toDemand.text

def SymbolSet.text (set : SymbolSet) : String :=
  "\x7b" ++ commaSeparated (set.keys.map Symbol.text) ++ "\x7d"

def Tableau.text (tableau : Tableau Float) : String :=
  let rows := tableau.rows.entries.map fun entry =>
    "  " ++ entry.1.text ++ " = " ++ entry.2.text ++ "\n"
  let columns := tableau.columns.entries.map fun entry =>
    "  " ++ entry.1.text ++ ": " ++ SymbolSet.text entry.2 ++ "\n"
  "Tableau:\n" ++ String.join rows ++ "Columns:\n" ++ String.join columns ++
    "Infeasible rows: " ++ SymbolSet.text tableau.infeasible ++ "\n"

def Solver.text (solver : Solver Float) : String :=
  let stays := solver.stays.map fun pair => "(" ++ pair.1.text ++ ", " ++ pair.2.text ++ ")"
  solver.tableau.text ++ "Stay error variables: [" ++ commaSeparated stays ++ "]\n"

namespace Event

def text (current : Constraint Float → Constraint Float) : Event Float → String
  | pivot entering leaving =>
    "pivot: " ++ entering.text ++ " enters, " ++ leaving.text ++ " leaves"
  | artificial symbol row objective =>
    "adding " ++ symbol.text ++ " = " ++ row.text ++ " with artificial objective " ++
      objective.text
  | adding constraint => "add constraint: " ++ (current constraint).text
  | contradicted constraint =>
    "required failure choosing a subject for " ++ (current constraint).text
  | refused constraint fault =>
    "could not add " ++ (current constraint).text ++ ": " ++ fault.message
  | removing constraint => "remove constraint: " ++ (current constraint).text
  | beginEdit count => "begin edit with " ++ toString count ++ " edit variables"
  | endEdit kept => "end edit, keeping " ++ toString kept ++ " edit variables"
  | diagnostic warning => warning.text

end Event

def Session.logRecords (session : Session Float) (events : List (Event Float)) : List String :=
  let logged := events.filter fun event => event.diagnostic?.isNone || session.sink == .log
  logged.map fun event => event.level.text ++ " " ++ event.text session.current

end SoftSimplex
